import Mathlib.Data.List.Basic
import Mathlib.Data.List.Forall2
import Mathlib.Data.List.Perm.Basic
import PatchSearch.Evaluation.Ledger
import PatchSearch.Proofs.Files.Growth
import PatchSearch.Proofs.Json.Record
import PatchSearch.Proofs.Text.ByteLines

/-!
What directories list and what files hold while a tree grows. A directory is listed by the names of
the positions in it. A file that is made adds its name to its directory, and content that is put
somewhere else neither brings nor takes a name that is looked for; a file that has one name only
keeps its content as long as nothing is written where it stands.
-/
namespace PatchSearch.FileTree

section Listing

variable {t : FileTree} {p q : Position} {content : ByteArray}

/-- The positions of a tree where something stands, except for the root. -/
def positions (t : FileTree) : List Position :=
  t.items.map Prod.fst

/-- The name of a position in a directory, if it is one in that directory. -/
def nameIn (p q : Position) : Option String :=
  if q.length = p.length + 1 && p.isPrefixOf q then q.getLast? else none

theorem nameIn_eq_some_iff {name : String} : nameIn p q = some name ↔ q = p ++ [name] := by
  unfold nameIn
  constructor
  · intro h
    split at h
    · next hin =>
      rw [Bool.and_eq_true, decide_eq_true_eq, List.isPrefixOf_iff_prefix] at hin
      obtain ⟨hlength, rest, rfl⟩ := hin
      rw [List.length_append, Nat.add_left_cancel_iff] at hlength
      obtain ⟨name', rfl⟩ := List.length_eq_one_iff.mp hlength
      rw [List.getLast?_concat] at h
      rw [Option.some.inj h]
    · cases h
  · rintro rfl
    simp

/-- A directory is listed by the names of the positions in it. -/
theorem namesBelow_perm (t : FileTree) (p : Position) :
    (t.namesBelow p).Perm (t.positions.filterMap (nameIn p)) := by
  unfold namesBelow positions
  rw [List.filterMap_map]
  exact List.mergeSort_perm _ _

theorem mem_namesBelow {name : String} : name ∈ t.namesBelow p ↔ p ++ [name] ∈ t.positions := by
  rw [(t.namesBelow_perm p).mem_iff, List.mem_filterMap]
  constructor
  · rintro ⟨q, hq, hname⟩
    exact nameIn_eq_some_iff.mp hname ▸ hq
  · exact fun h => ⟨_, h, nameIn_eq_some_iff.mpr rfl⟩

theorem entry?_eq_none_of_not_mem (hp : p ≠ []) (h : p ∉ t.positions) : t.entry? p = none := by
  unfold entry?
  rw [item?_of_ne_nil t hp, Option.map_eq_none_iff, List.lookup_eq_none_iff]
  intro x hx
  have hne : p ≠ x.1 := by
    rintro rfl
    exact h (List.mem_map_of_mem hx)
  simpa using hne

theorem positions_change (t : FileTree) (n : ℕ) (f : Item → Item) :
    (t.change n f).positions = t.positions := by
  unfold positions change
  rw [List.map_map]
  refine List.map_congr_left fun x _ => ?_
  dsimp only [Function.comp]
  split <;> rfl

theorem positions_place (t : FileTree) (p : Position) (x : Item) :
    (t.place p x).positions = p :: t.positions.filter (· != p) := by
  have hnote (t : FileTree) (q : Position) : (t.note q).positions = t.positions := by
    unfold note changeAt
    split
    · exact positions_change t _ _
    · rfl
  unfold place
  rw [hnote]
  simp [positions, keep, List.filter_map, Function.comp_def]

/-- Content is given to a file that stands somewhere already, or to one that is made. -/
theorem positions_putContent (t : FileTree) (p : Position) (content : ByteArray) :
    (t.putContent p content).positions = t.positions ∧ t.entry? p ≠ none ∨
      (t.putContent p content).positions = p :: t.positions.filter (· != p) := by
  unfold putContent
  split
  · next hp =>
    refine Or.inl ⟨positions_change t _ _, fun hnone => ?_⟩
    unfold entry? at hnone
    rw [hp] at hnone
    cases hnone
  · exact Or.inr (positions_place _ p _)

/-- A file that is made is listed in its directory, in front of what was listed before. -/
theorem namesBelow_putContent {name : String} (h : name ∉ t.namesBelow p) :
    ((t.putContent (p ++ [name]) content).namesBelow p).Perm (name :: t.namesBelow p) := by
  rw [mem_namesBelow] at h
  have hpositions : (t.putContent (p ++ [name]) content).positions =
      (p ++ [name]) :: t.positions := by
    obtain ⟨-, hstands⟩ | hput := t.positions_putContent (p ++ [name]) content
    · exact absurd (entry?_eq_none_of_not_mem (by simp) h) hstands
    · rw [hput, List.filter_eq_self.mpr]
      intro q hq
      have hne : q ≠ p ++ [name] := by
        rintro rfl
        exact h hq
      simpa using hne
  refine (namesBelow_perm _ p).trans ?_
  rw [hpositions, List.filterMap_cons_some (nameIn_eq_some_iff.mpr rfl)]
  exact (t.namesBelow_perm p).symm.cons name

/-- Of the names that are looked for in a directory, none comes or goes with content that is put
somewhere else. -/
theorem filter_namesBelow_putContent {wanted : String → Bool}
    (h : ∀ name, wanted name = true → q ≠ p ++ [name]) :
    (((t.putContent q content).namesBelow p).filter wanted).Perm
      ((t.namesBelow p).filter wanted) := by
  refine ((namesBelow_perm _ p).filter _).trans (List.Perm.trans ?_
    ((namesBelow_perm t p).filter _).symm)
  have hnot : (nameIn p q).filter wanted = none := by
    rw [Option.filter_eq_none_iff]
    intro name hname hwanted
    exact h name hwanted (nameIn_eq_some_iff.mp hname)
  obtain ⟨hsame, -⟩ | hput := t.positions_putContent q content
  · rw [hsame]
  · rw [hput, List.filter_filterMap, List.filter_filterMap,
      List.filterMap_cons_none (f := fun r => (nameIn p r).filter wanted) hnot,
      List.filterMap_filter]
    refine List.Perm.of_eq (List.filterMap_congr fun r _ => ?_)
    by_cases hr : r = q
    · simp [hr, hnot]
    · simp [hr]

theorem list_eq_ok_iff {path : String} {names : List String} :
    t.list path = .ok names ↔
      ∃ p, t.locate path = .ok p ∧ t.entry? p = some .directory ∧ t.namesBelow p = names := by
  unfold list find at?
  constructor
  · intro h
    obtain ⟨⟨p, e⟩, hfind, h⟩ := bind_eq_ok_iff.mp h
    obtain ⟨p', hp, hat⟩ := bind_eq_ok_iff.mp hfind
    split at h
    · next heq =>
      cases heq
      split at hat
      · cases hat
      · next hdir =>
        cases hat
        exact ⟨p, hp, hdir, Except.ok.inj h⟩
      · split at hat
        · cases hat
        · cases hat
          contradiction
    · cases h
  · rintro ⟨p, hp, hdir, rfl⟩
    rw [hp]
    simp only [bind, Except.bind, hdir]

end Listing

section Files

variable {t t' : FileTree} {p q : Position} {path path' : String} {content content' : ByteArray}

/-- A file with one name, where a path leads to. -/
structure HasFile (t : FileTree) (path : String) (p : Position) (content : ByteArray) : Prop where
  located : t.locate path = .ok p
  file : t.entry? p = some (.file content)
  single : ∀ q, t.Shares p q → q = p

theorem HasFile.read (h : t.HasFile path p content) (hpath : endsInSlash path = false) :
    t.read path = .ok content := by
  unfold FileTree.read find at?
  rw [h.located]
  simp only [bind, Except.bind, h.file, hpath]
  rfl

/-- What is written where nothing stood is a file with one name. -/
theorem Wrote.hasFile (h : Wrote t t' p content) (hp : t.stands p = none)
    (hlocated : t'.locate path = .ok p) : t'.HasFile path p content := by
  obtain ⟨⟨e, n⟩, hthere⟩ := Option.isSome_iff_exists.mp h.there
  refine ⟨hlocated, h.shared p (shares_self hthere), ?_⟩
  rintro q ⟨e', e'', m, hshare, hq⟩
  cases hshare.symm.trans hthere
  exact (h.grows.made p e n hp hthere).2.2 q e'' hq

/-- A file with one name stays when content is written elsewhere. -/
theorem HasFile.of_wrote (hfile : t.HasFile path p content) (h : Wrote t t' q content')
    (hne : q ≠ p) : t'.HasFile path p content := by
  have hthere : (t.stands p).isSome := by
    obtain ⟨n, hn⟩ := entry?_eq_some_iff.mp hfile.file
    rw [hn]
    rfl
  have hsingle (q : Position) (hq : t'.Shares p q) : q = p :=
    hfile.single q ((h.grows.shares_iff hthere).mp hq)
  refine ⟨h.grows.locate hfile.located, ?_, hsingle⟩
  rw [h.apart p, hfile.file]
  rintro ⟨e, e', n, hq, hp⟩
  exact hne (hsingle q ⟨e', e, n, hp, hq⟩)

end Files

end PatchSearch.FileTree

/-!
Records that are stored load back. A record is written as a document that is read as that record,
and its file name tells its number. So as long as records have different numbers, a directory that
had no records holds exactly those that were written, each in a file of its own, whatever else is
written among them; and loading it gives them in ascending order, however it is listed.
-/
namespace PatchSearch

open Json

section Codec

/-- A record whose numbers fit words. -/
structure PatchRecord.Fits (r : PatchRecord) : Prop where
  id : r.id < wordCount
  evaluations : r.evaluations < wordCount
  elapsedMs : r.elapsedMs < wordCount
  operators : ∀ n ∈ r.operators, n < wordCount
  locations : ∀ n ∈ r.locations, n < wordCount
  ingredients : ∀ o ∈ r.ingredients, ∀ n ∈ o, n < wordCount
  edits : ∀ e ∈ r.edits, e.location.line < halfWordCount

theorem Operator.decode_encode (o : Operator) : Operator.decode o.encode = some o := by
  cases o <;> rfl

theorem RecordedEdit.decode_encode {e : RecordedEdit} (h : e.location.line < halfWordCount) :
    RecordedEdit.decode e.encode = some e := by
  simp [RecordedEdit.decode, RecordedEdit.encode, fields?, slotNamed?, membersNamed,
    Fields.required, Fields.optional, Fields.value?, toText, Location.decode_encode e.location h,
    Operator.decode_encode, toOption_ofOption_text]

theorem PatchRecord.decode_encode {r : PatchRecord} (h : r.Fits) :
    PatchRecord.decode r.encode = some r := by
  have hnats {ns : List ℕ} (hns : ∀ n ∈ ns, n < wordCount) :
      toArray toWord (ofList .nat ns) = some ns :=
    toArray_ofList fun n hn => toWord_nat n (hns n hn)
  have hingredients : toArray (toOption toWord) (ofList (ofOption .nat) r.ingredients) =
      some r.ingredients := toArray_ofList fun o ho => toOption_ofOption_nat (h.ingredients o ho)
  have hedits : toArray RecordedEdit.decode (ofList RecordedEdit.encode r.edits) = some r.edits :=
    toArray_ofList fun e he => RecordedEdit.decode_encode (h.edits e he)
  simp [PatchRecord.decode, PatchRecord.encode, fields?, slotNamed?, membersNamed,
    Fields.required, Fields.value?, toWord_nat, h.id, h.evaluations, h.elapsedMs,
    hnats h.operators, hnats h.locations, hingredients, hedits]

theorem Location.printable_encode (l : Location) : Printable l.encode := by
  refine .object ?_
  simp [Printable.text, Printable.nat]

theorem PatchRecord.printable_encode (r : PatchRecord) : Printable r.encode := by
  have hedit (e : RecordedEdit) : Printable e.encode := by
    refine .object ?_
    simp [Printable.text, Operator.encode, Location.printable_encode,
      printable_ofOption Printable.text]
  refine .object ?_
  simp [Printable.nat, printable_ofList Printable.nat,
    printable_ofList (printable_ofOption Printable.nat), printable_ofList hedit]

end Codec

namespace PatchRecord

theorem fileName_injective : Function.Injective fileName :=
  numbered_injective "patch_" ".json"

theorem isName_fileName (id : ℕ) : IsName (fileName id) :=
  isName_numbered (c := 'p') "patch_" ".json" (by decide) (by decide) (by decide) (by decide) id

theorem isRecordName_fileName (id : ℕ) : PatchStore.isRecordName (fileName id) = true := by
  unfold PatchStore.isRecordName
  rw [fileName, toList_numbered, Bool.and_eq_true, List.isPrefixOf_iff_prefix,
    List.isSuffixOf_iff_suffix]
  exact ⟨List.prefix_append _ _, ((List.suffix_append _ _).trans (List.suffix_append _ _))⟩

theorem endsInSlash_joinPath (dir : String) (id : ℕ) :
    endsInSlash (joinPath dir (fileName id)) = false := by
  obtain ⟨sep, htext, -⟩ := toList_joinPath_name dir (isName_fileName id)
  unfold endsInSlash
  rw [htext, fileName, toList_numbered, List.getLast?_append, List.getLast?_append, List.getLast?_append,
    List.getLast?_append]
  rfl

/-- The bytes that a record is written as. -/
def bytes (r : PatchRecord) : ByteArray :=
  Text.encode r.encode.pretty

end PatchRecord

namespace FileTree

variable {t t' : FileTree} {dir : String} {d : Position} {rs : List PatchRecord} {r : PatchRecord}

/-- A path to a file in a directory leads to its name in the directory. -/
theorem locate_joinPath_name {q : Position} {name : String} (hdir : t.locate dir = .ok d)
    (hname : IsName name) (hnone : t.entry? (d ++ [name]) = none)
    (hq : t.locate (joinPath dir name) = .ok q) : q = d ++ [name] := by
  have hne : dir ≠ "" := by
    rintro rfl
    cases hdir
  have hsteps : pathSteps (joinPath dir name) = pathSteps dir ++ [name] := by
    rw [pathSteps_joinPath dir hname.relative, pathSteps_of_not_mem hname.separator hname.some]
  obtain ⟨d', hd', through, m, hq⟩ :=
    locate_of_append hne (joinPath_eq_append dir hname.relative) hsteps (List.cons_ne_nil _ _) hq
  cases hdir.symm.trans hd'
  have hstep : stepFrom d name = d ++ [name] := by simp [stepFrom, hname.dot, hname.dots]
  have hlast {jump : Position → List String → Except FileError Position}
      (hq : t.followSteps through jump d [name] = .ok q) : q = d ++ [name] := by
    unfold FileTree.followSteps at hq
    rw [hstep, hnone] at hq
    split at hq
    · cases hq
    · exact (Except.ok.inj hq).symm
  cases m with
  | zero => exact hlast hq
  | succ m => exact hlast hq

/-- Exactly the given records are in a directory, each in a file of its own. -/
structure Stored (t : FileTree) (dir : String) (d : Position) (rs : List PatchRecord) : Prop where
  numbered : t.Numbered
  located : t.locate dir = .ok d
  directory : t.entry? d = some .directory
  listed : ((t.namesBelow d).filter PatchStore.isRecordName).Perm
    (rs.map fun r => PatchRecord.fileName r.id)
  file : ∀ r ∈ rs, t.HasFile (joinPath dir (PatchRecord.fileName r.id))
    (d ++ [PatchRecord.fileName r.id]) r.bytes

theorem Stored.at_time (h : t.Stored dir d rs) (now : ℕ) : Stored { t with now } dir d rs := by
  have hgrows := Grows.at_time h.numbered now
  exact ⟨hgrows.numbered, hgrows.locate h.located, h.directory, h.listed, fun r hr =>
    ⟨hgrows.locate (h.file r hr).located, (h.file r hr).file, (h.file r hr).single⟩⟩

theorem Stored.directory_of_grows (h : t.Stored dir d rs) (hgrows : Grows t t') :
    t'.entry? d = some .directory := by
  have hcases := hgrows.entry?_cases d
  rwa [h.directory] at hcases

/-- A record that is written is in the directory with the others. -/
theorem Stored.record (h : t.Stored dir d rs) (hr : r.id ∉ rs.map (·.id))
    (hw : t.write (joinPath dir (PatchRecord.fileName r.id)) r.bytes = .ok t') :
    t'.Stored dir d (rs ++ [r]) := by
  have hother {r' : PatchRecord} (hr' : r' ∈ rs) :
      PatchRecord.fileName r.id ≠ PatchRecord.fileName r'.id := fun hsame =>
    hr (PatchRecord.fileName_injective hsame ▸ List.mem_map_of_mem hr')
  have hnew : PatchRecord.fileName r.id ∉ t.namesBelow d := fun hmem => by
    have hlisted := h.listed.mem_iff.mp
      (List.mem_filter.mpr ⟨hmem, PatchRecord.isRecordName_fileName r.id⟩)
    obtain ⟨r', hr', hsame⟩ := List.mem_map.mp hlisted
    exact hother hr' hsame.symm
  have hnone : t.entry? (d ++ [PatchRecord.fileName r.id]) = none :=
    entry?_eq_none_of_not_mem (by simp) (mt mem_namesBelow.mpr hnew)
  obtain ⟨q, hq, -, rfl⟩ := write_eq_ok hw
  obtain rfl := locate_joinPath_name h.located (PatchRecord.isName_fileName r.id) hnone hq
  have hwrote : Wrote t _ _ r.bytes := wrote_putContent h.numbered (Or.inr hnone)
  refine ⟨hwrote.grows.numbered, hwrote.grows.locate h.located,
    h.directory_of_grows hwrote.grows, ?_, fun r' hr' => ?_⟩
  · refine ((namesBelow_putContent hnew).filter _).trans ?_
    rw [List.filter_cons_of_pos (PatchRecord.isRecordName_fileName r.id), List.map_append]
    exact (h.listed.cons _).trans (List.perm_append_singleton _ _).symm
  · rcases List.mem_append.mp hr' with hr' | hr'
    · refine (h.file r' hr').of_wrote hwrote fun hsame => hother hr' ?_
      simpa using hsame
    · obtain rfl := List.mem_singleton.mp hr'
      exact hwrote.hasFile (entry?_eq_none_iff.mp hnone) (hwrote.grows.locate hq)

/-- Other files may be written among them. -/
theorem Stored.other {path : String} {content : ByteArray} (h : t.Stored dir d rs)
    (hw : t.write path content = .ok t')
    (hother : ∀ name, PatchStore.isRecordName name = true → t.locate path ≠ .ok (d ++ [name])) :
    t'.Stored dir d rs := by
  obtain ⟨q, hq, hfree, rfl⟩ := write_eq_ok hw
  have hne (name : String) (hname : PatchStore.isRecordName name = true) : q ≠ d ++ [name] := by
    rintro rfl
    exact hother name hname hq
  have hwrote : Wrote t _ _ content := wrote_putContent h.numbered hfree
  exact ⟨hwrote.grows.numbered, hwrote.grows.locate h.located, h.directory_of_grows hwrote.grows,
    (filter_namesBelow_putContent hne).trans h.listed, fun r hr =>
      (h.file r hr).of_wrote hwrote (hne _ (PatchRecord.isRecordName_fileName r.id))⟩

end FileTree

namespace PatchStore

variable {σ : Type} {files : Storage σ} {view : σ → FileTree} {dir : String} {d : Position}
  {s₀ s : PatchStore} {world₀ world world' : σ} {rs : List PatchRecord}

/-- A store is told to keep records, one after the other, and no write of a record fails. Among
them other files may be written, if none of them has the name of a record and stands in the
directory. -/
inductive Keeps (files : Storage σ) (view : σ → FileTree) (dir : String) (s₀ : PatchStore)
    (world₀ : σ) : List PatchRecord → PatchStore → σ → Prop
  | start : Keeps files view dir s₀ world₀ [] s₀ world₀
  | record {rs : List PatchRecord} {r : PatchRecord} {s s' : PatchStore} {world world' : σ}
      {saved : Option String} (h : Keeps files view dir s₀ world₀ rs s world)
      (hr : s.record files r world = (.ok saved, s', world')) :
      Keeps files view dir s₀ world₀ (rs ++ [r]) s' world'
  | other {rs : List PatchRecord} {s : PatchStore} {world world' : σ} {path : String}
      {content : ByteArray} (h : Keeps files view dir s₀ world₀ rs s world)
      (hw : files.write path content world = (.ok (), world'))
      (hother : ∀ d name, (view world).locate dir = .ok d → isRecordName name = true →
        (view world).locate path ≠ .ok (d ++ [name])) :
      Keeps files view dir s₀ world₀ rs s world'

/-- Directories are listed in some order. -/
def ListsAs (files : Storage σ) (view : σ → FileTree) : Prop :=
  ∀ path world names, (view world).list path = .ok names →
    ∃ names', files.list path world = .ok names' ∧ names'.Perm names

/-- What is written to files that are kept in a tree is written to the tree. -/
theorem write_of_keptIn (hkept : files.KeptIn view) {path : String} {content : ByteArray}
    (h : files.write path content world = (.ok (), world')) :
    ∃ now, FileTree.write { view world with now } path content = .ok (view world') := by
  obtain ⟨now, hsame⟩ := hkept.write path content world
  refine ⟨now, ?_⟩
  rw [h] at hsame
  unfold FileTree.storage at hsame
  dsimp only at hsame
  split at hsame
  · next t' ht' => rw [ht', (Prod.mk.inj hsame).2]
  · cases (Prod.mk.inj hsame).1

/-- A record that is kept was written to the directory of the store. -/
theorem record_eq_ok {r : PatchRecord} {s' : PatchStore} {saved : Option String}
    (hdir : s.outputDir = some dir) (h : s.record files r world = (.ok saved, s', world')) :
    s'.outputDir = some dir ∧
      files.write (joinPath dir (PatchRecord.fileName r.id)) r.bytes world = (.ok (), world') := by
  unfold record at h
  rw [hdir] at h
  dsimp only at h
  split at h
  · next hw =>
    cases h
    exact ⟨rfl, hw⟩
  · cases h

/-- The records that a store was told to keep stand in its directory. -/
theorem Keeps.stored (hkept : files.KeptIn view) (hdir : s₀.outputDir = some dir)
    (hstart : (view world₀).Stored dir d []) (h : Keeps files view dir s₀ world₀ rs s world)
    (hids : (rs.map (·.id)).Nodup) : s.outputDir = some dir ∧ (view world).Stored dir d rs := by
  induction h with
  | start => exact ⟨hdir, hstart⟩
  | @record rs r s s' world world' saved h hr ih =>
    rw [List.map_append, List.nodup_append] at hids
    obtain ⟨hearlier, -, hnew⟩ := hids
    obtain ⟨hs, hstored⟩ := ih hearlier
    obtain ⟨hs', hw⟩ := record_eq_ok hs hr
    obtain ⟨now, hw⟩ := write_of_keptIn hkept hw
    exact ⟨hs', (hstored.at_time now).record (fun hmem => hnew _ hmem _ (by simp) rfl) hw⟩
  | @other rs s world world' path content h hw hother ih =>
    obtain ⟨hs, hstored⟩ := ih hids
    obtain ⟨now, hw⟩ := write_of_keptIn hkept hw
    refine ⟨hs, (hstored.at_time now).other hw fun name hname hlocated => ?_⟩
    have hback : FileTree.Grows { view world with now } (view world) :=
      .of_stands_eq (FileTree.Grows.at_time hstored.numbered now).numbered (fun _ => rfl) rfl rfl
    exact hother d name hstored.located hname (hback.locate hlocated)

/-- A record that stands in the directory is read from it. -/
theorem readDocument_of_stored (hkept : files.KeptIn view) (h : (view world).Stored dir d rs)
    {r : PatchRecord} (hr : r ∈ rs) (hfits : r.Fits) :
    files.readDocument PatchRecord.decode (joinPath dir (PatchRecord.fileName r.id)) world =
      .ok r := by
  obtain ⟨now, hread⟩ := hkept.read (joinPath dir (PatchRecord.fileName r.id)) world
  rw [((h.at_time now).file r hr).read (PatchRecord.endsInSlash_joinPath dir r.id)] at hread
  have htext : Text.decode? r.bytes = some r.encode.pretty :=
    (Text.decode?_eq_some_iff _ _).mpr rfl
  have hvalue : (parse? r.encode.pretty).bind PatchRecord.decode = some r := by
    rw [parse?_pretty r.printable_encode, Option.bind_some, PatchRecord.decode_encode hfits]
  unfold Storage.readDocument Storage.readText
  simp only [hread, htext, hvalue, bind, Except.bind]

/-- A directory that holds exactly the given records is loaded as them, ascending. -/
theorem loadRecords_of_stored (hkept : files.KeptIn view) (hlists : ListsAs files view)
    (h : (view world).Stored dir d rs) (hids : (rs.map (·.id)).Nodup)
    (hfits : ∀ r ∈ rs, r.Fits) :
    ∃ loaded, loadRecords files dir world = .ok loaded ∧ loaded.Perm rs ∧
      loaded.Pairwise (·.id < ·.id) := by
  obtain ⟨names, hnames, hperm⟩ := hlists dir world _
    (FileTree.list_eq_ok_iff.mpr ⟨d, h.located, h.directory, rfl⟩)
  -- the names are those of the records, in the order of some arrangement of the records
  have hall : List.Forall₂ (fun name r => name = PatchRecord.fileName r.id)
      (rs.map fun r => PatchRecord.fileName r.id) rs :=
    List.forall₂_map_left_iff.mpr (List.forall₂_same.mpr fun _ _ => rfl)
  obtain ⟨rs', hrs', hsame⟩ :=
    List.perm_comp_forall₂ ((hperm.filter isRecordName).trans h.listed) hall
  rw [← List.forall₂_map_right_iff, List.forall₂_eq_eq_eq] at hrs'
  have hread : (rs'.map fun r => PatchRecord.fileName r.id).mapM (fun name =>
      files.readDocument PatchRecord.decode (joinPath dir name) world) = .ok rs' := by
    rw [List.mapM_map]
    refine (mapM_eq_ok_map (g := id) fun r hr => ?_).trans (by rw [List.map_id])
    exact readDocument_of_stored hkept h (hsame.subset hr) (hfits r (hsame.subset hr))
  refine ⟨rs'.mergeSort fun a b => decide (a.id ≤ b.id), ?_, (List.mergeSort_perm _ _).trans hsame,
    ?_⟩
  · unfold loadRecords
    simp only [hnames, hrs', hread, bind, Except.bind, pure, Except.pure]
  · have hsorted := @List.pairwise_mergeSort PatchRecord (fun a b => decide (a.id ≤ b.id))
      (fun a b c => by simpa using Nat.le_trans) (fun a b => by simpa using Nat.le_total a.id b.id)
      rs'
    have hdistinct : (rs'.mergeSort fun a b => decide (a.id ≤ b.id)).Pairwise (·.id ≠ ·.id) := by
      have hperm := ((List.mergeSort_perm rs' fun a b => decide (a.id ≤ b.id)).trans hsame).map
        (·.id)
      exact List.pairwise_map.mp (hperm.nodup_iff.mpr hids)
    refine hsorted.imp₂ (fun a b hle hne => ?_) hdistinct
    exact lt_of_le_of_ne (of_decide_eq_true hle) hne

/-- Records that were kept load back. A store keeps records with different numbers in a directory
without records, where no write of a record fails; other files may stand there before, and may be
written between the records and after them. Then the records of the directory load, in whatever
order it is listed: exactly those that were kept, each once, ascending by number. -/
theorem records_load_back (hkept : files.KeptIn view) (hlists : ListsAs files view)
    {names : List String} (hn : (view world₀).Numbered) (hdir : s₀.outputDir = some dir)
    (hlist : (view world₀).list dir = .ok names)
    (hempty : ∀ name ∈ names, isRecordName name = false)
    (hrun : Keeps files view dir s₀ world₀ rs s world) (hids : (rs.map (·.id)).Nodup)
    (hfits : ∀ r ∈ rs, r.Fits) :
    ∃ loaded, loadRecords files dir world = .ok loaded ∧ loaded.Perm rs ∧
      loaded.Pairwise (·.id < ·.id) := by
  obtain ⟨d, hlocated, hdirectory, rfl⟩ := FileTree.list_eq_ok_iff.mp hlist
  have hstart : (view world₀).Stored dir d [] := by
    refine ⟨hn, hlocated, hdirectory, ?_, nofun⟩
    rw [List.filter_eq_nil_iff.mpr fun name hname => by simp [hempty name hname]]
    rfl
  exact loadRecords_of_stored hkept hlists (hrun.stored hkept hdir hstart hids).2 hids hfits

/-- Files of a tree, with directories listed from the end. -/
def backwardStorage : Storage FileTree where
  read := FileTree.storage.read
  write := FileTree.storage.write
  makeDirs := FileTree.storage.makeDirs
  list path t := (t.list path).map List.reverse

/-- A directory with another file in it. -/
def notedTree : FileTree where
  items := [(["out"], ⟨.directory, 1, 493, 0⟩), (["out", "notes.txt"], ⟨.file .empty, 2, 420, 0⟩)]
  here := []
  nextNumber := 3

/-- A replacement that is accepted as the given patch. -/
def swapRecord (id : ℕ) : PatchRecord where
  id
  evaluations := id + 1
  elapsedMs := 1500
  operators := [1]
  locations := [0]
  ingredients := [some 0]
  edits := [⟨.replace, ⟨"A.java", 3⟩, "x++;", some "x--;"⟩]

/-- The tenth patch is kept before the second one. -/
theorem records_load_back_of_swapped :
    ∃ s world, Keeps backwardStorage id "out" ⟨[], [], some "out"⟩ notedTree
        [swapRecord 10, swapRecord 2] s world ∧
      loadRecords backwardStorage "out" world = .ok [swapRecord 2, swapRecord 10] := by
  have hfits (id : ℕ) (h : id + 1 < wordCount) : (swapRecord id).Fits := by
    have hword : 1500 < wordCount := by decide
    refine ⟨Nat.lt_of_succ_lt h, h, hword, ?_, ?_, ?_, ?_⟩ <;> simp [swapRecord] <;> decide
  have hn : notedTree.Numbered := FileTree.numbered_of_nodup (by decide) (by decide) (by decide)
  have hkept : backwardStorage.KeptIn id :=
    ⟨fun _ world => ⟨world.now, rfl⟩, fun _ _ world => ⟨world.now, rfl⟩,
      fun _ world => ⟨world.now, rfl⟩⟩
  have hlists : ListsAs backwardStorage id := fun path world names h =>
    ⟨names.reverse, by simp [backwardStorage, show FileTree.list world path = .ok names from h,
      Except.map], List.reverse_perm names⟩
  have hwrites : (match record ⟨[], [], some "out"⟩ backwardStorage (swapRecord 10)
        notedTree with
      | (saved, s, world) => (saved, (s.record backwardStorage (swapRecord 2) world).1)) =
      (.ok (some "out/patch_10.json"), .ok (some "out/patch_2.json")) := by
    decide +kernel
  rcases hfirst : record ⟨[], [], some "out"⟩ backwardStorage (swapRecord 10)
    notedTree with ⟨saved, s₁, world₁⟩
  rw [hfirst] at hwrites
  rcases hsecond : s₁.record backwardStorage (swapRecord 2) world₁ with ⟨saved', s₂, world₂⟩
  dsimp only at hwrites
  rw [hsecond] at hwrites
  obtain ⟨rfl, rfl⟩ := Prod.mk.inj hwrites
  have hrun : Keeps backwardStorage id "out" ⟨[], [], some "out"⟩ notedTree
      [swapRecord 10, swapRecord 2] s₂ world₂ :=
    .record (.record .start hfirst) hsecond
  have hlist : notedTree.list "out" = .ok ["notes.txt"] := by decide +kernel
  obtain ⟨loaded, hload, hperm, hsorted⟩ := records_load_back hkept hlists hn rfl hlist
    (by decide +kernel) hrun (by decide) (by simp [hfits 10 (by decide), hfits 2 (by decide)])
  have hascending : [swapRecord 2, swapRecord 10].Pairwise (·.id < ·.id) := by decide
  have hloaded : loaded = [swapRecord 2, swapRecord 10] :=
    (hperm.trans (List.Perm.swap _ _ _)).eq_of_pairwise
      (fun a b _ _ hab hba => absurd (hab.trans hba) (lt_irrefl _)) hsorted hascending
  exact ⟨_, _, hrun, hloaded ▸ hload⟩

end PatchStore

end PatchSearch
