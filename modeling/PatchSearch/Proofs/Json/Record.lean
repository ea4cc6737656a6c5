import Mathlib.Data.List.Nodup
import Mathlib.Data.List.Pairwise
import PatchSearch.Json.Record
import PatchSearch.Proofs.Json.Numerals

/-!
Records under other spellings. What is written for a record may be rewritten: fields take other
names that they are known by, members change places, members that are no fields come in, and fields
are taken out. In every step a field keeps its one value until it is taken out, so the fields of the
record are found with the values that were written, and those that are missing get their defaults. A
field that is named twice is found in no record.
-/
namespace PatchSearch.Json

section Values

theorem toBool_bool (b : Bool) : toBool (.bool b) = some b :=
  rfl

theorem toFloat_ofFloat {x : Float} (h : x.isFinite = true) : toFloat (ofFloat x) = some x := by
  rw [ofFloat, if_pos h]
  exact if_pos h

theorem toOption_ofOption_text (o : Option String) :
    toOption toText (ofOption .text o) = some o :=
  toOption_ofOption toText .text (fun _ => rfl) (fun _ => nofun) o

theorem toOption_ofOption_nat {o : Option ℕ} (h : ∀ n ∈ o, n < wordCount) :
    toOption toWord (ofOption .nat o) = some o := by
  cases o with
  | none => rfl
  | some n => simp [ofOption, toOption, toWord_nat n (h n rfl)]

theorem toOption_ofOption_float {o : Option Float} (h : ∀ x ∈ o, x.isFinite = true) :
    toOption toFloat (ofOption ofFloat o) = some o := by
  cases o with
  | none => rfl
  | some x =>
    have hx := toFloat_ofFloat (h x rfl)
    rw [ofFloat, if_pos (h x rfl)] at hx
    simp [ofOption, ofFloat, h x rfl, toOption, hx]

theorem toArray_ofList {α : Type} {decode : Decoder α} {encode : α → Json} {items : List α}
    (h : ∀ a ∈ items, decode (encode a) = some a) :
    toArray decode (ofList encode items) = some items := by
  rw [ofList, toArray]
  induction items with
  | nil => rfl
  | cons a items ih =>
    obtain ⟨ha, hitems⟩ := List.forall_mem_cons.mp h
    simp [ha, ih hitems]

theorem printable_ofFloat (x : Float) : Printable (ofFloat x) := by
  unfold ofFloat
  split
  · next h => exact .real (legible_of_isFinite h)
  · exact .null

theorem printable_ofList {α : Type} {encode : α → Json} (h : ∀ a, Printable (encode a))
    (items : List α) : Printable (ofList encode items) :=
  .array (List.forall_mem_map.mpr fun a _ => h a)

theorem printable_ofOption {α : Type} {encode : α → Json} (h : ∀ a, Printable (encode a))
    (o : Option α) : Printable (ofOption encode o) := by
  cases o with
  | none => exact .null
  | some a => exact h a

end Values

section Found

variable {names : List (List String)} {field field' : List String} {own name name' : String}
variable {ms : List (String × Json)} {j : Json}

theorem mem_membersNamed :
    j ∈ membersNamed field ms ↔ ∃ name ∈ field, (name, j) ∈ ms := by
  simp only [membersNamed, List.mem_map, List.mem_filter, List.contains_iff_mem, Prod.exists]
  constructor
  · rintro ⟨name, j', ⟨hmem, hname⟩, rfl⟩
    exact ⟨name, hname, hmem⟩
  · rintro ⟨name, hname, hmem⟩
    exact ⟨name, j, ⟨hmem, hname⟩, rfl⟩

/-- The members of an object. -/
def members : Json → List (String × Json)
  | .object ms => ms
  | _ => []

/-- The fields as they are found when each is named once at most. -/
def found (names : List (List String)) (ms : List (String × Json)) : Fields :=
  ⟨false, names.map fun field => (field, (membersNamed field ms).head?)⟩

theorem slotNamed?_eq_some_iff {slot : Slot} : slotNamed? ms field = some slot ↔
    (membersNamed field ms).length ≤ 1 ∧ slot = (field, (membersNamed field ms).head?) := by
  unfold slotNamed?
  rcases membersNamed field ms with _ | ⟨j, _ | ⟨j', js⟩⟩ <;> simp [eq_comm]

/-- The fields of an object are found when each is named once at most. -/
theorem fields?_eq_some_iff {f : Fields} : fields? names (.object ms) = some f ↔
    (∀ field ∈ names, (membersNamed field ms).length ≤ 1) ∧ f = found names ms := by
  have hslots (slots : List Slot) : names.mapM (slotNamed? ms) = some slots ↔
      (∀ field ∈ names, (membersNamed field ms).length ≤ 1) ∧
        slots = names.map fun field => (field, (membersNamed field ms).head?) := by
    induction names generalizing slots with
    | nil => simp [eq_comm]
    | cons field names ih =>
      simp only [List.mapM_cons, Option.bind_eq_bind, Option.bind_eq_some_iff,
        slotNamed?_eq_some_iff, ih, List.forall_mem_cons]
      constructor
      · rintro ⟨slot, ⟨hfield, rfl⟩, rest, ⟨hnames, rfl⟩, h⟩
        cases h
        exact ⟨⟨hfield, hnames⟩, rfl⟩
      · rintro ⟨⟨hfield, hnames⟩, rfl⟩
        exact ⟨_, ⟨hfield, rfl⟩, _, ⟨hnames, rfl⟩, rfl⟩
  unfold fields? found
  simp only [Option.map_eq_some_iff, hslots]
  constructor
  · rintro ⟨slots, ⟨hnames, rfl⟩, rfl⟩
    exact ⟨hnames, rfl⟩
  · rintro ⟨hnames, rfl⟩
    exact ⟨_, ⟨hnames, rfl⟩, rfl⟩

/-- A field that is named by two of its names is found in no object. -/
theorem fields?_of_twice {j' : Json} (hfield : field ∈ names) (hname : name ∈ field)
    (hname' : name' ∈ field) (hne : name ≠ name') (h : (name, j) ∈ ms) (h' : (name', j') ∈ ms) :
    fields? names (.object ms) = none := by
  rw [Option.eq_none_iff_forall_ne_some]
  intro f hf
  have honce := (fields?_eq_some_iff.mp hf).1 field hfield
  rw [membersNamed, List.length_map] at honce
  have hmem : (name, j) ∈ ms.filter fun m => field.contains m.1 :=
    List.mem_filter.mpr ⟨h, List.contains_iff_mem.mpr hname⟩
  have hmem' : (name', j') ∈ ms.filter fun m => field.contains m.1 :=
    List.mem_filter.mpr ⟨h', List.contains_iff_mem.mpr hname'⟩
  generalize ms.filter _ = kept at *
  rcases kept with _ | ⟨m, _ | ⟨m', kept⟩⟩
  · cases hmem
  · exact hne (congrArg Prod.fst
      ((List.mem_singleton.mp hmem).trans (List.mem_singleton.mp hmem').symm))
  · simp at honce

/-- A spelling belongs to one field, when none stands twice. -/
theorem eq_of_spelling (hnames : names.flatten.Nodup) (hfield : field ∈ names)
    (hfield' : field' ∈ names) (hname : name ∈ field) (hname' : name ∈ field') :
    field = field' := by
  have hsymm : Std.Symm (List.Disjoint (α := String)) := ⟨fun _ _ h a hb ha => h ha hb⟩
  by_contra hne
  exact (List.nodup_flatten.mp hnames).2.forall hfield hfield' hne hname hname'

/-- A field has the value that is found for it, when no spelling stands twice. -/
theorem value?_found (hnames : names.flatten.Nodup) (hfield : field ∈ names)
    (hown : field.head? = some own) :
    (found names ms).value? own = (membersNamed field ms).head? := by
  have hfind : names.find? (fun f => f.head? == some own) = some field := by
    rcases hfind : names.find? (fun f => f.head? == some own) with _ | f
    · have hnone := List.find?_eq_none.mp hfind field hfield
      exact absurd (beq_iff_eq.mpr hown) hnone
    · have hhead : (f.head? == some own) = true :=
        List.find?_some (p := fun f : List String => f.head? == some own) hfind
      rw [beq_iff_eq] at hhead
      rw [hfind, eq_of_spelling hnames (List.mem_of_find?_eq_some hfind) hfield
        (List.mem_of_head? hhead) (List.mem_of_head? hown)]
  unfold Fields.value? found
  dsimp only
  rw [List.find?_map]
  change ((names.find? fun f => f.head? == some own).map _).bind _ = _
  rw [hfind]
  rfl

end Found

section Respelling

/-- A record that is written as members with the fields' own names, in the order of a table of
their spellings in which no spelling stands twice. -/
structure Writes (names : List (List String)) (members : List (String × Json)) : Prop where
  spellings : names.flatten.Nodup
  own : names.map List.head? = members.map fun m => some m.1

/-- The ways in which members that are written for a record may be spelled, with the own names of
the fields that are removed. -/
inductive Respelled (names : List (List String)) (members : List (String × Json)) :
    List String → List (String × Json) → Prop
  | written : Respelled names members [] members
  | rename {removed ms ms' field name name' j} (hfield : field ∈ names) (hname : name ∈ field)
      (hname' : name' ∈ field) (h : Respelled names members removed (ms ++ (name, j) :: ms')) :
      Respelled names members removed (ms ++ (name', j) :: ms')
  | reorder {removed ms ms'} (hperm : ms.Perm ms') (h : Respelled names members removed ms) :
      Respelled names members removed ms'
  | add {removed ms name} (hname : ∀ field ∈ names, name ∉ field) (j : Json)
      (h : Respelled names members removed ms) : Respelled names members removed ((name, j) :: ms)
  | remove {removed ms ms' field own name j} (hfield : field ∈ names)
      (hown : field.head? = some own) (hname : name ∈ field)
      (h : Respelled names members removed (ms ++ (name, j) :: ms')) :
      Respelled names members (own :: removed) (ms ++ ms')

variable {names : List (List String)} {field : List String} {own name : String}
variable {members ms ms' : List (String × Json)} {removed : List String} {j : Json}

theorem membersNamed_append :
    membersNamed field (ms ++ ms') = membersNamed field ms ++ membersNamed field ms' := by
  simp [membersNamed]

theorem membersNamed_cons_of_mem (h : name ∈ field) :
    membersNamed field ((name, j) :: ms) = j :: membersNamed field ms := by
  simp [membersNamed, h]

theorem membersNamed_cons_of_not_mem (h : name ∉ field) :
    membersNamed field ((name, j) :: ms) = membersNamed field ms := by
  simp [membersNamed, h]

theorem membersNamed_eq_nil (h : ∀ m ∈ ms, m.1 ∉ field) : membersNamed field ms = [] := by
  rw [List.eq_nil_iff_forall_not_mem]
  intro j hj
  obtain ⟨name, hname, hmem⟩ := mem_membersNamed.mp hj
  exact h _ hmem hname

/-- The value of a field that is written is found under its spellings. -/
theorem Writes.value (hw : Writes names members) {i : ℕ} (hfield : names[i]? = some field)
    (hmember : members[i]? = some (own, j)) : membersNamed field members = [j] := by
  obtain ⟨hspellings, hown⟩ := hw
  induction names generalizing members i with
  | nil => cases hfield
  | cons f names ih =>
    cases members with
    | nil => cases hmember
    | cons m members =>
      obtain ⟨-, hrest, hdisjoint⟩ := List.nodup_append'.mp hspellings
      obtain ⟨hhead, hnames⟩ := List.cons_eq_cons.mp hown
      cases i with
      | zero =>
        cases hfield
        cases hmember
        rw [membersNamed_cons_of_mem (List.mem_of_head? hhead), membersNamed_eq_nil]
        intro m hm hname
        have hmem : some m.1 ∈ names.map List.head? := by
          rw [hnames]
          exact List.mem_map_of_mem hm
        obtain ⟨f', hf', hhead'⟩ := List.mem_map.mp hmem
        exact hdisjoint hname (List.mem_flatten_of_mem hf' (List.mem_of_head? hhead'))
      | succ i =>
        have hname : m.1 ∉ field := fun hname =>
          hdisjoint (List.mem_of_head? hhead)
            (List.mem_flatten_of_mem (List.mem_of_getElem? hfield) hname)
        exact (membersNamed_cons_of_not_mem hname).trans (ih hfield hmember hrest hnames)

theorem Writes.exists_value (hw : Writes names members) (hfield : field ∈ names) :
    ∃ j, membersNamed field members = [j] := by
  obtain ⟨i, hi⟩ := List.mem_iff_getElem?.mp hfield
  have hlength : names.length = members.length := by
    simpa using congrArg List.length hw.own
  obtain ⟨hlt, -⟩ := List.getElem?_eq_some_iff.mp hi
  exact ⟨_, hw.value hi (List.getElem?_eq_getElem (hlength ▸ hlt))⟩

theorem Writes.exists_own (hw : Writes names members) (hfield : field ∈ names) :
    ∃ own, field.head? = some own := by
  have hmem := List.mem_map_of_mem (f := List.head?) hfield
  rw [hw.own] at hmem
  obtain ⟨m, -, hm⟩ := List.mem_map.mp hmem
  exact ⟨m.1, hm.symm⟩

/-- However a record is spelled, a field that is not removed has its one value. -/
theorem Respelled.values (h : Respelled names members removed ms)
    (hw : Writes names members) (hfield : field ∈ names)
    (hown : field.head? = some own) :
    membersNamed field ms = if own ∈ removed then [] else membersNamed field members := by
  -- one case for each way of respelling; what is found under the spellings of a field changes only
  -- when that field is removed, as no spelling belongs to two fields
  induction h with
  | written => rfl
  | @rename removed ms ms' field' name name' j hfield' hname hname' h ih =>
    rw [← ih]
    have hsame : name ∈ field ↔ name' ∈ field := by
      constructor
      · intro hin
        rwa [eq_of_spelling hw.spellings hfield hfield' hin hname]
      · intro hin
        rwa [eq_of_spelling hw.spellings hfield hfield' hin hname']
    rw [membersNamed_append, membersNamed_append]
    by_cases hin : name ∈ field
    · rw [membersNamed_cons_of_mem hin, membersNamed_cons_of_mem (hsame.mp hin)]
    · rw [membersNamed_cons_of_not_mem hin, membersNamed_cons_of_not_mem (mt hsame.mpr hin)]
  | @reorder removed ms ms' hperm h ih =>
    have hvalues : (membersNamed field ms').Perm (membersNamed field ms) :=
      ((hperm.symm.filter _).map _)
    rw [ih] at hvalues
    obtain ⟨j, hj⟩ := hw.exists_value hfield
    split at hvalues
    · next hin => rw [if_pos hin, hvalues.eq_nil]
    · next hin =>
      rw [hj] at hvalues ⊢
      rw [if_neg hin, hvalues.eq_singleton]
  | add hname j h ih => rw [membersNamed_cons_of_not_mem (hname field hfield), ih]
  | @remove removed ms ms' field' own' name j hfield' hown' hname h ih =>
    obtain ⟨j', hj'⟩ := hw.exists_value hfield
    rw [membersNamed_append] at ih ⊢
    by_cases hin : name ∈ field
    · obtain rfl := eq_of_spelling hw.spellings hfield hfield' hin hname
      obtain rfl : own' = own := Option.some.inj (hown'.symm.trans hown)
      rw [membersNamed_cons_of_mem hin, hj'] at ih
      -- the field had one value, so nothing is found for it once that member is gone
      rw [if_pos List.mem_cons_self]
      split at ih
      · simp at ih
      · have hlength := congrArg List.length ih
        rw [List.length_append, List.length_cons, List.length_singleton] at hlength
        rw [← List.length_eq_zero_iff, List.length_append]
        omega
    · have hne : own ≠ own' := by
        rintro rfl
        exact hin (eq_of_spelling hw.spellings hfield hfield' (List.mem_of_head? hown)
          (List.mem_of_head? hown') ▸ hname)
      rw [membersNamed_cons_of_not_mem hin] at ih
      rw [ih]
      simp [hne]

/-- The fields of a record are found, however it is spelled. -/
theorem Respelled.fields? (h : Respelled names members removed ms) (hw : Writes names members) :
    fields? names (.object ms) = some (found names ms) := by
  refine fields?_eq_some_iff.mpr ⟨fun field hfield => ?_, rfl⟩
  obtain ⟨own, hown⟩ := hw.exists_own hfield
  rw [h.values hw hfield hown]
  obtain ⟨j, hj⟩ := hw.exists_value hfield
  split
  · exact Nat.zero_le 1
  · rw [hj]
    exact Nat.le_refl 1

/-- The value of a field, or its default when the field is removed. -/
def keptOr {α : Type} (removed : List String) (name : String) (value default : α) : α :=
  if name ∈ removed then default else value

/-- A field of a record is read as the value that was written, or as its default when it is
removed, however the record is spelled. -/
theorem Respelled.withDefault {α : Type} {decode : Decoder α} {a : α}
    (h : Respelled names members removed ms) (hw : Writes names members) (i : ℕ)
    (hfield : names[i]? = some field) (hmember : members[i]? = some (own, j))
    (hdecode : decode j = some a) (default : α) :
    (found names ms).withDefault own decode default = some (keptOr removed own a default) := by
  have hmem := List.mem_of_getElem? hfield
  have hown : field.head? = some own := by
    have hi := congrArg (·[i]?) hw.own
    simpa [hfield, hmember] using hi
  unfold Fields.withDefault keptOr
  rw [value?_found hw.spellings hmem hown, h.values hw hmem hown, hw.value hfield hmember]
  by_cases hin : own ∈ removed
  · rw [if_pos hin, if_pos hin]
    rfl
  · rw [if_neg hin, if_neg hin]
    exact hdecode

end Respelling

end PatchSearch.Json
