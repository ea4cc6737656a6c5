import Mathlib.Data.String.Basic
import PatchSearch.Proofs.Program.LineEdits
import PatchSearch.Proofs.SortedList

/-!
Scripts of edits. A script is a set of edits: the order in which they were added shows neither in
the texts of the edited files nor in the failure. The failure is that of the first file at fault,
which is not there at all or whose edits do not fit its lines; without one every edited file has
its text, made from the original and from the edits of that file alone.
-/
namespace PatchSearch

section FirstFailure

variable {ε β γ : Type} {f : β → Except ε γ}

theorem bind_pure_eq_error_iff {x : Except ε β} {g : β → γ} {e : ε} :
    (x >>= fun b => pure (g b)) = .error e ↔ x = .error e := by
  cases x with
  | error e' => exact ⟨fun h => congrArg _ (Except.error.inj h),
      fun h => congrArg _ (Except.error.inj h)⟩
  | ok b => exact ⟨nofun, nofun⟩

/-- A step over an ascending list fails with the failure of the least member that has one. -/
theorem mapM_eq_error_iff [LinearOrder β] {xs : List β} (h : xs.Pairwise (· < ·)) {e : ε} :
    xs.mapM f = .error e ↔
      ∃ x ∈ xs, f x = .error e ∧ ∀ y ∈ xs, y < x → ∀ e', f y ≠ .error e' := by
  induction xs with
  | nil => exact ⟨nofun, nofun⟩
  | cons x xs ih =>
    obtain ⟨hfirst, hrest⟩ := List.pairwise_cons.mp h
    rw [List.mapM_cons]
    cases hx : f x with
    | error e' =>
      constructor
      · rintro ⟨⟩
        refine ⟨x, List.mem_cons_self, hx, List.forall_mem_cons.mpr ⟨fun hlt => ?_, ?_⟩⟩
        · exact absurd hlt (lt_irrefl x)
        · exact fun y hy hlt => absurd hlt (lt_asymm (hfirst y hy))
      · rintro ⟨y, hy, hfails, hbefore⟩
        rcases List.mem_cons.mp hy with rfl | hy
        · exact congrArg _ (Except.error.inj (hx.symm.trans hfails))
        · exact absurd hx (hbefore x List.mem_cons_self (hfirst y hy) e')
    | ok b =>
      change (xs.mapM f >>= fun rest => pure (b :: rest)) = .error e ↔ _
      rw [bind_pure_eq_error_iff, ih hrest]
      constructor
      · rintro ⟨y, hy, hfails, hbefore⟩
        refine ⟨y, List.mem_cons_of_mem x hy, hfails,
          List.forall_mem_cons.mpr ⟨fun _ e' hfails => ?_, hbefore⟩⟩
        rw [hx] at hfails
        cases hfails
      · rintro ⟨y, hy, hfails, hbefore⟩
        rcases List.mem_cons.mp hy with rfl | hy
        · rw [hx] at hfails
          cases hfails
        · exact ⟨y, hy, hfails, (List.forall_mem_cons.mp hbefore).2⟩

end FirstFailure

/-- A failure is about the lines of edits: two edits of one line, or a line that is not there. -/
def PatchError.IsAboutLines : PatchError → Prop
  | lineOutOfRange _ _ => True
  | conflict _ => True
  | _ => False

namespace EditScript

variable {s : EditScript} {tree : SourceTree} {file : String}

/-- What is wrong with a file that a script edits: it is not there, or the edits have a fault. -/
inductive FileFault (tree : SourceTree) (s : EditScript) (file : String) : PatchError → Prop
  | unknown (h : tree.file? file = none) : FileFault tree s file (.unknownFile file)
  | lines {text : String} {e : PatchError} (htext : tree.file? file = some text)
      (h : LineFault file (Text.lines text.toList).length (s.editsOf file) e) :
    FileFault tree s file e

theorem renderFile_eq_error_iff {e : PatchError} :
    s.renderFile tree file = .error e ↔ FileFault tree s file e := by
  unfold renderFile
  cases htext : tree.file? file with
  | none =>
    constructor
    · rintro ⟨⟩
      exact .unknown htext
    · rintro (- | ⟨htext', -⟩)
      · rfl
      · rw [htext] at htext'
        cases htext'
  | some text =>
    dsimp only
    rw [bind_pure_eq_error_iff, applyEdits_eq_error_iff]
    constructor
    · exact .lines htext
    · rintro (hnone | ⟨htext', h⟩)
      · rw [htext] at hnone
        cases hnone
      · cases htext.symm.trans htext'
        exact h

/-- A script names a file when it has an edit of it. -/
def Names (s : EditScript) (file : String) : Prop :=
  ∃ e ∈ s.edits, e.location.file = file

theorem mem_files_iff : file ∈ s.files ↔ s.Names file := by
  rw [files, mem_textSet, List.mem_map]
  rfl

theorem pairwise_files (s : EditScript) : s.files.Pairwise (· < ·) :=
  (orders_textLE.pairwise_sortedSet _).imp fun h =>
    lt_of_le_of_ne (of_decide_eq_true h.1) h.2

/-- The texts of the edited files, each made of its own original and its own edits. -/
def rendered (s : EditScript) (tree : SourceTree) : TextMap String :=
  s.files.map fun file => (file, editedText ((tree.file? file).getD "") (s.editsOf file))

/-- A script with no file at fault gives every file its text. -/
theorem render_of_fits (h : ∀ file ∈ s.files, ∃ text, tree.file? file = some text ∧
    LinesFit (Text.lines text.toList).length (s.editsOf file)) :
    s.render tree = .ok (s.rendered tree) := by
  refine mapM_eq_ok_map fun file hfile => ?_
  obtain ⟨text, htext, hfit⟩ := h file hfile
  unfold renderFile
  rw [htext]
  dsimp only
  rw [hfit.applyEdits file]
  rfl

theorem fits_of_render {m : TextMap String} (h : s.render tree = .ok m) {file : String}
    (hfile : file ∈ s.files) : ∃ text, tree.file? file = some text ∧
      LinesFit (Text.lines text.toList).length (s.editsOf file) := by
  obtain ⟨i, hi⟩ := List.getElem?_of_mem hfile
  obtain ⟨entry, -, hentry⟩ := (getElem?_of_mapM h).2 i file hi
  unfold renderFile at hentry
  cases htext : tree.file? file with
  | none =>
    rw [htext] at hentry
    cases hentry
  | some text =>
    refine ⟨text, rfl, ?_⟩
    obtain ⟨hfit, -⟩ | ⟨e, -, hfails⟩ := applyEdits_cases file text (s.editsOf file)
    · exact hfit
    · rw [htext] at hentry
      dsimp only at hentry
      rw [hfails] at hentry
      cases hentry

theorem render_eq_ok {m : TextMap String} (h : s.render tree = .ok m) : m = s.rendered tree :=
  Except.ok.inj (h.symm.trans (render_of_fits fun _ => fits_of_render h))

theorem mem_editsOf_iff {e : LineEdit} : e ∈ s.editsOf file ↔
    ∃ a ∈ s.edits, a.location.file = file ∧ (a.location.line, a.kind) = e := by
  simp [editsOf, and_assoc]

/-- What is rendered for a file: nothing for a file without edits. -/
theorem lookup_of_render {m : TextMap String} (h : s.render tree = .ok m) {result : String} :
    m.lookup file = some result ↔ s.Names file ∧ ∃ text, tree.file? file = some text ∧
      LinesFit (Text.lines text.toList).length (s.editsOf file) ∧
        result = editedText text (s.editsOf file) := by
  have hkeys : m.map Prod.fst = s.files := by
    rw [render_eq_ok h, rendered, List.map_map]
    exact List.map_id _
  rw [lookup_eq_some_iff_mem (hkeys ▸ nodup_textSet _), render_eq_ok h, rendered, List.mem_map]
  constructor
  · rintro ⟨file', hfile, heq⟩
    obtain ⟨rfl, rfl⟩ := Prod.mk.inj heq
    obtain ⟨text, htext, hfit⟩ := fits_of_render h hfile
    exact ⟨mem_files_iff.mp hfile, text, htext, hfit, by rw [htext, Option.getD_some]⟩
  · rintro ⟨hname, text, htext, -, rfl⟩
    exact ⟨file, mem_files_iff.mpr hname, by rw [htext, Option.getD_some]⟩

/-- Rendering fails with the fault of the first file that has one. -/
theorem render_eq_error_iff {e : PatchError} : s.render tree = .error e ↔
    ∃ file, s.Names file ∧ FileFault tree s file e ∧
      ∀ other, s.Names other → other < file → ∀ e', ¬ FileFault tree s other e' := by
  unfold render
  rw [mapM_eq_error_iff s.pairwise_files]
  simp only [mem_files_iff, renderFile_eq_error_iff, ne_eq]

/-- The edits of a script name different places, each of them a line of its file. -/
structure Fits (s : EditScript) (tree : SourceTree) : Prop where
  apart : (s.edits.map (·.location)).Nodup
  present : ∀ e ∈ s.edits, e.location.line ≠ 0 ∧ ∀ text,
    tree.file? e.location.file = some text → e.location.line ≤ (Text.lines text.toList).length

theorem mem_files {s : EditScript} {e : Edit} (he : e ∈ s.edits) :
    e.location.file ∈ s.files :=
  (mem_textSet _ _).mpr (List.mem_map_of_mem he)

/-- A script fits when the edits of each file do. -/
theorem fits_iff {s : EditScript} {tree : SourceTree}
    (hfiles : ∀ e ∈ s.edits, (tree.file? e.location.file).isSome) :
    s.Fits tree ↔ ∀ file ∈ s.files, ∀ text, tree.file? file = some text →
      LinesFit (Text.lines text.toList).length (s.editsOf file) := by
  have hapart (file : String) : ((s.editsOf file).map Prod.fst).Nodup ↔
      s.edits.Pairwise fun a b => a.location.file = file → b.location.file = file →
        a.location.line ≠ b.location.line := by
    unfold editsOf List.Nodup
    rw [List.map_map, List.pairwise_map, List.pairwise_filter]
    simp
  constructor
  · rintro ⟨hplaces, hlines⟩ file - text htext
    refine ⟨(hapart file).mpr ((List.pairwise_map.mp hplaces).imp ?_), fun e he => ?_⟩
    · intro a b hne ha hb hline
      exact hne (by
        cases ha' : a.location
        cases hb' : b.location
        simp_all)
    · obtain ⟨a, ha, rfl, rfl⟩ := mem_editsOf_iff.mp he
      exact ⟨(hlines a ha).1, (hlines a ha).2 text htext⟩
  · intro hall
    refine ⟨List.pairwise_map.mpr (List.pairwise_iff_forall_sublist.mpr ?_), fun e he => ?_⟩
    · intro a b hsub heq
      have ha : a ∈ s.edits := hsub.subset (by simp)
      obtain ⟨text, htext⟩ := Option.isSome_iff_exists.mp (hfiles a ha)
      have hfit := hall _ (mem_files ha) text htext
      exact List.pairwise_iff_forall_sublist.mp ((hapart _).mp hfit.apart) hsub rfl
        (congrArg Location.file heq).symm (congrArg Location.line heq)
    · obtain ⟨text, htext⟩ := Option.isSome_iff_exists.mp (hfiles e he)
      have hfit := (hall _ (mem_files he) text htext).present _
        (mem_editsOf_iff.mpr ⟨e, he, rfl, rfl⟩)
      refine ⟨hfit.1, fun text' htext' => ?_⟩
      obtain rfl := Option.some.inj (htext.symm.trans htext')
      exact hfit.2

/-- A script over files that are there renders exactly when it fits them. -/
theorem render_cases (hfiles : ∀ e ∈ s.edits, (tree.file? e.location.file).isSome) :
    s.Fits tree ∧ (∃ files, s.render tree = .ok files) ∨
      ¬ s.Fits tree ∧ ∃ e, s.render tree = .error e ∧ e.IsAboutLines := by
  rw [fits_iff hfiles]
  have hread {file : String} (hname : s.Names file) : ∃ text, tree.file? file = some text := by
    obtain ⟨e, he, rfl⟩ := hname
    exact Option.isSome_iff_exists.mp (hfiles e he)
  cases hrender : s.render tree with
  | ok m =>
    refine Or.inl ⟨fun file hfile text htext => ?_, m, rfl⟩
    obtain ⟨text', htext', hfit⟩ := fits_of_render hrender hfile
    cases htext.symm.trans htext'
    exact hfit
  | error e =>
    obtain ⟨file, hname, hfault, -⟩ := render_eq_error_iff.mp hrender
    obtain ⟨text, htext⟩ := hread hname
    cases hfault with
    | unknown hnone =>
      rw [hnone] at htext
      cases htext
    | lines htext' h =>
      refine Or.inr ⟨fun hall => ?_, e, rfl, ?_⟩
      · exact (hall file (mem_files_iff.mpr hname) _ htext').no_fault e h
      · cases h <;> trivial

section Permuted

variable {s' : EditScript} (hperm : s.edits.Perm s'.edits)
include hperm

theorem files_perm : s.files = s'.files := by
  refine textSet_ext fun file => ?_
  rw [mem_textSet, mem_textSet, (hperm.map _).mem_iff]

theorem editsOf_perm (file : String) : (s.editsOf file).Perm (s'.editsOf file) :=
  (hperm.filter _).map _

theorem render_perm (tree : SourceTree) : s.render tree = s'.render tree := by
  have hfile : s.renderFile tree = s'.renderFile tree := by
    funext file
    unfold renderFile
    cases tree.file? file with
    | none => rfl
    | some text =>
      dsimp only
      rw [applyEdits_perm (editsOf_perm hperm file)]
  unfold render
  rw [files_perm hperm, hfile]

end Permuted

/-- Something is wrong with a script as soon as one of its edits is of a file that is not there,
two of them are of one place, or a line is not there. -/
theorem exists_error_iff : (∃ e, s.render tree = .error e) ↔
    (∃ e ∈ s.edits, tree.file? e.location.file = none) ∨ ¬ (s.edits.map (·.location)).Nodup ∨
      ∃ e ∈ s.edits, e.location.line = 0 ∨ ∃ text, tree.file? e.location.file = some text ∧
        (Text.lines text.toList).length < e.location.line := by
  have hfits : s.Fits tree ↔ (s.edits.map (·.location)).Nodup ∧
      ¬ ∃ e ∈ s.edits, e.location.line = 0 ∨ ∃ text, tree.file? e.location.file = some text ∧
        (Text.lines text.toList).length < e.location.line := by
    constructor
    · rintro ⟨happart, hpresent⟩
      refine ⟨happart, ?_⟩
      rintro ⟨e, he, hzero | ⟨text, htext, hlt⟩⟩
      · exact (hpresent e he).1 hzero
      · exact Nat.not_le.mpr hlt ((hpresent e he).2 text htext)
    · rintro ⟨happart, hpresent⟩
      refine ⟨happart, fun e he => ⟨fun hzero => ?_, fun text htext => ?_⟩⟩
      · exact hpresent ⟨e, he, Or.inl hzero⟩
      · exact Nat.not_lt.mp fun hlt => hpresent ⟨e, he, Or.inr ⟨text, htext, hlt⟩⟩
  by_cases hread : ∀ e ∈ s.edits, (tree.file? e.location.file).isSome
  · have hnone : ¬ ∃ e ∈ s.edits, tree.file? e.location.file = none := by
      rintro ⟨e, he, hnone⟩
      have hsome := hread e he
      rw [hnone] at hsome
      cases hsome
    have hmisfit := not_congr hfits
    rw [not_and_or, not_not] at hmisfit
    rw [or_iff_right hnone, ← hmisfit]
    obtain ⟨hfit, m, hm⟩ | ⟨hnot, e, he, -⟩ := render_cases hread
    · refine iff_of_false ?_ (not_not.mpr hfit)
      rintro ⟨e, he⟩
      rw [hm] at he
      cases he
    · exact iff_of_true ⟨e, he⟩ hnot
  · push Not at hread
    obtain ⟨e, he, hnone⟩ := hread
    rw [ne_eq, Option.not_isSome_iff_eq_none] at hnone
    refine iff_of_true ?_ (Or.inl ⟨e, he, hnone⟩)
    cases hrender : s.render tree with
    | error fault => exact ⟨fault, rfl⟩
    | ok m =>
      obtain ⟨text, htext, -⟩ := fits_of_render hrender (mem_files he)
      rw [hnone] at htext
      cases htext

/-- A script is rendered as a set of edits. Whatever their order, there are the same texts, one for
each named file and made from the original and the edits of that file alone, or there is the same
failure: it comes about by a file that is not there, by two edits of one place or by a line that is
not there, and it is the one of the first file at fault. -/
theorem render_any_order (tree : SourceTree) {s s' : EditScript} (hperm : s.edits.Perm s'.edits) :
    s.render tree = s'.render tree ∧
      (∀ m, s.render tree = .ok m → (m.map Prod.fst).Pairwise (· < ·) ∧
        (∀ file, file ∈ m.map Prod.fst ↔ s.Names file) ∧
        ∀ file, s.Names file → ∃ text, tree.file? file = some text ∧
          m.lookup file = some (editedText text (s.editsOf file))) ∧
      ((∃ err, s.render tree = .error err) ↔
        (∃ e ∈ s.edits, tree.file? e.location.file = none) ∨
          ¬ (s.edits.map (·.location)).Nodup ∨
          ∃ e ∈ s.edits, e.location.line = 0 ∨ ∃ text, tree.file? e.location.file = some text ∧
            (Text.lines text.toList).length < e.location.line) ∧
      ∀ err, s.render tree = .error err ↔
        ∃ file, s.Names file ∧ FileFault tree s file err ∧
          ∀ other, s.Names other → other < file → ∀ err', ¬ FileFault tree s other err' := by
  refine ⟨render_perm hperm tree, fun m hm => ?_, exists_error_iff, fun err => render_eq_error_iff⟩
  have hkeys : m.map Prod.fst = s.files := by
    rw [render_eq_ok hm, rendered, List.map_map]
    exact List.map_id _
  rw [hkeys]
  refine ⟨s.pairwise_files, fun file => mem_files_iff, fun file hname => ?_⟩
  have hfile := mem_files_iff.mpr hname
  obtain ⟨text, htext, -⟩ := fits_of_render hm hfile
  have hnodup : (m.map Prod.fst).Nodup := hkeys ▸ nodup_textSet _
  refine ⟨text, htext, (lookup_eq_some_iff_mem hnodup).mpr ?_⟩
  rw [render_eq_ok hm]
  refine List.mem_map.mpr ⟨file, hfile, ?_⟩
  rw [htext]
  rfl

/-- Four faults at once, in two orders: a file that is not there, a line beyond the end, and two
lines of the first file that are named twice. The higher one of these is reported. -/
theorem render_any_order_of_faults :
    ∃ (tree : SourceTree) (s s' : EditScript), s.edits.Perm s'.edits ∧
      s.render tree = .error (.conflict ⟨"A.java", 2⟩) ∧
      s'.render tree = .error (.conflict ⟨"A.java", 2⟩) := by
  let tree : SourceTree := .ofFiles [("A.java", "a\nb\n"), ("B.java", "c\n")]
  let edit (file : String) (line : ℕ) : Edit := ⟨⟨file, line⟩, .delete⟩
  let s : EditScript := ⟨[edit "C.java" 1, edit "A.java" 2, edit "B.java" 9, edit "A.java" 1,
    edit "A.java" 2, edit "A.java" 1]⟩
  let s' : EditScript := ⟨s.edits.reverse⟩
  have hperm : s.edits.Perm s'.edits := (List.reverse_perm s.edits).symm
  obtain ⟨hsame, -, -, hfirst⟩ := render_any_order tree hperm
  have hgreatest : IsGreatest (repeatedLines (s.editsOf "A.java")) 2 := by
    have hlines : (s.editsOf "A.java").map Prod.fst = [2, 1, 2, 1] := by decide +kernel
    unfold repeatedLines
    rw [hlines]
    refine ⟨by decide, fun n hn => ?_⟩
    have hmem : n ∈ [2, 1, 2, 1] := List.count_pos_iff.mp (Nat.lt_trans Nat.zero_lt_one hn)
    exact (by decide : ∀ m ∈ [2, 1, 2, 1], m ≤ 2) n hmem
  have hfault : s.render tree = .error (.conflict ⟨"A.java", 2⟩) := by
    refine (hfirst _).mpr ⟨"A.java", ⟨edit "A.java" 2, ?_, rfl⟩, ?_, fun other hother hlt => ?_⟩
    · exact List.mem_cons_of_mem _ List.mem_cons_self
    · have htext : tree.file? "A.java" = some "a\nb\n" := by decide +kernel
      exact .lines htext (.conflict hgreatest)
    · -- no named file comes before the first one
      obtain ⟨e, he, rfl⟩ := hother
      have hnot : ∀ e ∈ s.edits, ¬ e.location.file < "A.java" := by decide +kernel
      exact absurd hlt (hnot e he)
  exact ⟨tree, s, s', hperm, hfault, hsame ▸ hfault⟩

end EditScript

end PatchSearch
