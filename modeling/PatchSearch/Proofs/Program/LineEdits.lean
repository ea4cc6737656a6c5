import Mathlib.Data.List.Basic
import Mathlib.Data.List.Infix
import Mathlib.Data.List.Nodup
import Mathlib.Order.Bounds.Basic
import PatchSearch.Program.Edit
import PatchSearch.Proofs.Text.ByteLines
import PatchSearch.Proofs.Yields

/-!
Edits of the lines of one file. They are applied from the last line upwards, and when they name
different lines that are all there, it is as if each line were edited by itself. Otherwise the
failure names the highest line at fault, and two edits of one line come before a line that is not
there.
-/
namespace PatchSearch

/-- Edits in the order in which they are applied, from the last line upwards. -/
def fromLast (edits : List LineEdit) : List LineEdit :=
  edits.mergeSort fun a b => decide (b.1 ≤ a.1)

theorem fromLast_perm (edits : List LineEdit) : (fromLast edits).Perm edits :=
  List.mergeSort_perm edits _

theorem pairwise_fromLast (edits : List LineEdit) :
    (fromLast edits).Pairwise fun a b => b.1 ≤ a.1 := by
  refine (List.pairwise_mergeSort ?_ ?_ edits).imp of_decide_eq_true
  · intro a b c hab hbc
    simp only [decide_eq_true_eq] at hab hbc ⊢
    omega
  · intro a b
    simp only [Bool.or_eq_true, decide_eq_true_eq]
    omega

/-- Edits of different lines are applied strictly from the last line upwards. -/
theorem pairwise_fromLast_of_nodup {edits : List LineEdit} (h : (edits.map Prod.fst).Nodup) :
    (fromLast edits).Pairwise fun a b => b.1 < a.1 := by
  have happly : ((fromLast edits).map Prod.fst).Nodup :=
    ((fromLast_perm edits).map Prod.fst).nodup_iff.mpr h
  refine ((pairwise_fromLast edits).and (List.pairwise_map.mp happly)).imp ?_
  rintro a b ⟨hle, hne⟩
  exact Nat.lt_of_le_of_ne hle (Ne.symm hne)

section Faults

/-- Edits name different lines, and each of them is one of so many lines. -/
structure LinesFit (count : ℕ) (edits : List LineEdit) : Prop where
  apart : (edits.map Prod.fst).Nodup
  present : ∀ e ∈ edits, e.1 ≠ 0 ∧ e.1 ≤ count

/-- The lines that more than one edit names. -/
def repeatedLines (edits : List LineEdit) : Set ℕ :=
  {n | 1 < (edits.map Prod.fst).count n}

/-- The lines that edits name although they are none of so many lines. -/
def missingLines (count : ℕ) (edits : List LineEdit) : Set ℕ :=
  {n | n ∈ edits.map Prod.fst ∧ (n = 0 ∨ count < n)}

/-- What is wrong with the edits of a file of so many lines: two of them name the same line, or
else a line is not there; the line is the highest one of its kind. -/
inductive LineFault (file : String) (count : ℕ) (edits : List LineEdit) : PatchError → Prop
  | conflict {line : ℕ} (h : IsGreatest (repeatedLines edits) line) :
    LineFault file count edits (.conflict ⟨file, line⟩)
  | range {line : ℕ} (happart : (edits.map Prod.fst).Nodup)
      (h : IsGreatest (missingLines count edits) line) :
    LineFault file count edits (.lineOutOfRange ⟨file, line⟩ count)

variable {edits edits' : List LineEdit} {file : String} {count : ℕ}

theorem repeatedLines_eq_empty_iff : repeatedLines edits = ∅ ↔ (edits.map Prod.fst).Nodup := by
  rw [List.nodup_iff_count_le_one, Set.eq_empty_iff_forall_notMem]
  exact forall_congr' fun n => Nat.not_lt

theorem repeatedLines_perm (h : edits.Perm edits') :
    repeatedLines edits = repeatedLines edits' := by
  unfold repeatedLines
  simp only [(h.map Prod.fst).count_eq]

theorem missingLines_perm (h : edits.Perm edits') :
    missingLines count edits = missingLines count edits' := by
  unfold missingLines
  simp only [(h.map Prod.fst).mem_iff]

theorem LineFault.perm {e : PatchError} (h : edits.Perm edits')
    (he : LineFault file count edits e) : LineFault file count edits' e := by
  cases he with
  | conflict hline => exact .conflict (repeatedLines_perm h ▸ hline)
  | range hapart hline =>
    exact .range ((h.map Prod.fst).nodup_iff.mp hapart) (missingLines_perm h ▸ hline)

/-- Edits that fit have no fault. -/
theorem LinesFit.no_fault (h : LinesFit count edits) (e : PatchError) :
    ¬ LineFault file count edits e := by
  rintro (hline | ⟨-, hline⟩)
  · rw [repeatedLines_eq_empty_iff.mpr h.apart] at hline
    exact hline.1
  · obtain ⟨hmem, hout⟩ := hline.1
    obtain ⟨e, he, rfl⟩ := List.mem_map.mp hmem
    have := h.present e he
    omega

/-- Edits have one fault at most. -/
theorem LineFault.unique {e e' : PatchError} (h : LineFault file count edits e)
    (h' : LineFault file count edits e') : e = e' := by
  have hnot {line : ℕ} (hgreatest : IsGreatest (repeatedLines edits) line) :
      ¬ (edits.map Prod.fst).Nodup := fun happart =>
    Set.eq_empty_iff_forall_notMem.mp (repeatedLines_eq_empty_iff.mpr happart) line hgreatest.1
  cases h with
  | conflict hline =>
    cases h' with
    | conflict hline' => rw [hline.unique hline']
    | range happart' hline' => exact absurd happart' (hnot hline)
  | range happart hline =>
    cases h' with
    | conflict hline' => exact absurd happart (hnot hline')
    | range happart' hline' => rw [hline.unique hline']

/-- In a descending list the first line that has two edits is the highest one. -/
theorem repeatedLine?_cases (h : edits.Pairwise fun a b => b.1 ≤ a.1) :
    repeatedLine? edits = none ∧ (edits.map Prod.fst).Nodup ∨
      ∃ line, repeatedLine? edits = some line ∧ IsGreatest (repeatedLines edits) line := by
  induction edits with
  | nil => exact Or.inl ⟨rfl, List.nodup_nil⟩
  | cons a edits ih =>
    obtain ⟨hhead, htail⟩ := List.pairwise_cons.mp h
    cases edits with
    | nil => exact Or.inl ⟨rfl, List.nodup_singleton a.1⟩
    | cons b edits =>
      have hbelow : ∀ e ∈ b :: edits, e.1 ≤ b.1 :=
        List.forall_mem_cons.mpr ⟨le_rfl, (List.pairwise_cons.mp htail).1⟩
      rw [repeatedLine?]
      split
      · next heq =>
        refine Or.inr ⟨a.1, rfl, ?_, fun n hn => ?_⟩
        · simp [repeatedLines, heq]
        · have hmem : n ∈ (a :: b :: edits).map Prod.fst :=
            List.count_pos_iff.mp (Nat.lt_trans Nat.zero_lt_one hn)
          obtain ⟨e, he, rfl⟩ := List.mem_map.mp hmem
          rcases List.mem_cons.mp he with rfl | he
          · exact le_rfl
          · exact hhead e he
      · next hne =>
        -- the highest line stands alone, so lines are named twice as often as without it
        have hnot : a.1 ∉ (b :: edits).map Prod.fst := by
          intro hmem
          obtain ⟨e, he, heq⟩ := List.mem_map.mp hmem
          exact hne (Nat.le_antisymm (heq ▸ hbelow e he) (hhead b List.mem_cons_self))
        have hsame : repeatedLines (a :: b :: edits) = repeatedLines (b :: edits) := by
          ext n
          change 1 < ((a :: b :: edits).map Prod.fst).count n ↔
            1 < ((b :: edits).map Prod.fst).count n
          rw [List.map_cons, List.count_cons]
          by_cases hn : a.1 = n
          · subst hn
            rw [List.count_eq_zero_of_not_mem hnot]
            simp
          · simp [hn]
        rw [hsame]
        refine (ih htail).imp (fun hnone => ?_) id
        exact ⟨hnone.1, List.nodup_cons.mpr ⟨hnot, hnone.2⟩⟩

/-- Of descending edits the first one without a line is the highest one. -/
theorem applyInOrder_cases (file : String) (count : ℕ)
    (h : edits.Pairwise fun a b => b.1 ≤ a.1) (lines : List (List Char)) :
    (∀ e ∈ edits, e.1 ≠ 0 ∧ e.1 ≤ count) ∨
      ∃ line, IsGreatest (missingLines count edits) line ∧
        applyInOrder file count edits lines = .error (.lineOutOfRange ⟨file, line⟩ count) := by
  induction edits generalizing lines with
  | nil => exact Or.inl nofun
  | cons e edits ih =>
    obtain ⟨hhead, htail⟩ := List.pairwise_cons.mp h
    unfold applyInOrder
    split
    · next hout =>
      refine Or.inr ⟨e.1, ⟨⟨List.mem_cons_self, hout⟩, ?_⟩, rfl⟩
      rintro n ⟨hmem, -⟩
      rcases List.mem_cons.mp hmem with rfl | hmem
      · exact le_rfl
      · obtain ⟨e', he', rfl⟩ := List.mem_map.mp hmem
        exact hhead e' he'
    · next hin =>
      obtain hall | ⟨line, ⟨hline, hle⟩, hfails⟩ := ih htail (e.2.apply (e.1 - 1) lines)
      · exact Or.inl (List.forall_mem_cons.mpr ⟨by omega, hall⟩)
      · refine Or.inr ⟨line, ⟨⟨List.mem_cons_of_mem e.1 hline.1, hline.2⟩, ?_⟩, hfails⟩
        rintro n ⟨hmem, hout⟩
        rcases List.mem_cons.mp hmem with rfl | hmem
        · exact absurd hout hin
        · exact hle ⟨hmem, hout⟩

end Faults

section AtOnce

/-- What an edit makes of its line. -/
def EditKind.inPlaceOf (kind : EditKind) (line : List Char) : List (List Char) :=
  match kind with
  | .delete => []
  | .replace text => [Text.indent line ++ Text.trim text.toList]
  | .insertBefore text => [Text.indent line ++ Text.trim text.toList, line]

/-- Lines, numbered from `start` on, with each of them edited by itself. -/
def editedFrom (edits : List LineEdit) (start : ℕ) (lines : List (List Char)) :
    List (List Char) :=
  (lines.zipIdx start).flatMap fun (line, n) => (edits.lookup n).elim [line] (·.inPlaceOf line)

variable {edits edits' : List LineEdit} {file : String} {count : ℕ}

theorem editedFrom_append (start : ℕ) (above below : List (List Char)) :
    editedFrom edits start (above ++ below) =
      editedFrom edits start above ++ editedFrom edits (start + above.length) below := by
  unfold editedFrom
  rw [List.zipIdx_append, List.flatMap_append]

theorem editedFrom_cons (start : ℕ) (line : List Char) (below : List (List Char)) :
    editedFrom edits start (line :: below) =
      (edits.lookup start).elim [line] (·.inPlaceOf line) ++
        editedFrom edits (start + 1) below := by
  unfold editedFrom
  rw [List.zipIdx_cons, List.flatMap_cons]

theorem editedFrom_congr {start : ℕ} {lines : List (List Char)}
    (h : ∀ n, start ≤ n → n < start + lines.length → edits.lookup n = edits'.lookup n) :
    editedFrom edits start lines = editedFrom edits' start lines := by
  refine List.flatMap_congr fun ⟨line, n⟩ hmem => ?_
  obtain ⟨hge, hlt, -⟩ := List.mem_zipIdx hmem
  dsimp only
  rw [h n hge hlt]

/-- Lines without edits stay as they are. -/
theorem editedFrom_eq_self {start : ℕ} {lines : List (List Char)}
    (h : ∀ n, start ≤ n → edits.lookup n = none) : editedFrom edits start lines = lines := by
  induction lines generalizing start with
  | nil => rfl
  | cons line lines ih =>
    rw [editedFrom_cons, h start le_rfl, ih fun n hn => h n (Nat.le_of_succ_le hn)]
    rfl

/-- An edit changes its own line and leaves those above and below. -/
theorem EditKind.apply_append (kind : EditKind) (above below : List (List Char))
    (line : List Char) : kind.apply above.length (above ++ line :: below) =
      above ++ (kind.inPlaceOf line ++ below) := by
  have hline : (above ++ line :: below)[above.length]?.getD [] = line := by simp
  unfold apply
  rw [hline]
  cases kind with
  | delete => simp [inPlaceOf, List.eraseIdx_append_of_length_le]
  | replace text => simp [inPlaceOf]
  | insertBefore text =>
    induction above with
    | nil => rfl
    | cons l above ih => simp [inPlaceOf] at ih ⊢; exact ih

/-- Edits of different lines, applied from the last one upwards, edit the lines above each by
itself and leave those below. -/
theorem applyInOrder_eq_ok (file : String) (hedits : edits.Pairwise fun a b => b.1 < a.1)
    {above : List (List Char)} (hcount : above.length ≤ count)
    (hpresent : ∀ e ∈ edits, e.1 ≠ 0 ∧ e.1 ≤ above.length) (below : List (List Char)) :
    applyInOrder file count edits (above ++ below) = .ok (editedFrom edits 1 above ++ below) := by
  induction edits generalizing above below with
  | nil => rw [applyInOrder, editedFrom_eq_self fun n _ => rfl]
  | cons e edits ih =>
    obtain ⟨n, kind⟩ := e
    obtain ⟨hhead, htail⟩ := List.pairwise_cons.mp hedits
    obtain ⟨⟨hpos, hle⟩, hrest⟩ := List.forall_mem_cons.mp hpresent
    dsimp only at hpos hle hhead
    obtain ⟨k, rfl⟩ : ∃ k, n = k + 1 := ⟨n - 1, by omega⟩
    obtain ⟨front, line, back, rfl, rfl⟩ : ∃ front line back,
        above = front ++ line :: back ∧ front.length = k := by
      refine ⟨above.take k, above[k], above.drop (k + 1), ?_, ?_⟩
      · rw [← List.drop_eq_getElem_cons hle, List.take_append_drop]
      · rw [List.length_take]
        omega
    rw [List.length_append, List.length_cons] at hcount
    have hfront : ∀ e ∈ edits, e.1 ≠ 0 ∧ e.1 ≤ front.length := fun e he =>
      ⟨(hrest e he).1, Nat.le_of_lt_succ (hhead e he)⟩
    rw [applyInOrder, if_neg (by omega), Nat.add_sub_cancel, List.append_assoc, List.cons_append,
      kind.apply_append, ih htail (by omega) hfront, editedFrom_append, editedFrom_cons]
    have habove : editedFrom ((front.length + 1, kind) :: edits) 1 front =
        editedFrom edits 1 front := by
      refine editedFrom_congr fun m hm hlt => ?_
      rw [List.lookup_cons, beq_eq_false_iff_ne.mpr (by omega)]
    have hbelow : editedFrom ((front.length + 1, kind) :: edits) (1 + front.length + 1) back =
        back := by
      refine editedFrom_eq_self fun m hm => List.lookup_eq_none_iff.mpr ?_
      refine List.forall_mem_cons.mpr ⟨?_, fun e he => ?_⟩
      · simp
        omega
      · have := hhead e he
        simp
        omega
    rw [habove, hbelow, Nat.add_comm 1, List.lookup_cons_self, Option.elim_some]
    simp only [List.append_assoc]

/-- A key that stands in a list once has the value that stands with it. -/
theorem lookup_eq_some_iff_mem {κ β : Type} [DecidableEq κ] {entries : List (κ × β)}
    (h : (entries.map Prod.fst).Nodup) {k : κ} {b : β} :
    entries.lookup k = some b ↔ (k, b) ∈ entries := by
  induction entries with
  | nil => simp
  | cons e entries ih =>
    obtain ⟨hnot, hrest⟩ := List.nodup_cons.mp h
    rw [List.lookup_cons, List.mem_cons]
    by_cases hk : k = e.1
    · subst hk
      have habsent : (e.1, b) ∉ entries := fun hmem => hnot (List.mem_map.mpr ⟨_, hmem, rfl⟩)
      simp [Prod.ext_iff, habsent, eq_comm]
    · have hne : (k, b) ≠ e := fun heq => hk (congrArg Prod.fst heq)
      rw [beq_eq_false_iff_ne.mpr hk, ih hrest, or_iff_right hne]

/-- What becomes of each line does not depend on the order of the edits. -/
theorem editedFrom_perm (hperm : edits.Perm edits') (happart : (edits.map Prod.fst).Nodup)
    (start : ℕ) (lines : List (List Char)) :
    editedFrom edits start lines = editedFrom edits' start lines := by
  refine editedFrom_congr fun n _ _ => Option.ext fun kind => ?_
  rw [lookup_eq_some_iff_mem happart,
    lookup_eq_some_iff_mem ((hperm.map Prod.fst).nodup_iff.mp happart), hperm.mem_iff]

/-- The text of a file with each line edited by itself. -/
def editedText (text : String) (edits : List LineEdit) : String :=
  let separator := Text.lineBreak text.toList
  let body := Text.joinWith separator (editedFrom edits 1 (Text.lines text.toList))
  String.ofList (if Text.endsWithBreak text.toList then body ++ separator else body)

theorem applyEdits_of_repeated {line : ℕ} (h : repeatedLine? (fromLast edits) = some line)
    (text : String) : applyEdits file text edits = .error (.conflict ⟨file, line⟩) := by
  unfold fromLast at h
  unfold applyEdits
  dsimp only
  rw [h]

theorem applyEdits_of_unrepeated (h : repeatedLine? (fromLast edits) = none) (text : String) :
    applyEdits file text edits = (do
      let edited ← applyInOrder file (Text.lines text.toList).length (fromLast edits)
        (Text.lines text.toList)
      let body := Text.joinWith (Text.lineBreak text.toList) edited
      return String.ofList (if Text.endsWithBreak text.toList
        then body ++ Text.lineBreak text.toList else body)) := by
  unfold fromLast at h ⊢
  unfold applyEdits
  dsimp only
  rw [h]

/-- The edits of a file fit its lines and are applied at once, or they have a fault. -/
theorem applyEdits_cases (file text : String) (edits : List LineEdit) :
    LinesFit (Text.lines text.toList).length edits ∧
        applyEdits file text edits = .ok (editedText text edits) ∨
      ∃ e, LineFault file (Text.lines text.toList).length edits e ∧
        applyEdits file text edits = .error e := by
  have hperm := fromLast_perm edits
  obtain ⟨hnone, happart⟩ | ⟨line, hsome, hline⟩ := repeatedLine?_cases (pairwise_fromLast edits)
  · rw [applyEdits_of_unrepeated hnone]
    obtain hall | ⟨line, hline, hfails⟩ := applyInOrder_cases file
      (Text.lines text.toList).length (pairwise_fromLast edits) (Text.lines text.toList)
    · left
      have hfit : LinesFit (Text.lines text.toList).length edits :=
        ⟨(hperm.map Prod.fst).nodup_iff.mp happart,
          fun e he => hall e (hperm.mem_iff.mpr he)⟩
      have happly := applyInOrder_eq_ok file (pairwise_fromLast_of_nodup hfit.apart) le_rfl hall []
      rw [List.append_nil, List.append_nil, editedFrom_perm hperm happart] at happly
      rw [happly]
      exact ⟨hfit, rfl⟩
    · right
      rw [hfails]
      exact ⟨_, (LineFault.range happart hline).perm hperm, rfl⟩
  · right
    exact ⟨_, (LineFault.conflict hline).perm hperm, applyEdits_of_repeated hsome text⟩

theorem LinesFit.applyEdits {text : String}
    (h : LinesFit (Text.lines text.toList).length edits) (file : String) :
    applyEdits file text edits = .ok (editedText text edits) := by
  obtain ⟨-, hok⟩ | ⟨e, hfault, -⟩ := applyEdits_cases file text edits
  · exact hok
  · exact absurd hfault (h.no_fault e)

theorem applyEdits_eq_error_iff {text : String} {e : PatchError} :
    applyEdits file text edits = .error e ↔
      LineFault file (Text.lines text.toList).length edits e := by
  obtain ⟨hfit, hok⟩ | ⟨e', hfault, herror⟩ := applyEdits_cases file text edits
  · rw [hok]
    exact ⟨nofun, fun hfault => absurd hfault (hfit.no_fault e)⟩
  · rw [herror, Except.error.injEq]
    exact ⟨fun heq => heq ▸ hfault, hfault.unique⟩

/-- The order of the edits of a file does not matter. -/
theorem applyEdits_perm (hperm : edits.Perm edits') (file text : String) :
    applyEdits file text edits = applyEdits file text edits' := by
  obtain ⟨hfit, hok⟩ | ⟨e, hfault, herror⟩ := applyEdits_cases file text edits
  · have hfit' : LinesFit (Text.lines text.toList).length edits' :=
      ⟨(hperm.map Prod.fst).nodup_iff.mp hfit.apart,
        fun e he => hfit.present e (hperm.mem_iff.mpr he)⟩
    rw [hok, hfit'.applyEdits file, editedText, editedText, editedFrom_perm hperm hfit.apart]
  · rw [herror, applyEdits_eq_error_iff.mpr (hfault.perm hperm)]

end AtOnce

section LinesAgain

variable {edits : List LineEdit} {text : String}

/-- The text that an edit puts in. -/
def EditKind.text? : EditKind → Option String
  | .delete => none
  | .replace text => some text
  | .insertBefore text => some text

theorem mem_editedFrom {start : ℕ} {lines : List (List Char)} {l : List Char}
    (h : l ∈ editedFrom edits start lines) :
    ∃ line ∈ lines, l = line ∨ ∃ e ∈ edits, l ∈ e.2.inPlaceOf line := by
  obtain ⟨⟨line, n⟩, hmem, hl⟩ := List.mem_flatMap.mp h
  refine ⟨line, List.fst_mem_of_mem_zipIdx hmem, ?_⟩
  dsimp only at hl
  cases hlookup : edits.lookup n with
  | none =>
    rw [hlookup] at hl
    exact Or.inl (List.mem_singleton.mp hl)
  | some kind =>
    rw [hlookup] at hl
    obtain ⟨before, after, rfl, -⟩ := List.lookup_eq_some_iff.mp hlookup
    exact Or.inr ⟨(n, kind), List.mem_append_right _ List.mem_cons_self, hl⟩

theorem mem_editedFrom_of_unedited {start n : ℕ} {lines : List (List Char)} {line : List Char}
    (hline : lines[n]? = some line) (hnone : edits.lookup (start + n) = none) :
    line ∈ editedFrom edits start lines := by
  refine List.mem_flatMap.mpr ⟨(line, start + n), ?_, ?_⟩
  · rw [List.mk_mem_zipIdx_iff_le_and_getElem?_sub]
    exact ⟨Nat.le_add_right _ _, by rwa [Nat.add_sub_cancel_left]⟩
  · dsimp only
    rw [hnone]
    exact List.mem_singleton_self line

/-- Lines put in by edits whose texts are single lines that are not blank stay single lines. -/
theorem unbroken_of_mem_editedFrom (hend : text.toList.getLast? = some '\n')
    (htexts : ∀ e ∈ edits, ∀ t, e.2.text? = some t →
      '\n' ∉ t.toList ∧ ∃ c ∈ t.toList, Text.isBlank c = false)
    {start : ℕ} {l : List Char} (h : l ∈ editedFrom edits start (Text.lines text.toList)) :
    Text.Unbroken (Text.lineBreak text.toList) l := by
  obtain ⟨line, hmem, hl⟩ := mem_editedFrom h
  have hline := Text.unbroken_of_mem_lines hend hmem
  have hput {t : String} (ht : '\n' ∉ t.toList ∧ ∃ c ∈ t.toList, Text.isBlank c = false) :
      Text.Unbroken (Text.lineBreak text.toList) (Text.indent line ++ Text.trim t.toList) :=
    Text.unbroken_indent_append_trim _ hline.noFeed ht.1 ht.2
  obtain rfl | ⟨⟨n, kind⟩, he, hl⟩ := hl
  · exact hline
  · cases kind with
    | delete => cases hl
    | replace t =>
      rw [List.mem_singleton.mp hl]
      exact hput (htexts _ he t rfl)
    | insertBefore t =>
      rcases List.mem_cons.mp hl with rfl | hl
      · exact hput (htexts _ he t rfl)
      · rw [List.mem_singleton.mp hl]
        exact hline

/-- The lines of an edited text that ends in a line break are the edited lines. -/
theorem lines_editedText (hend : text.toList.getLast? = some '\n')
    (htexts : ∀ e ∈ edits, ∀ t, e.2.text? = some t →
      '\n' ∉ t.toList ∧ ∃ c ∈ t.toList, Text.isBlank c = false)
    (hne : editedFrom edits 1 (Text.lines text.toList) ≠ []) :
    Text.lines (editedText text edits).toList = editedFrom edits 1 (Text.lines text.toList) := by
  have hbreak : Text.endsWithBreak text.toList = true := by
    rw [Text.endsWithBreak, hend]
    rfl
  have hseparator : Text.lineBreak text.toList = ['\n'] ∨
      Text.lineBreak text.toList = ['\r', '\n'] :=
    (Text.lineBreak_cases text.toList).imp And.left And.left
  rw [editedText, String.toList_ofList, if_pos hbreak]
  exact Text.lines_joinWith hseparator hne fun l hl => unbroken_of_mem_editedFrom hend htexts hl

/-- Applying edits of different lines from the last one upwards is the same as editing every line
of the original by itself. With texts that are single lines, the edited text reads as the edited
lines. -/
theorem edits_at_once (file text : String) (edits : List LineEdit)
    (hfit : LinesFit (Text.lines text.toList).length edits) :
    let separator := if ['\r', '\n'] <:+: text.toList then ['\r', '\n'] else ['\n']
    let edited := editedFrom edits 1 (Text.lines text.toList)
    ∃ result : String, applyEdits file text edits = .ok result ∧
      result.toList = separator.intercalate edited ++
        (if text.toList.getLast? = some '\n' then separator else []) ∧
      (text.toList.getLast? = some '\n' →
        (∀ e ∈ edits, ∀ t, e.2.text? = some t →
          '\n' ∉ t.toList ∧ ∃ c ∈ t.toList, Text.isBlank c = false) →
        edited ≠ [] →
        Text.lines result.toList = edited ∧
          ∀ n line, (Text.lines text.toList)[n]? = some line → edits.lookup (n + 1) = none →
            line ∈ Text.lines result.toList) := by
  intro separator edited
  have hseparator : Text.lineBreak text.toList = separator := by
    obtain ⟨hbreak, hinfix⟩ | ⟨hbreak, hinfix⟩ := Text.lineBreak_cases text.toList
    · exact hbreak.trans (if_neg hinfix).symm
    · exact hbreak.trans (if_pos hinfix).symm
  refine ⟨editedText text edits, hfit.applyEdits file, ?_, fun hend htexts hne => ?_⟩
  · rw [editedText, String.toList_ofList, hseparator, Text.joinWith_eq_intercalate]
    by_cases hend : text.toList.getLast? = some '\n'
    · rw [if_pos hend, if_pos (by rw [Text.endsWithBreak, hend]; rfl)]
    · have hnot : Text.endsWithBreak text.toList = false := by
        rw [Text.endsWithBreak, beq_eq_false_iff_ne]
        exact hend
      rw [if_neg hend, hnot, List.append_nil]
      rfl
  · have hlines := lines_editedText hend htexts hne
    refine ⟨hlines, fun n line hline hnone => ?_⟩
    rw [hlines]
    exact mem_editedFrom_of_unedited hline (Nat.add_comm 1 n ▸ hnone)

/-- Three edits of a text with line breaks of both kinds. The last line, which is not edited, is
read again although a line above it is gone and another one is new. -/
theorem edits_at_once_of_mixed_breaks :
    ∃ (text : String) (edits : List LineEdit), LinesFit (Text.lines text.toList).length edits ∧
      applyEdits "f" text edits = .ok "\ty\r\n x\r\n c\r\nd\r\n" ∧
      "d".toList ∈ Text.lines "\ty\r\n x\r\n c\r\nd\r\n".toList := by
  let text := "\ta\r\nb\n c\nd\n"
  let edits : List LineEdit := [(2, .delete), (3, .insertBefore "x "), (1, .replace "y")]
  have hfit : LinesFit (Text.lines text.toList).length edits := ⟨by decide, by decide +kernel⟩
  obtain ⟨result, hresult, htext, hlines⟩ := edits_at_once "f" text edits hfit
  obtain rfl : result = "\ty\r\n x\r\n c\r\nd\r\n" := by
    rw [← String.toList_inj, htext]
    decide +kernel
  refine ⟨text, edits, hfit, hresult, ?_⟩
  have htexts : ∀ e ∈ edits, ∀ t, e.2.text? = some t →
      '\n' ∉ t.toList ∧ ∃ c ∈ t.toList, Text.isBlank c = false := by
    intro e he t ht
    simp only [edits, List.mem_cons, List.not_mem_nil, or_false] at he
    rcases he with rfl | rfl | rfl
    · cases ht
    · cases ht
      exact ⟨by decide, 'x', by decide, by decide⟩
    · cases ht
      exact ⟨by decide, 'y', by decide, by decide⟩
  exact (hlines (by decide +kernel) htexts (by decide +kernel)).2 3 "d".toList
    (by decide +kernel) (by decide +kernel)

end LinesAgain

end PatchSearch
