import Mathlib.Data.Finset.Card
import Mathlib.Data.Finset.Lattice.Lemmas
import Mathlib.Data.List.Perm.Basic
import PatchSearch.Program.Suspicion

/-!
Sets as ascending lists. Under an order a sorted list is determined by what it was sorted from, and
a sorted set ascends strictly, so it has no member twice and is determined by its members. Texts and
locations are ordered.
-/
namespace PatchSearch

/-- A test for a linear order. -/
structure Orders {α : Type} (le : α → α → Bool) : Prop where
  total : ∀ a b, (le a b || le b a) = true
  trans : ∀ a b c, le a b = true → le b c = true → le a c = true
  antisymm : ∀ a b, le a b = true → le b a = true → a = b

/-- A test that compares by a key is one for a linear order if no two values share a key. -/
theorem Orders.of_key {α β : Type} [LinearOrder β] {le : α → α → Bool} {key : α → β}
    (hkey : Function.Injective key) (h : ∀ a b, le a b = true ↔ key a ≤ key b) : Orders le where
  total a b := by
    rw [Bool.or_eq_true, h, h]
    exact le_total _ _
  trans a b c hab hbc := by
    rw [h] at hab hbc ⊢
    exact hab.trans hbc
  antisymm a b hab hba := by
    rw [h] at hab hba
    exact hkey (hab.antisymm hba)

section Sorted

variable {α : Type} {le : α → α → Bool} {xs ys : List α}

theorem Orders.pairwise_mergeSort (h : Orders le) (xs : List α) :
    (xs.mergeSort le).Pairwise fun a b => le a b = true :=
  List.pairwise_mergeSort h.trans h.total xs

/-- What a sort makes of a list does not depend on how the list was arranged. -/
theorem Orders.mergeSort_eq_of_perm (h : Orders le) (hperm : xs.Perm ys) :
    xs.mergeSort le = ys.mergeSort le := by
  have hsorted : (xs.mergeSort le).Perm (ys.mergeSort le) :=
    (List.mergeSort_perm xs le).trans (hperm.trans (List.mergeSort_perm ys le).symm)
  exact hsorted.eq_of_pairwise (fun a b _ _ hab hba => h.antisymm a b hab hba)
    (h.pairwise_mergeSort xs) (h.pairwise_mergeSort ys)

end Sorted

section Sets

variable {α : Type} [DecidableEq α] {le : α → α → Bool}

theorem Orders.pairwise_dropRepeats (h : Orders le) {xs : List α}
    (hsorted : xs.Pairwise fun a b => le a b = true) :
    (dropRepeats xs).Pairwise fun a b => le a b = true ∧ a ≠ b := by
  fun_induction dropRepeats xs with
  | case1 => exact List.Pairwise.nil
  | case2 a => exact List.pairwise_singleton _ a
  | case3 b xs ih => exact ih hsorted.of_cons
  | case4 a b xs hne ih =>
    obtain ⟨hfirst, hrest⟩ := List.pairwise_cons.mp hsorted
    refine List.pairwise_cons.mpr ⟨fun c hc => ?_, ih hrest⟩
    have hmem : c ∈ b :: xs := (mem_dropRepeats c (b :: xs)).mp hc
    refine ⟨hfirst c hmem, ?_⟩
    rintro rfl
    -- A later occurrence would have `b` between two equal members.
    have hb : le b a = true := by
      rcases List.mem_cons.mp hmem with rfl | hlater
      · exact absurd rfl hne
      · exact List.rel_of_pairwise_cons hrest hlater
    exact hne (h.antisymm a b (hfirst b (List.mem_cons_self ..)) hb)

theorem Orders.pairwise_sortedSet (h : Orders le) (xs : List α) :
    (sortedSet le xs).Pairwise fun a b => le a b = true ∧ a ≠ b :=
  h.pairwise_dropRepeats (h.pairwise_mergeSort xs)

theorem Orders.nodup_sortedSet (h : Orders le) (xs : List α) : (sortedSet le xs).Nodup :=
  (h.pairwise_sortedSet xs).imp And.right

omit [DecidableEq α] in
/-- Strictly ascending lists with the same members are equal. -/
theorem Orders.eq_of_pairwise (h : Orders le) {xs ys : List α}
    (hx : xs.Pairwise fun a b => le a b = true ∧ a ≠ b)
    (hy : ys.Pairwise fun a b => le a b = true ∧ a ≠ b) (hmem : ∀ a, a ∈ xs ↔ a ∈ ys) :
    xs = ys := by
  have hperm : xs.Perm ys :=
    (List.perm_ext_iff_of_nodup (hx.imp And.right) (hy.imp And.right)).mpr hmem
  exact hperm.eq_of_pairwise (fun a b _ _ hab hba => h.antisymm a b hab.1 hba.1) hx hy

theorem Orders.sortedSet_ext (h : Orders le) {xs ys : List α}
    (hmem : ∀ a, a ∈ sortedSet le xs ↔ a ∈ sortedSet le ys) : sortedSet le xs = sortedSet le ys :=
  h.eq_of_pairwise (h.pairwise_sortedSet xs) (h.pairwise_sortedSet ys) hmem

end Sets

theorem orders_textLE : Orders textLE where
  total a b := by simpa [textLE] using String.le_total a b
  trans a b c hab hbc := by
    simp only [textLE, decide_eq_true_eq] at hab hbc ⊢
    exact String.le_trans hab hbc
  antisymm a b hab hba := by
    simp only [textLE, decide_eq_true_eq] at hab hba
    exact String.le_antisymm hab hba

theorem textSet_ext {xs ys : List String} (h : ∀ t, t ∈ textSet xs ↔ t ∈ textSet ys) :
    textSet xs = textSet ys :=
  orders_textLE.sortedSet_ext h

theorem nodup_textSet (xs : List String) : (textSet xs).Nodup :=
  orders_textLE.nodup_sortedSet xs

/-- A suite has as many tests as its two sides have together. -/
theorem TestSuite.length_ordered (s : TestSuite) :
    s.ordered.length = (s.positive.toFinset ∪ s.negative.toFinset).card := by
  have hmembers : s.positive.toFinset ∪ s.negative.toFinset = s.ordered.toFinset := by
    ext t
    simp [s.mem_ordered]
  have hnodup : s.ordered.Nodup := nodup_textSet _
  rw [hmembers, List.toFinset_card_of_nodup hnodup]

namespace Location

/-- A location stands before another one: in an earlier file, or on an earlier line of its file. -/
def Before (a b : Location) : Prop :=
  a.file < b.file ∨ a.file = b.file ∧ a.line < b.line

theorem le_iff (a b : Location) : le a b = true ↔ a.Before b ∨ a = b := by
  obtain ⟨f, m⟩ := a
  obtain ⟨g, n⟩ := b
  simp only [le, Before, Bool.or_eq_true, Bool.and_eq_true, decide_eq_true_eq, beq_iff_eq,
    Location.mk.injEq, Nat.le_iff_lt_or_eq]
  tauto

theorem Before.trans {a b c : Location} (hab : a.Before b) (hbc : b.Before c) : a.Before c := by
  rcases hab with hab | ⟨hab, hlt⟩ <;> rcases hbc with hbc | ⟨hbc, hlt'⟩
  · exact Or.inl (String.lt_trans hab hbc)
  · exact Or.inl (hbc ▸ hab)
  · exact Or.inl (hab ▸ hbc)
  · exact Or.inr ⟨hab.trans hbc, hlt.trans hlt'⟩

theorem not_before_self (a : Location) : ¬ a.Before a := by
  rintro (h | ⟨-, h⟩)
  · exact String.lt_irrefl _ h
  · exact lt_irrefl _ h

theorem before_or_eq_or_before (a b : Location) : a.Before b ∨ a = b ∨ b.Before a := by
  obtain ⟨f, m⟩ := a
  obtain ⟨g, n⟩ := b
  simp only [Before, Location.mk.injEq]
  by_cases hfg : f < g
  · exact Or.inl (Or.inl hfg)
  by_cases hgf : g < f
  · exact Or.inr (Or.inr (Or.inl hgf))
  obtain rfl : f = g := String.le_antisymm (String.not_lt.mp hgf) (String.not_lt.mp hfg)
  rcases lt_trichotomy m n with h | rfl | h
  · exact Or.inl (Or.inr ⟨rfl, h⟩)
  · exact Or.inr (Or.inl ⟨rfl, rfl⟩)
  · exact Or.inr (Or.inr (Or.inr ⟨rfl, h⟩))

theorem orders_le : Orders le where
  total a b := by
    rw [Bool.or_eq_true, le_iff, le_iff]
    rcases before_or_eq_or_before a b with h | h | h
    · exact Or.inl (Or.inl h)
    · exact Or.inl (Or.inr h)
    · exact Or.inr (Or.inl h)
  trans a b c hab hbc := by
    rw [le_iff] at hab hbc ⊢
    rcases hab with hab | rfl
    · rcases hbc with hbc | rfl
      · exact Or.inl (hab.trans hbc)
      · exact Or.inl hab
    · exact hbc
  antisymm a b hab hba := by
    rw [le_iff] at hab hba
    rcases hab with hab | rfl
    · rcases hba with hba | rfl
      · exact absurd (hab.trans hba) (not_before_self a)
      · rfl
    · rfl

end Location

end PatchSearch
