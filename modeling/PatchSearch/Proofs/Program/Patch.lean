import Mathlib.Data.Finset.Card
import Mathlib.Data.Finset.Image
import Mathlib.Data.Prod.Lex
import Mathlib.Data.String.Basic
import Mathlib.Order.WithBot
import PatchSearch.Evaluation.Ledger
import PatchSearch.Proofs.SortedList

/-!
Patches as sets of edits. The order of edits is the order of four keys, and edits with the same keys
are equal, so the edits of a patch ascend strictly and patches are equal exactly when they have the
same edits. A store to which patches are added answers each time whether the patch is new, which is
so the first time that its set of edits comes, and in the end it knows as many patches as there were
different sets.
-/
namespace PatchSearch

namespace PatchEdit

/-- The keys by which edits are ordered. A missing ingredient comes before all others. -/
def key (e : PatchEdit) : ℕ ×ₗ String ×ₗ ℕ ×ₗ WithBot ℕ :=
  toLex (e.operatorIndex, toLex (e.location.file, toLex (e.location.line, e.ingredientIndex)))

theorem key_injective : Function.Injective key := by
  rintro ⟨o, ⟨f, l⟩, i⟩ ⟨o', ⟨f', l'⟩, i'⟩ h
  simp only [key, EmbeddingLike.apply_eq_iff_eq, Prod.mk.injEq] at h
  obtain ⟨rfl, rfl, rfl, rfl⟩ := h
  rfl

theorem ingredientLE_iff (i j : WithBot ℕ) : ingredientLE i j = true ↔ i ≤ j := by
  cases i with
  | bot => exact iff_of_true rfl bot_le
  | coe i =>
    cases j with
    | bot => exact iff_of_false Bool.false_ne_true (WithBot.not_coe_le_bot i)
    | coe j => exact decide_eq_true_iff.trans WithBot.coe_le_coe.symm

theorem key_le_iff (a b : PatchEdit) : a.key ≤ b.key ↔ a.operatorIndex < b.operatorIndex ∨
    a.operatorIndex = b.operatorIndex ∧ (a.location.Before b.location ∨
      a.location = b.location ∧ ingredientLE a.ingredientIndex b.ingredientIndex = true) := by
  obtain ⟨o, ⟨f, l⟩, i⟩ := a
  obtain ⟨o', ⟨f', l'⟩, i'⟩ := b
  have hingredient := ingredientLE_iff i i'
  simp only [key, Prod.Lex.toLex_le_toLex, Location.Before, Location.mk.injEq]
  tauto

theorem le_iff (a b : PatchEdit) : le a b = true ↔ a.key ≤ b.key := by
  rw [key_le_iff]
  unfold le
  by_cases ho : a.operatorIndex = b.operatorIndex
  · by_cases hl : a.location = b.location
    · simp [ho, hl, Location.not_before_self]
    · simp [ho, hl, Location.le_iff]
  · simp [ho]

theorem orders_le : Orders le :=
  .of_key key_injective le_iff

end PatchEdit

namespace Patch

variable {edits edits' : List PatchEdit}

theorem toFinset_edits_ofEdits (edits : List PatchEdit) :
    (ofEdits edits).edits.toFinset = edits.toFinset := by
  ext e
  rw [List.mem_toFinset, List.mem_toFinset, mem_edits_ofEdits]

/-- A patch is determined by the set of its edits. -/
theorem ofEdits_eq_iff : ofEdits edits = ofEdits edits' ↔ edits.toFinset = edits'.toFinset := by
  constructor
  · intro h
    rw [← toFinset_edits_ofEdits edits, h, toFinset_edits_ofEdits]
  · intro h
    refine congrArg mk (PatchEdit.orders_le.sortedSet_ext fun e => ?_)
    rw [mem_sortedSet, mem_sortedSet, ← List.mem_toFinset, h, List.mem_toFinset]

theorem pairwise_edits_ofEdits (edits : List PatchEdit) :
    (ofEdits edits).edits.Pairwise fun a b => a.key < b.key :=
  (PatchEdit.orders_le.pairwise_sortedSet edits).imp fun {_ _} ⟨hle, hne⟩ =>
    lt_of_le_of_ne ((PatchEdit.le_iff _ _).mp hle) (PatchEdit.key_injective.ne hne)

theorem ofEdits_edits_ofEdits (edits : List PatchEdit) :
    ofEdits (ofEdits edits).edits = ofEdits edits :=
  ofEdits_eq_iff.mpr (toFinset_edits_ofEdits edits)

end Patch

namespace PatchStore

/-- Adds patches one after the other: whether each was new when it came, and the store in the
end. -/
def addEach (s : PatchStore) : List Patch → List Bool × PatchStore
  | [] => ([], s)
  | p :: ps =>
    let (new, s) := s.add p
    let (rest, s) := s.addEach ps
    (new :: rest, s)

variable {s : PatchStore} {p : Patch} {ps : List Patch}

theorem contains_iff : s.contains p = true ↔ p ∈ s.patches :=
  List.contains_iff_mem

theorem add_eq (s : PatchStore) (p : Patch) : s.add p = (decide (p ∉ s.patches),
    { s with patches := if p ∈ s.patches then s.patches else s.patches ++ [p] }) := by
  by_cases h : p ∈ s.patches
  · rw [add_eq_of_contains s p (contains_iff.mpr h), if_pos h, decide_eq_false (not_not_intro h)]
  · rw [add, if_neg (mt contains_iff.mp h), if_neg h, decide_eq_true h]

theorem mem_patches_add {q : Patch} : q ∈ (s.add p).2.patches ↔ q ∈ s.patches ∨ q = p := by
  rw [add_eq]
  by_cases h : p ∈ s.patches
  · rw [if_pos h, iff_self_or]
    rintro rfl
    exact h
  · rw [if_neg h, List.mem_append, List.mem_singleton]

theorem nodup_patches_add (h : s.patches.Nodup) (p : Patch) : (s.add p).2.patches.Nodup := by
  rw [add_eq]
  by_cases hp : p ∈ s.patches
  · rwa [if_pos hp]
  · rw [if_neg hp, ← List.concat_eq_append]
    exact h.concat hp

/-- A patch is new when it was not stored before and has not come since. -/
theorem addEach_fst (s : PatchStore) (ps : List Patch) : (s.addEach ps).1 =
    ps.mapIdx fun i p => decide (p ∉ s.patches ∧ p ∉ ps.take i) := by
  induction ps generalizing s with
  | nil => rfl
  | cons p ps ih =>
    rw [List.mapIdx_cons]
    change (s.add p).1 :: ((s.add p).2.addEach ps).1 = _
    rw [ih]
    refine congrArg₂ List.cons ?_ (congrArg (ps.mapIdx ·) (funext₂ fun i q => ?_))
    · rw [add_eq, List.take_zero]
      exact decide_eq_decide.mpr (and_iff_left List.not_mem_nil).symm
    · rw [List.take_succ_cons, decide_eq_decide, List.mem_cons, mem_patches_add, not_or, not_or,
        and_assoc]

theorem mem_patches_addEach : p ∈ (s.addEach ps).2.patches ↔ p ∈ s.patches ∨ p ∈ ps := by
  induction ps generalizing s with
  | nil => exact (or_iff_left List.not_mem_nil).symm
  | cons q ps ih =>
    change p ∈ ((s.add q).2.addEach ps).2.patches ↔ _
    rw [ih, mem_patches_add, List.mem_cons, or_assoc]

theorem nodup_patches_addEach (h : s.patches.Nodup) (ps : List Patch) :
    (s.addEach ps).2.patches.Nodup := by
  induction ps generalizing s with
  | nil => exact h
  | cons p ps ih => exact ih (nodup_patches_add h p)

end PatchStore

section Sets

variable {added : List (List PatchEdit)}

theorem Patch.ofEdits_mem_map_iff {edits : List PatchEdit} :
    Patch.ofEdits edits ∈ added.map Patch.ofEdits ↔
      edits.toFinset ∈ added.map List.toFinset := by
  simp only [List.mem_map, Patch.ofEdits_eq_iff]

/-- Patches differ as often as their sets of edits do. -/
theorem Patch.card_ofEdits (added : List (List PatchEdit)) :
    (added.map Patch.ofEdits).toFinset.card = (added.map List.toFinset).toFinset.card := by
  have himage : (added.map Patch.ofEdits).toFinset.image (fun p => p.edits.toFinset) =
      (added.map List.toFinset).toFinset := by
    ext set
    simp [toFinset_edits_ofEdits]
  rw [← himage, Finset.card_image_of_injOn]
  intro p hp q hq h
  obtain ⟨edits, -, rfl⟩ := List.mem_map.mp (List.mem_toFinset.mp hp)
  obtain ⟨edits', -, rfl⟩ := List.mem_map.mp (List.mem_toFinset.mp hq)
  dsimp only at h
  rwa [toFinset_edits_ofEdits, toFinset_edits_ofEdits, ← ofEdits_eq_iff] at h

/-- Identity of patches is a canonical form. Patches are equal exactly when they are made from the
same set of edits, a patch holds exactly these edits, strictly ascending by operator number, file,
line and ingredient number with a missing ingredient first, and making a patch of its own edits gives
the same patch. When patches are added to a store that knows none, in any number and order, each call
says whether the set of edits comes for the first time, and the store ends with as many patches as
there were different sets. -/
theorem patch_identity :
    (∀ edits edits', Patch.ofEdits edits = Patch.ofEdits edits' ↔
      edits.toFinset = edits'.toFinset) ∧
    (∀ edits, (Patch.ofEdits edits).edits.toFinset = edits.toFinset ∧
      ((Patch.ofEdits edits).edits.Pairwise fun a b => a.key < b.key) ∧
      Patch.ofEdits (Patch.ofEdits edits).edits = Patch.ofEdits edits) ∧
    ∀ (records : List PatchRecord) (outputDir : Option String) (added : List (List PatchEdit)),
      let run := (PatchStore.mk [] records outputDir).addEach (added.map Patch.ofEdits)
      run.1 = added.mapIdx (fun i edits =>
        decide (edits.toFinset ∉ (added.take i).map List.toFinset)) ∧
      run.2.length = (added.map List.toFinset).toFinset.card := by
  refine ⟨fun _ _ => Patch.ofEdits_eq_iff, fun edits => ⟨Patch.toFinset_edits_ofEdits edits,
    Patch.pairwise_edits_ofEdits edits, Patch.ofEdits_edits_ofEdits edits⟩,
    fun records outputDir added => ⟨?_, ?_⟩⟩
  · rw [PatchStore.addEach_fst]
    refine List.ext_getElem? fun i => ?_
    rw [List.getElem?_mapIdx, List.getElem?_mapIdx, List.getElem?_map, Option.map_map]
    refine congrArg (added[i]?.map ·) (funext fun edits => ?_)
    rw [Function.comp_apply, decide_eq_decide, ← List.map_take, Patch.ofEdits_mem_map_iff]
    exact and_iff_right List.not_mem_nil
  · rw [← Patch.card_ofEdits, PatchStore.length, ← List.toFinset_card_of_nodup
      (PatchStore.nodup_patches_addEach List.nodup_nil _)]
    refine congrArg Finset.card (Finset.ext fun p => ?_)
    rw [List.mem_toFinset, List.mem_toFinset, PatchStore.mem_patches_addEach]
    exact or_iff_right List.not_mem_nil

end Sets

end PatchSearch
