import Mathlib.Data.List.Nodup
import Mathlib.Data.List.Perm.Subperm
import PatchSearch.Program.Model
import PatchSearch.Proofs.Random.Draws

/-!
The operators of points in canonical form. A point keeps of its operators those that it allows, each
at its first place, in the order of these places; deletion comes last unless it was there before. So
no operator has two numbers, deletion has one, an operator that needs an ingredient is only found
where there is one, and a point in this form stays as it is. All points of a model are in this form.
-/
namespace PatchSearch

namespace Point

/-- An operator can be used at a point: it needs no ingredient, or there is one. -/
def Allows (p : Point) (o : Operator) : Prop :=
  o.needsIngredient = true → p.ingredients ≠ []

/-- The operators of a list that a point allows, each once, in the order of their first places. -/
structure Keeps (p : Point) (os kept : List Operator) : Prop where
  mem_iff : ∀ o, o ∈ kept ↔ o ∈ os ∧ p.Allows o
  order : kept.Pairwise fun a b => os.idxOf a < os.idxOf b

section FirstOccurrences

variable {keep : Operator → Bool} {seen os : List Operator}

theorem mem_firstOccurrences {o : Operator} :
    o ∈ firstOccurrences keep seen os ↔ o ∈ os ∧ keep o = true ∧ o ∉ seen := by
  induction os generalizing seen with
  | nil => simp [firstOccurrences]
  | cons x xs ih =>
    unfold firstOccurrences
    by_cases hx : (keep x && !seen.contains x) = true
    · rw [if_pos hx, List.mem_cons, List.mem_cons, ih, List.mem_cons]
      simp only [Bool.and_eq_true, Bool.not_eq_true', List.contains_eq_mem, decide_eq_false_iff_not]
        at hx
      by_cases ho : o = x
      · subst ho
        simp [hx]
      · simp [ho]
    · rw [if_neg hx, List.mem_cons, ih]
      have hother : keep o = true ∧ o ∉ seen → o ≠ x := by
        rintro ⟨hkeep, hseen⟩ rfl
        simp [hkeep, hseen] at hx
      tauto

/-- What comes first in a list stays first. -/
theorem pairwise_firstOccurrences :
    (firstOccurrences keep seen os).Pairwise fun a b => os.idxOf a < os.idxOf b := by
  induction os generalizing seen with
  | nil => exact List.Pairwise.nil
  | cons x xs ih =>
    -- Behind an operator that does not come again the places are those in the rest, shifted by one.
    have hrest {seen : List Operator} (hne : ∀ o ∈ firstOccurrences keep seen xs, o ≠ x) :
        (firstOccurrences keep seen xs).Pairwise fun a b =>
          (x :: xs).idxOf a < (x :: xs).idxOf b := by
      refine ih.imp_of_mem fun ha hb hlt => ?_
      rw [List.idxOf_cons_ne _ (hne _ ha).symm, List.idxOf_cons_ne _ (hne _ hb).symm]
      exact Nat.succ_lt_succ hlt
    unfold firstOccurrences
    by_cases hx : (keep x && !seen.contains x) = true
    · have hne : ∀ o ∈ firstOccurrences keep (x :: seen) xs, o ≠ x := by
        rintro o ho rfl
        exact (mem_firstOccurrences.mp ho).2.2 List.mem_cons_self
      rw [if_pos hx]
      refine List.pairwise_cons.mpr ⟨fun o ho => ?_, hrest hne⟩
      rw [List.idxOf_cons_self, List.idxOf_cons_ne _ (hne o ho).symm]
      exact Nat.succ_pos _
    · rw [if_neg hx]
      refine hrest ?_
      rintro o ho rfl
      obtain ⟨-, hkeep, hseen⟩ := mem_firstOccurrences.mp ho
      simp [hkeep, hseen] at hx

/-- Nothing is dropped from a list without repetitions of which everything is kept. -/
theorem firstOccurrences_eq_self (hnodup : os.Nodup)
    (hkeep : ∀ o ∈ os, keep o = true ∧ o ∉ seen) : firstOccurrences keep seen os = os := by
  induction os generalizing seen with
  | nil => rfl
  | cons x xs ih =>
    obtain ⟨hx, hxs⟩ := List.nodup_cons.mp hnodup
    obtain ⟨⟨hkeepx, hseen⟩, hrest⟩ := List.forall_mem_cons.mp hkeep
    unfold firstOccurrences
    rw [if_pos (by simp [hkeepx, hseen]), ih hxs fun o ho => ⟨(hrest o ho).1, ?_⟩]
    rintro hmem
    rcases List.mem_cons.mp hmem with rfl | hmem
    · exact hx ho
    · exact (hrest o ho).2 hmem

end FirstOccurrences

/-- What a point keeps of its operators. -/
def kept (p : Point) : List Operator :=
  firstOccurrences (fun o => !p.ingredients.isEmpty || !o.needsIngredient) [] p.operators

variable {p : Point} {o : Operator}

theorem allows_iff : (!p.ingredients.isEmpty || !o.needsIngredient) = true ↔ p.Allows o := by
  unfold Allows
  rw [Bool.or_eq_true, Bool.not_eq_true', Bool.not_eq_true', List.isEmpty_eq_false_iff]
  cases o.needsIngredient <;> simp

theorem allows_delete : p.Allows .delete :=
  nofun

theorem allows_normalize : p.normalize.Allows o ↔ p.Allows o :=
  Iff.rfl

theorem mem_kept : o ∈ p.kept ↔ o ∈ p.operators ∧ p.Allows o := by
  rw [kept, mem_firstOccurrences, allows_iff, and_iff_left List.not_mem_nil]

theorem keeps_kept (p : Point) : p.Keeps p.operators p.kept :=
  ⟨fun _ => mem_kept, pairwise_firstOccurrences⟩

theorem Keeps.nodup {os kept : List Operator} (h : p.Keeps os kept) : kept.Nodup :=
  h.order.imp fun {_ _} hlt heq => Nat.ne_of_lt hlt (congrArg (os.idxOf ·) heq)

theorem operators_normalize (p : Point) :
    p.normalize.operators = p.kept ++ if .delete ∈ p.operators then [] else [.delete] := by
  have hdelete : .delete ∈ p.kept ↔ .delete ∈ p.operators := by
    rw [mem_kept, and_iff_left allows_delete]
  unfold normalize
  change (if p.kept.contains .delete = true then p.kept else p.kept ++ [.delete]) = _
  by_cases h : .delete ∈ p.operators
  · rw [if_pos h, if_pos (List.contains_iff_mem.mpr (hdelete.mpr h)), List.append_nil]
  · rw [if_neg h, if_neg fun hkept => h (hdelete.mp (List.contains_iff_mem.mp hkept))]

theorem mem_normalize : o ∈ p.normalize.operators ↔ o ∈ p.operators ∧ p.Allows o ∨ o = .delete := by
  rw [operators_normalize, List.mem_append, mem_kept]
  by_cases hdelete : Operator.delete ∈ p.operators
  · rw [if_pos hdelete, or_iff_left List.not_mem_nil, iff_self_or]
    rintro rfl
    exact ⟨hdelete, allows_delete⟩
  · rw [if_neg hdelete, List.mem_singleton]

theorem nodup_normalize (p : Point) : p.normalize.operators.Nodup := by
  rw [operators_normalize, List.nodup_append]
  refine ⟨p.keeps_kept.nodup, ?_, ?_⟩
  · split <;> simp
  · intro o ho o' ho'
    split at ho'
    · cases ho'
    · next hdelete =>
      rintro rfl
      rw [List.mem_singleton.mp ho'] at ho
      exact hdelete (mem_kept.mp ho).1

theorem allows_of_mem_normalize (ho : o ∈ p.normalize.operators) : p.Allows o := by
  rcases mem_normalize.mp ho with ⟨-, hallowed⟩ | rfl
  · exact hallowed
  · exact allows_delete

/-- A point in canonical form stays as it is. -/
theorem normalize_normalize (p : Point) : p.normalize.normalize = p.normalize := by
  have hkept : p.normalize.kept = p.normalize.operators :=
    firstOccurrences_eq_self p.nodup_normalize fun o ho =>
      ⟨allows_iff.mpr (allows_normalize.mpr (allows_of_mem_normalize ho)), List.not_mem_nil⟩
  have hoperators := p.normalize.operators_normalize
  rw [if_pos p.delete_mem_normalize, List.append_nil, hkept] at hoperators
  change { p.normalize with operators := p.normalize.normalize.operators } = p.normalize
  rw [hoperators]

theorem length_normalize (p : Point) :
    1 ≤ p.normalize.operators.length ∧ p.normalize.operators.length ≤ 3 :=
  ⟨List.length_pos_iff.mpr p.operators_normalize_ne_nil,
    (p.nodup_normalize.subperm fun o _ => o.mem_all).length_le⟩

/-- Where there is no ingredient, statements can only be deleted. -/
theorem operators_normalize_of_ingredients_eq_nil (h : p.ingredients = []) :
    p.normalize.operators = [.delete] := by
  have hmem (o : Operator) : o ∈ p.normalize.operators ↔ o ∈ [Operator.delete] := by
    rw [List.mem_singleton]
    constructor
    · intro ho
      have hneeds : ¬ o.needsIngredient = true := fun hneeds =>
        allows_of_mem_normalize ho hneeds h
      cases o
      · rfl
      · exact absurd rfl hneeds
      · exact absurd rfl hneeds
    · rintro rfl
      exact p.delete_mem_normalize
  exact List.perm_singleton.mp
    ((List.perm_ext_iff_of_nodup p.nodup_normalize (List.nodup_singleton _)).mpr hmem)

end Point

theorem length_trim (points : List Point) (budget : ℕ) (g : Random) :
    (trim points budget g).1.length = min budget points.length := by
  unfold trim
  split
  · next hfits => exact (Nat.min_eq_right hfits).symm
  · rw [(Random.shuffle_perm _ g).length_eq, List.length_take, List.length_mergeSort]

namespace ProgramModel

variable {catalog : List Point} {maxPoints : ℕ} {g g' : Random} {model : ProgramModel}

/-- All points of a model are in canonical form. -/
theorem exists_normalize (h : ofCatalog catalog maxPoints g = .ok (model, g')) {p : Point}
    (hp : p ∈ model.points) : ∃ q : Point, p = q.normalize := by
  unfold ofCatalog at h
  split at h
  · cases h
  · cases h
    obtain ⟨q, -, rfl⟩ := List.mem_map.mp hp
    exact ⟨q, rfl⟩

/-- A catalog with points has a model, with as many points as are there and are allowed. -/
theorem exists_model (hcatalog : catalog ≠ []) (maxPoints : ℕ) (g : Random) :
    ∃ model g', ofCatalog catalog maxPoints g = .ok (model, g') ∧
      model.points.length = min maxPoints catalog.length := by
  refine ⟨⟨(trim catalog maxPoints g).1.map Point.normalize⟩, (trim catalog maxPoints g).2, ?_, ?_⟩
  · unfold ofCatalog
    rw [if_neg (mt List.isEmpty_iff.mp hcatalog)]
  · rw [List.length_map, length_trim]

end ProgramModel

/-- Operators have a canonical form. Normalizing a point leaves no operator twice, always leaves
deletion, and leaves an operator that needs an ingredient only where there is one. It keeps the
operators that the point allows, each once and in the order of their first places, and puts deletion
at the end if it was missing; nothing else of the point changes, and doing it again changes nothing.
So a model, which every catalog with points has, gives every point one to three operators, and
deletion alone where there is no ingredient. -/
theorem operators_canonical :
    (∀ p : Point, p.normalize.operators.Nodup ∧ .delete ∈ p.normalize.operators ∧
      (∀ o ∈ p.normalize.operators, o.needsIngredient = true → p.ingredients ≠ []) ∧
      (∃ kept, p.Keeps p.operators kept ∧
        p.normalize.operators = kept ++ if .delete ∈ p.operators then [] else [.delete]) ∧
      { p.normalize with operators := p.operators } = p ∧
      p.normalize.normalize = p.normalize) ∧
    ∀ (catalog : List Point) (maxPoints : ℕ) (g : Random), 0 < maxPoints →
      (catalog ≠ [] → ∃ model g', ProgramModel.ofCatalog catalog maxPoints g = .ok (model, g') ∧
        model.points.length = min maxPoints catalog.length) ∧
      ∀ model g', ProgramModel.ofCatalog catalog maxPoints g = .ok (model, g') →
        ∀ p ∈ model.points, 1 ≤ p.operators.length ∧ p.operators.length ≤ 3 ∧
          (p.ingredients = [] → p.operators = [.delete]) := by
  refine ⟨fun p => ⟨p.nodup_normalize, p.delete_mem_normalize,
    fun o ho => Point.allows_of_mem_normalize ho, ⟨p.kept, p.keeps_kept, p.operators_normalize⟩, rfl,
    p.normalize_normalize⟩, fun catalog maxPoints g _ => ⟨fun hcatalog =>
      ProgramModel.exists_model hcatalog maxPoints g, fun model g' hmodel p hp => ?_⟩⟩
  obtain ⟨q, rfl⟩ := ProgramModel.exists_normalize hmodel hp
  obtain ⟨hlow, hhigh⟩ := q.length_normalize
  exact ⟨hlow, hhigh, fun hnone => q.operators_normalize_of_ingredients_eq_nil hnone⟩

/-- A line that lists replacement twice and deletion not at all. -/
def replacedLine (ingredients : List Ingredient) : Point :=
  ⟨⟨"A.java", 3⟩, "x++;", 0.5, ingredients, [.replace, .replace, .insertBefore]⟩

/-- With an ingredient the line gets deletion as its third operator, and without one it is left with
deletion alone. -/
theorem operators_canonical_of_replaced_line :
    (replacedLine [⟨0, "x--;"⟩]).normalize.operators = [.replace, .insertBefore, .delete] ∧
      ∃ model g', ProgramModel.ofCatalog [replacedLine []] 1 (Random.ofSeed 0) = .ok (model, g') ∧
        model.points.length = 1 ∧ ∀ p ∈ model.points, p.operators = [.delete] := by
  refine ⟨rfl, ?_⟩
  obtain ⟨hexists, hpoints⟩ :=
    operators_canonical.2 [replacedLine []] 1 (Random.ofSeed 0) Nat.one_pos
  obtain ⟨model, g', hmodel, hlength⟩ := hexists (List.cons_ne_nil _ _)
  refine ⟨model, g', hmodel, hlength, fun p hp => (hpoints model g' hmodel p hp).2.2 ?_⟩
  obtain ⟨rfl, rfl⟩ : model = ⟨[(replacedLine []).normalize]⟩ ∧ g' = Random.ofSeed 0 := by
    cases hmodel
    exact ⟨rfl, rfl⟩
  rw [List.mem_singleton.mp hp]
  rfl

end PatchSearch
