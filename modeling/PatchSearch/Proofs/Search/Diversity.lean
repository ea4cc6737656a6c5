import Mathlib.InformationTheory.Hamming
import PatchSearch.Proofs.Evaluation.Decoding
import PatchSearch.Proofs.Numbers.Exact
import PatchSearch.Proofs.Search.Selection

/-!
The distance of chromosomes and the diversity of a population. At a point a chromosome expresses
nothing, where it is switched off, or the two numbers of its gene. Two chromosomes differ at a point
when they express something else there, so their distance is a Hamming distance, as a share of the
points. The diversity is the mean of the distances of all pairs, as long as their number fits into
31 bits; so it is a share as well, and it vanishes when all members act alike, and only then. What
is expressed says more than what is decoded: a deletion takes no ingredient, and still has the
number of one, which the distance counts.
-/
namespace PatchSearch

namespace Chromosome

/-- What a chromosome expresses at a point: its two numbers, where it is switched on. -/
def expressed (c : Chromosome) (i : ℕ) : Option (ℕ × ℕ) :=
  if c.active[i]? = some true then some (c.operatorIndex.getD i 0, c.ingredientIndex.getD i 0)
  else none

/-- What a chromosome expresses at the first `n` points. -/
def expression (n : ℕ) (c : Chromosome) (i : Fin n) : Option (ℕ × ℕ) :=
  c.expressed i

/-- The share of `n` points at which two chromosomes express something else. -/
def gap (n : ℕ) (a b : Chromosome) : ℚ :=
  hammingDist (a.expression n) (b.expression n) / n

/-- The same points are switched on, with the same numbers. -/
structure ActsLike (a b : Chromosome) : Prop where
  points : a.activePoints = b.activePoints
  operator : ∀ i ∈ a.activePoints, a.operatorIndex[i]? = b.operatorIndex[i]?
  ingredient : ∀ i ∈ a.activePoints, a.ingredientIndex[i]? = b.ingredientIndex[i]?

variable {n : ℕ} {a b c : Chromosome}

section Counts

theorem differsAt_eq (ha : a.Shaped n) (hb : b.Shaped n) {i : ℕ} (hi : i < n) :
    a.differsAt b i = .ok (decide (a.expressed i ≠ b.expressed i)) := by
  obtain ⟨haa, hao, hai⟩ := ha
  obtain ⟨hba, hbo, hbi⟩ := hb
  have hactive : a.active[i]? = some a.active[i] := List.getElem?_eq_getElem (by omega)
  have hactive' : b.active[i]? = some b.active[i] := List.getElem?_eq_getElem (by omega)
  unfold differsAt expressed
  rw [itemAt_of_lt a.active i (by omega), itemAt_of_lt b.active i (by omega),
    itemAt_of_lt a.operatorIndex i (by omega), itemAt_of_lt b.operatorIndex i (by omega),
    itemAt_of_lt a.ingredientIndex i (by omega), itemAt_of_lt b.ingredientIndex i (by omega),
    hactive, hactive', List.getD_eq_getElem _ _ (by omega), List.getD_eq_getElem _ _ (by omega),
    List.getD_eq_getElem _ _ (by omega), List.getD_eq_getElem _ _ (by omega)]
  cases a.active[i] <;> cases b.active[i]
  · rfl
  · rfl
  · rfl
  · by_cases ho : a.operatorIndex[i] = b.operatorIndex[i]
    · simp [bind, Except.bind, pure, Except.pure, ho]
    · simp [bind, Except.bind, pure, Except.pure, ho]

theorem differences_eq (ha : a.Shaped n) (hb : b.Shaped n) {points : List ℕ}
    (h : ∀ i ∈ points, i < n) :
    a.differences b points =
      .ok (points.countP fun i => decide (a.expressed i ≠ b.expressed i)) := by
  induction points with
  | nil => rfl
  | cons i points ih =>
    obtain ⟨hi, hpoints⟩ := List.forall_mem_cons.mp h
    unfold differences
    rw [differsAt_eq ha hb hi, ih hpoints, List.countP_cons]
    by_cases hsame : a.expressed i = b.expressed i
    · simp [bind, Except.bind, pure, Except.pure, hsame]
    · simp [bind, Except.bind, pure, Except.pure, hsame]

theorem hammingDist_expression : hammingDist (a.expression n) (b.expression n) =
    ((Finset.range n).filter fun i => a.expressed i ≠ b.expressed i).card := by
  rw [Finset.card_filter, ← Fin.sum_univ_eq_sum_range, ← Finset.card_filter]
  rfl

/-- Chromosomes of some points have a distance: the number of points at which they differ, in
proportion to all. -/
theorem distance_eq {α : Type} [Arithmetic α] (ha : a.Shaped n) (hb : b.Shaped n) (hn : n ≠ 0) :
    (a.distance b : Except Fault α) =
      .ok (proportion (hammingDist (a.expression n) (b.expression n)) n) := by
  unfold distance
  dsimp only
  rw [ha.min_length hb, if_neg hn, differences_eq ha hb fun i hi => List.mem_range.mp hi,
    hammingDist_expression, List.countP_eq_length_filter]
  rfl

end Counts

section Gaps

/-- Without rounding the distance is the gap. -/
theorem exact_distance {α : Type} [ExactScalar α] (ha : a.Shaped n) (hb : b.Shaped n) :
    a.distance b = .ok (ExactScalar.number (gap n a b) : α) := by
  by_cases hn : n = 0
  · subst hn
    unfold distance
    dsimp only
    rw [ha.min_length hb, if_pos rfl, ExactScalar.ofNat_eq, gap, Nat.cast_zero, div_zero]
    rfl
  · rw [distance_eq ha hb hn, ExactScalar.proportion_eq _ hn]
    rfl

theorem gap_nonneg : 0 ≤ gap n a b :=
  div_nonneg (Nat.cast_nonneg _) (Nat.cast_nonneg _)

theorem gap_le_one : gap n a b ≤ 1 := by
  apply div_le_one_of_le₀ _ (Nat.cast_nonneg n)
  have hcard := hammingDist_le_card_fintype (x := a.expression n) (y := b.expression n)
  rw [Fintype.card_fin] at hcard
  exact_mod_cast hcard

theorem gap_comm : gap n b a = gap n a b := by
  rw [gap, hammingDist_comm, gap]

/-- What differs between the first and the last differs on one of the two ways between them. -/
theorem gap_triangle : gap n a c ≤ gap n a b + gap n b c := by
  have htriangle := hammingDist_triangle (a.expression n) (b.expression n) (c.expression n)
  rw [gap, gap, gap, ← add_div]
  apply div_le_div_of_nonneg_right _ (Nat.cast_nonneg n)
  exact_mod_cast htriangle

theorem gap_self : gap n a a = 0 := by
  rw [gap, hammingDist_self, Nat.cast_zero, zero_div]

theorem gap_eq_zero_iff_expressed : gap n a b = 0 ↔ ∀ i < n, a.expressed i = b.expressed i := by
  by_cases hn : n = 0
  · subst hn
    simp [gap]
  · have hpos : (n : ℚ) ≠ 0 := Nat.cast_ne_zero.mpr hn
    rw [gap, div_eq_zero_iff, or_iff_left hpos, Nat.cast_eq_zero, hammingDist_eq_zero, funext_iff]
    exact ⟨fun h i hi => h ⟨i, hi⟩, fun h i => h i i.isLt⟩

theorem Shaped.expressed_eq_some_iff (h : c.Shaped n) {i o k : ℕ} : c.expressed i = some (o, k) ↔
    i ∈ c.activePoints ∧ c.operatorIndex[i]? = some o ∧ c.ingredientIndex[i]? = some k := by
  obtain ⟨hca, hco, hck⟩ := h
  unfold expressed
  rw [mem_activePoints]
  by_cases hactive : c.active[i]? = some true
  · obtain ⟨hi, -⟩ := List.getElem?_eq_some_iff.mp hactive
    have hoperator : c.operatorIndex[i]? = some _ := List.getElem?_eq_getElem (by omega)
    have hingredient : c.ingredientIndex[i]? = some _ := List.getElem?_eq_getElem (by omega)
    rw [if_pos hactive, List.getD_eq_getElem?_getD, List.getD_eq_getElem?_getD, hoperator,
      hingredient]
    simp [hactive]
  · simp [hactive]

theorem Shaped.lt_of_mem_activePoints (h : c.Shaped n) {i : ℕ} (hi : i ∈ c.activePoints) :
    i < n := by
  obtain ⟨hlt, -⟩ := List.getElem?_eq_some_iff.mp (mem_activePoints.mp hi)
  rwa [h.active] at hlt

theorem expressed_eq_none_iff {i : ℕ} : c.expressed i = none ↔ i ∉ c.activePoints := by
  unfold expressed
  rw [mem_activePoints]
  split <;> simp [*]

/-- Who acts alike expresses the same at every point. -/
theorem actsLike_iff_expressed (ha : a.Shaped n) (hb : b.Shaped n) :
    a.ActsLike b ↔ ∀ i < n, a.expressed i = b.expressed i := by
  constructor
  · rintro ⟨hpoints, hoperator, hingredient⟩ i hi
    by_cases hon : i ∈ a.activePoints
    · have hsome : a.expressed i ≠ none := fun hnone => expressed_eq_none_iff.mp hnone hon
      obtain ⟨⟨o, k⟩, hx⟩ := Option.ne_none_iff_exists'.mp hsome
      obtain ⟨-, ho, hk⟩ := ha.expressed_eq_some_iff.mp hx
      rw [hx, eq_comm]
      apply hb.expressed_eq_some_iff.mpr
      exact ⟨hpoints ▸ hon, hoperator i hon ▸ ho, hingredient i hon ▸ hk⟩
    · rw [expressed_eq_none_iff.mpr hon, expressed_eq_none_iff.mpr (hpoints ▸ hon)]
  · intro h
    have hnumbers (i : ℕ) (hon : i ∈ a.activePoints) :
        a.operatorIndex[i]? = b.operatorIndex[i]? ∧
          a.ingredientIndex[i]? = b.ingredientIndex[i]? := by
      have hi : i < n := ha.lt_of_mem_activePoints hon
      have hsome : a.expressed i ≠ none := fun hnone => expressed_eq_none_iff.mp hnone hon
      obtain ⟨⟨o, k⟩, hx⟩ := Option.ne_none_iff_exists'.mp hsome
      obtain ⟨-, ho, hk⟩ := ha.expressed_eq_some_iff.mp hx
      obtain ⟨-, ho', hk'⟩ := hb.expressed_eq_some_iff.mp ((h i hi).symm.trans hx)
      exact ⟨ho.trans ho'.symm, hk.trans hk'.symm⟩
    refine ⟨?_, fun i hi => (hnumbers i hi).1, fun i hi => (hnumbers i hi).2⟩
    have hmem (i : ℕ) : i ∈ a.activePoints ↔ i ∈ b.activePoints := by
      by_cases hi : i < n
      · rw [← not_iff_not, ← expressed_eq_none_iff, ← expressed_eq_none_iff, h i hi]
      · exact iff_of_false (mt ha.lt_of_mem_activePoints hi) (mt hb.lt_of_mem_activePoints hi)
    exact List.Perm.eq_of_pairwise (fun i j _ _ hij hji => absurd hij (Nat.lt_asymm hji))
      (pairwise_activePoints a) (pairwise_activePoints b)
      ((List.perm_ext_iff_of_nodup (pairwise_activePoints a).nodup
        (pairwise_activePoints b).nodup).mpr hmem)

/-- Two chromosomes have no gap when they act alike, and only then. -/
theorem gap_eq_zero_iff (ha : a.Shaped n) (hb : b.Shaped n) : gap n a b = 0 ↔ a.ActsLike b := by
  rw [gap_eq_zero_iff_expressed, actsLike_iff_expressed ha hb]

end Gaps

end Chromosome

open Chromosome ExactScalar

variable {n : ℕ} {c : Chromosome} {cs : List Chromosome}

section Pairs

/-- The gaps of all pairs of chromosomes. -/
def pairGaps (n : ℕ) : List Chromosome → List ℚ
  | [] => []
  | c :: cs => cs.map (gap n c) ++ pairGaps n cs

/-- The mean gap of all pairs of chromosomes, zero if there are none. -/
def meanGap (n : ℕ) (cs : List Chromosome) : ℚ :=
  (pairGaps n cs).sum / (pairGaps n cs).length

theorem length_pairGaps (n : ℕ) (cs : List Chromosome) :
    (pairGaps n cs).length = cs.length * (cs.length - 1) / 2 := by
  rw [← Nat.choose_two_right]
  induction cs with
  | nil => rfl
  | cons c cs ih =>
    rw [pairGaps, List.length_append, List.length_map, ih, List.length_cons, Nat.choose_succ_succ',
      Nat.choose_one_right]

theorem bounds_of_mem_pairGaps {x : ℚ} (h : x ∈ pairGaps n cs) : 0 ≤ x ∧ x ≤ 1 := by
  induction cs with
  | nil => cases h
  | cons c cs ih =>
    rcases List.mem_append.mp h with h | h
    · obtain ⟨d, -, rfl⟩ := List.mem_map.mp h
      exact ⟨gap_nonneg, gap_le_one⟩
    · exact ih h

theorem meanGap_nonneg : 0 ≤ meanGap n cs :=
  div_nonneg (List.sum_nonneg fun _ hx => (bounds_of_mem_pairGaps hx).1) (Nat.cast_nonneg _)

theorem meanGap_le_one : meanGap n cs ≤ 1 := by
  apply div_le_one_of_le₀ _ (Nat.cast_nonneg _)
  have hsum := List.sum_le_card_nsmul (pairGaps n cs) 1 fun x hx => (bounds_of_mem_pairGaps hx).2
  rwa [nsmul_one] at hsum

/-- No pair has a gap when no two members have one; a member has none to itself. -/
theorem forall_mem_pairGaps : (∀ x ∈ pairGaps n cs, x = 0) ↔
    ∀ c ∈ cs, ∀ d ∈ cs, gap n c d = 0 := by
  have hpairs : (∀ x ∈ pairGaps n cs, x = 0) ↔ cs.Pairwise fun c d => gap n c d = 0 := by
    induction cs with
    | nil => simp [pairGaps]
    | cons c cs ih =>
      rw [List.pairwise_cons, ← ih, pairGaps]
      simp only [List.forall_mem_append, List.forall_mem_map]
  have hsymm : Std.Symm fun c d => gap n c d = 0 := ⟨fun c d hcd => by rwa [gap_comm]⟩
  rw [hpairs]
  constructor
  · intro h c hc d hd
    exact h.forall_of_forall (fun c _ => gap_self) hc hd
  · intro h
    exact List.pairwise_of_forall_mem_list fun c hc d hd => h c hc d hd

theorem meanGap_eq_zero_iff : meanGap n cs = 0 ↔ ∀ c ∈ cs, ∀ d ∈ cs, gap n c d = 0 := by
  rw [← forall_mem_pairGaps]
  constructor
  · intro h x hx
    have hsome : ((pairGaps n cs).length : ℚ) ≠ 0 :=
      Nat.cast_ne_zero.mpr (List.length_pos_of_mem hx).ne'
    have hsum := (div_eq_zero_iff.mp h).resolve_right hsome
    exact List.all_zero_of_le_zero_le_of_sum_eq_zero
      (fun y hy => (bounds_of_mem_pairGaps hy).1) hsum hx
  · intro h
    rw [meanGap, List.sum_eq_zero h, zero_div]

end Pairs

section Sums

variable {α : Type} [ExactScalar α]

theorem addDistances_number (hc : c.Shaped n) (h : ∀ d ∈ cs, d.Shaped n) (q : ℚ) :
    addDistances c cs (number q : α) = .ok (number (q + (cs.map (gap n c)).sum)) := by
  induction cs generalizing q with
  | nil => simp [addDistances]
  | cons d cs ih =>
    obtain ⟨hd, hcs⟩ := List.forall_mem_cons.mp h
    unfold addDistances
    rw [exact_distance hc hd]
    change addDistances c cs (number q + number (gap n c d)) = _
    rw [add_eq, ih hcs, List.map_cons, List.sum_cons, add_assoc]

theorem addPairDistances_number (h : ∀ c ∈ cs, c.Shaped n) (q : ℚ) :
    addPairDistances cs (number q : α) = .ok (number (q + (pairGaps n cs).sum)) := by
  induction cs generalizing q with
  | nil => simp [addPairDistances, pairGaps]
  | cons c cs ih =>
    obtain ⟨hc, hcs⟩ := List.forall_mem_cons.mp h
    unfold addPairDistances
    rw [addDistances_number hc hcs]
    change addPairDistances cs (number (q + (cs.map (gap n c)).sum)) = _
    rw [ih hcs, pairGaps, List.sum_append, add_assoc]

/-- The diversity is the mean gap of all pairs, if their number can be counted. -/
theorem diversity_eq {population : List (Candidate α)}
    (h : ∀ c ∈ population, c.chromosome.Shaped n) : diversity population =
      if population.length ≤ 65536 then .ok (number (meanGap n (population.map (·.chromosome))))
      else .error .arithmeticOverflow := by
  have hshaped : ∀ c ∈ population.map (·.chromosome), c.Shaped n := List.forall_mem_map.mpr h
  have hcount := length_pairGaps n (population.map (·.chromosome))
  rw [List.length_map] at hcount
  unfold diversity meanGap
  dsimp only
  by_cases hsmall : population.length < 2
  · have hnone : (pairGaps n (population.map (·.chromosome))).length = 0 := by
      rw [hcount, ← Nat.choose_two_right, Nat.choose_eq_zero_of_lt hsmall]
    rw [if_pos hsmall, if_pos (by omega), hnone, Nat.cast_zero, div_zero, ofNat_eq, Nat.cast_zero]
    rfl
  · have hpos : (pairGaps n (population.map (·.chromosome))).length ≠ 0 := by
      rw [hcount, ← Nat.choose_two_right]
      exact (Nat.choose_pos (by omega)).ne'
    rw [if_neg hsmall, ofNat_eq, addPairDistances_number hshaped, Nat.cast_zero, zero_add]
    by_cases hfew : population.length ≤ 65536
    · rw [if_pos hfew, fitting, if_pos ((pairs_lt_iff _).mpr hfew), ← hcount]
      change Except.ok (number _ / Arithmetic.ofNat _) = _
      rw [ofNat_eq, div_eq _ (Nat.cast_ne_zero.mpr hpos)]
    · rw [if_neg hfew, fitting, if_neg (mt (pairs_lt_iff _).mp hfew)]
      rfl

end Sums

/-- A member of a population that has not been sorted. -/
def unsortedMember (c : Chromosome) : Candidate ExtendedRational where
  id := 0
  chromosome := c
  objectives := Objectives.sentinel 2
  status := .noActiveEdits
  rank := none
  crowding := .number 0
  generation := 0
  parents := []

section Decodings

/-- What the gene of a point may stand for. -/
inductive Decoded where
  | nothing
  | deletion
  | edit (operator ingredient : ℕ)
  deriving DecidableEq

/-- Nothing where the point is switched off, a deletion where that is the operator of the gene, and
else the numbers of its operator and of its ingredient. -/
def Chromosome.decoding (points : List Point) (c : Chromosome) (i : ℕ) : Decoded :=
  match c.expressed i with
  | none => .nothing
  | some (o, k) =>
    if points[i]?.bind (·.operators[o]?) = some .delete then .deletion else .edit o k

/-- What a list of edits does at a point. -/
def decodedAt (edits : List AppliedEdit) (i : ℕ) : Decoded :=
  match edits.find? (·.point == i) with
  | none => .nothing
  | some e => e.ingredientIndex.elim .deletion (.edit e.operatorIndex)

/-- The points at which two chromosomes stand for different edits. -/
def differing (points : List Point) (a b : Chromosome) : Finset ℕ :=
  (Finset.range points.length).filter fun i => a.decoding points i ≠ b.decoding points i

/-- The points at which two chromosomes both stand for a deletion, which takes no ingredient, and
have the numbers of different ingredients. -/
def idle (points : List Point) (a b : Chromosome) : Finset ℕ :=
  (Finset.range points.length).filter fun i => a.decoding points i = .deletion ∧
    b.decoding points i = .deletion ∧ a.ingredientIndex[i]? ≠ b.ingredientIndex[i]?

variable {catalog : List Point} {maxPoints : ℕ} {g g' : Random} {model : ProgramModel}

/-- No operator of a point of a model has two numbers. -/
theorem ProgramModel.nodup_operators
    (h : ProgramModel.ofCatalog catalog maxPoints g = .ok (model, g')) :
    ∀ p ∈ model.points, p.operators.Nodup := by
  intro p hp
  obtain ⟨q, rfl⟩ := ProgramModel.exists_normalize h hp
  exact q.nodup_normalize

/-- A gene whose numbers can be taken as they are expresses the numbers that are read off it. -/
theorem expressed_of_reads {points : List Point} {i k o : ℕ} {p : Point} {operator : Operator}
    (h : c.Reads points i p o operator k) (htaken : c.TakenAsIs i p) :
    ∃ k', c.expressed i = some (o, k') ∧ (p.ingredients ≠ [] → k' = k) := by
  obtain ⟨o', ho', hmod⟩ := htaken.operator
  obtain ⟨gene, hgene, rfl⟩ := h.number
  obtain rfl := Option.some.inj (ho'.symm.trans hgene)
  obtain ⟨k', hk', rfl⟩ := h.ingredient
  refine ⟨k', ?_, fun hsome => ?_⟩
  · rw [expressed, if_pos h.active, List.getD_eq_getElem?_getD, List.getD_eq_getElem?_getD, ho',
      hk', hmod]
    rfl
  · obtain ⟨k, hk, hmod'⟩ := htaken.ingredient (List.length_pos_of_ne_nil hsome).ne'
    obtain rfl := Option.some.inj (hk.symm.trans hk')
    exact hmod'.symm

/-- Genes within the bounds of a model are decoded to what they stand for. -/
theorem exists_selection (h : ProgramModel.ofCatalog catalog maxPoints g = .ok (model, g'))
    (hc : c.InBounds model.bounds) : ∃ edits c',
      selectEdits model.points false none c = .ok (edits, c') ∧
        ∀ i, decodedAt edits i = c.decoding model.points i := by
  have hlength : model.bounds.length = model.points.length := List.length_map _
  have hshaped : c.Shaped model.points.length := hlength ▸ hc.shaped
  obtain ⟨⟨edits, c'⟩, hselected, -⟩ := yields_selectEdits hshaped false none
  obtain ⟨all, -, hmem, hretains, -⟩ :=
    selectEdits_proposals (ProgramModel.equipped h) hshaped hselected
  obtain rfl : edits = all := hretains.sublist.eq_of_length hretains.length
  refine ⟨edits, c', hselected, fun i => ?_⟩
  by_cases hactive : c.active[i]? = some true
  · obtain ⟨hi, -⟩ := List.getElem?_eq_some_iff.mp hactive
    rw [hshaped.active] at hi
    have hp : model.points[i]? = some _ := List.getElem?_eq_getElem hi
    have hequipped := ProgramModel.equipped h _ (List.mem_of_getElem? hp)
    obtain ⟨n, o, k, hreads, hroom⟩ := hshaped.exists_reads hp hequipped hactive
    obtain ⟨e, he, rfl⟩ := (hreads.proposes_or_dropped hroom false).resolve_right nofun
    have hfind : edits.find? (·.point == e.point) = some e := by
      have hsome : (edits.find? (·.point == e.point)).isSome :=
        List.find?_isSome.mpr ⟨e, (hmem e).mpr he, by simp⟩
      obtain ⟨e', hfound⟩ := Option.isSome_iff_exists.mp hsome
      have hpoint : e'.point = e.point := by simpa using List.find?_some hfound
      rw [hfound, ((hmem e').mp (List.mem_of_find?_eq_some hfound)).unique he hpoint]
    unfold decodedAt Chromosome.decoding
    rw [hfind]
    cases he with
    | deletion hdelete =>
      obtain ⟨k', hexpressed, -⟩ := expressed_of_reads hdelete (hc.takenAsIs h hdelete.point)
      simp [hexpressed, hdelete.point, hdelete.operator]
    | own hown ho hx _ =>
      obtain ⟨k', hexpressed, hk'⟩ := expressed_of_reads hown (hc.takenAsIs h hown.point)
      obtain rfl := hk' (List.ne_nil_of_mem (List.mem_of_getElem? hx))
      simp [hexpressed, hown.point, hown.operator, ho]
    | redirected _ _ hfilter => cases hfilter
  · have hnone : edits.find? (·.point == i) = none := by
      rw [List.find?_eq_none]
      intro e he hpoint
      obtain ⟨p, k, hreads⟩ := ((hmem e).mp he).reads
      rw [beq_iff_eq] at hpoint
      exact hactive (hpoint ▸ hreads.active)
    unfold decodedAt Chromosome.decoding expressed
    rw [hnone, if_neg hactive]

/-- The ways to stand for something at a point: nothing is expressed there, or the number of the
deletion, or that of another operator. -/
theorem decoding_cases {points : List Point} (hc : c.Shaped points.length) {i : ℕ} {p : Point}
    (hp : points[i]? = some p) :
    c.expressed i = none ∧ c.decoding points i = .nothing ∨
      ∃ o k, c.expressed i = some (o, k) ∧ c.ingredientIndex[i]? = some k ∧
        (p.operators[o]? = some .delete ∧ c.decoding points i = .deletion ∨
          p.operators[o]? ≠ some .delete ∧ c.decoding points i = .edit o k) := by
  unfold Chromosome.decoding
  cases hexpressed : c.expressed i with
  | none => exact Or.inl ⟨rfl, rfl⟩
  | some numbers =>
    obtain ⟨o, k⟩ := numbers
    obtain ⟨-, -, hk⟩ := hc.expressed_eq_some_iff.mp hexpressed
    refine Or.inr ⟨o, k, rfl, hk, ?_⟩
    rw [hp]
    by_cases hdelete : p.operators[o]? = some .delete
    · exact Or.inl ⟨hdelete, if_pos hdelete⟩
    · exact Or.inr ⟨hdelete, if_neg hdelete⟩

/-- Two chromosomes express something else at the points where they stand for different edits and at
those where they delete with different ingredients, and at no others. -/
theorem expressed_ne_iff {points : List Point} (hnodup : ∀ p ∈ points, p.operators.Nodup)
    {a b : Chromosome} (ha : a.Shaped points.length) (hb : b.Shaped points.length) {i : ℕ} :
    i < points.length ∧ a.expressed i ≠ b.expressed i ↔
      i ∈ differing points a b ∪ idle points a b := by
  rw [Finset.mem_union, differing, idle, Finset.mem_filter, Finset.mem_filter, ← and_or_left,
    Finset.mem_range, and_congr_right_iff]
  intro hi
  have hp : points[i]? = some _ := List.getElem?_eq_getElem hi
  obtain ⟨hx, hd⟩ | ⟨o, k, hx, hk, ⟨ho, hd⟩ | ⟨ho, hd⟩⟩ := decoding_cases ha hp <;>
    obtain ⟨hx', hd'⟩ | ⟨o', k', hx', hk', ⟨ho', hd'⟩ | ⟨ho', hd'⟩⟩ := decoding_cases hb hp <;>
    rw [hx, hx', hd, hd']
  · simp
  · simp
  · simp
  · simp
  · -- the deletion has one number only
    have hlt := (List.getElem?_eq_some_iff.mp ho).1
    obtain rfl : o = o' := (List.getElem?_inj hlt (hnodup _ (List.getElem_mem hi))).mp
      (ho.trans ho'.symm)
    simp [hk, hk']
  · have hne : o ≠ o' := by
      rintro rfl
      exact ho' ho
    simp [hne]
  · simp
  · have hne : o ≠ o' := by
      rintro rfl
      exact ho ho'
    simp [hne]
  · simp

/-- The distance counts the points with different edits, and also those with idle ingredients. For
the model of a catalog that has points, genes within its bounds are decoded to nothing where they
are switched off, to a deletion, or to the numbers of an operator and of an ingredient. The distance
of two chromosomes is the number of points at which they decode to different edits, and of those at
which both delete but have the numbers of different ingredients, in proportion to all points. So it
is the share of the points with different edits when there is no point of the second kind, and only
then. -/
theorem distance_counts_edits_iff
    (h : ProgramModel.ofCatalog catalog maxPoints g = .ok (model, g')) (hsome : model.points ≠ [])
    {a b : Chromosome} (ha : a.InBounds model.bounds) (hb : b.InBounds model.bounds) :
    (∀ c, c.InBounds model.bounds → ∃ edits c',
      selectEdits model.points false none c = .ok (edits, c') ∧
        ∀ i, decodedAt edits i = c.decoding model.points i) ∧
    (∀ (α : Type) [Arithmetic α], (a.distance b : Except Fault α) =
      .ok (proportion ((differing model.points a b).card + (idle model.points a b).card)
        model.points.length)) ∧
    ∀ (α : Type) [ExactScalar α],
      a.distance b = .ok (number ((differing model.points a b).card / model.points.length) : α) ↔
        idle model.points a b = ∅ := by
  have hlength : model.bounds.length = model.points.length := List.length_map _
  have hshaped : a.Shaped model.points.length := hlength ▸ ha.shaped
  have hshaped' : b.Shaped model.points.length := hlength ▸ hb.shaped
  have hpos : model.points.length ≠ 0 := (List.length_pos_of_ne_nil hsome).ne'
  have hdisjoint : Disjoint (differing model.points a b) (idle model.points a b) := by
    apply Finset.disjoint_filter.mpr
    rintro i - hne ⟨hdelete, hdelete', -⟩
    exact hne (hdelete.trans hdelete'.symm)
  have hdistance (α : Type) [Arithmetic α] : (a.distance b : Except Fault α) =
      .ok (proportion ((differing model.points a b).card + (idle model.points a b).card)
        model.points.length) := by
    have hexpressed : ((Finset.range model.points.length).filter fun i =>
        a.expressed i ≠ b.expressed i) = differing model.points a b ∪ idle model.points a b := by
      ext i
      rw [Finset.mem_filter, Finset.mem_range]
      exact expressed_ne_iff (ProgramModel.nodup_operators h) hshaped hshaped'
    rw [distance_eq hshaped hshaped' hpos, hammingDist_expression, hexpressed,
      Finset.card_union_of_disjoint hdisjoint]
  refine ⟨fun c hc => exists_selection h hc, hdistance, fun α _ => ?_⟩
  rw [hdistance α, ExactScalar.proportion_eq _ hpos, Except.ok.injEq, number_inj,
      div_left_inj' (Nat.cast_ne_zero.mpr hpos), Nat.cast_inj, Nat.add_eq_left, Finset.card_eq_zero]

/-- One line with two ingredients, and one without any. -/
def twoIngredientCatalog : List Point :=
  [⟨⟨"A.java", 1⟩, "x++;", 0.5, [⟨0, "x--;"⟩, ⟨1, "y--;"⟩], Operator.all⟩,
    ⟨⟨"A.java", 2⟩, "y++;", 0.5, [], Operator.all⟩]

/-- Two replacements of the first line with different ingredients differ at that point, and the
deletion of the second line in both is no difference. -/
theorem distance_counts_edits_iff_of_replacements :
    ∃ model, ProgramModel.ofCatalog twoIngredientCatalog 2 (Random.ofSeed 0) =
        .ok (model, Random.ofSeed 0) ∧ model.points ≠ [] ∧
      (⟨[true, true], [1, 0], [0, 0]⟩ : Chromosome).InBounds model.bounds ∧
      (⟨[true, true], [1, 0], [1, 0]⟩ : Chromosome).InBounds model.bounds ∧
      distance ⟨[true, true], [1, 0], [0, 0]⟩ ⟨[true, true], [1, 0], [1, 0]⟩ =
        .ok (ExtendedRational.number (1 / 2)) := by
  let model : ProgramModel := ⟨twoIngredientCatalog.map Point.normalize⟩
  have hmodel : ProgramModel.ofCatalog twoIngredientCatalog 2 (Random.ofSeed 0) =
      .ok (model, Random.ofSeed 0) := rfl
  have ha : (⟨[true, true], [1, 0], [0, 0]⟩ : Chromosome).InBounds model.bounds :=
    ⟨rfl, by decide +kernel, by decide +kernel⟩
  have hb : (⟨[true, true], [1, 0], [1, 0]⟩ : Chromosome).InBounds model.bounds :=
    ⟨rfl, by decide +kernel, by decide +kernel⟩
  obtain ⟨-, -, hshare⟩ := distance_counts_edits_iff hmodel (by decide) ha hb
  refine ⟨model, hmodel, by decide, ha, hb, ?_⟩
  have hcard : (differing model.points ⟨[true, true], [1, 0], [0, 0]⟩
      ⟨[true, true], [1, 0], [1, 0]⟩).card = 1 := by
    decide +kernel
  rw [(hshare ExtendedRational).mpr (by decide +kernel), hcard]
  rfl

/-- A deletion of the first line has an ingredient that it does not use. -/
def deletingFirst (ingredient : ℕ) : Chromosome :=
  ⟨[true, false], [0, 0], [ingredient, 0]⟩

/-- Two chromosomes that select the same deletion have a distance, though they decode to different
edits at no point, because their idle ingredients are compared. -/
theorem unused_ingredient_counted :
    ∃ model, ProgramModel.ofCatalog twoIngredientCatalog 2 (Random.ofSeed 0) =
        .ok (model, Random.ofSeed 0) ∧
      (deletingFirst 0).InBounds model.bounds ∧ (deletingFirst 1).InBounds model.bounds ∧
      (∃ edits c c', selectEdits model.points false none (deletingFirst 0) = .ok (edits, c) ∧
        selectEdits model.points false none (deletingFirst 1) = .ok (edits, c')) ∧
      (differing model.points (deletingFirst 0) (deletingFirst 1)).card = 0 ∧
      (deletingFirst 0).distance (deletingFirst 1) = .ok (ExtendedRational.number (1 / 2)) := by
  let model : ProgramModel := ⟨twoIngredientCatalog.map Point.normalize⟩
  have ha : (deletingFirst 0).InBounds model.bounds := ⟨rfl, by decide +kernel, by decide +kernel⟩
  have hb : (deletingFirst 1).InBounds model.bounds := ⟨rfl, by decide +kernel, by decide +kernel⟩
  refine ⟨model, rfl, ha, hb, ⟨_, _, _, rfl, rfl⟩, by decide +kernel, ?_⟩
  have hgap : gap 2 (deletingFirst 0) (deletingFirst 1) = 1 / 2 := by decide +kernel
  rw [exact_distance ha.shaped hb.shaped]
  exact congrArg _ (congrArg number hgap)

end Decodings

end PatchSearch
