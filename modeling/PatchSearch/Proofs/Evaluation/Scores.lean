import PatchSearch.Evaluation.Evaluate
import PatchSearch.Proofs.Config
import PatchSearch.Proofs.Novelty
import PatchSearch.Proofs.Pareto.Layers

/-!
Scores against the sentinel. The shares of failed tests lie between zero and one, so with a weight
that passed validation the fitness is no larger than the weight and one more; a bonus and a negated
novelty only take away from it. So when the weight and one more lie below the sentinel, every value
of a scored vector does, except for the number of edits, which is at most a finite float: a scored
vector is never the sentinel vector, and dominates it unless a value is no number.
-/
namespace PatchSearch

open FloatOrder

section Weights

/-- A finite weight that is not below zero, and that is below the sentinel also with one more. -/
structure Weighted (weight : Float) : Prop where
  isFinite : weight.isFinite = true
  nonneg : 0 ≤ value weight
  sum_isFinite : (weight + 1.0).isFinite = true
  sum_lt : value (weight + 1.0) < limit

/-- A number that is not refused as a weight. -/
theorem not_lt_of_isBelowZero {weight : Float} (h : isBelowZero weight = false) :
    ¬ weight < 0.0 := by
  simpa [isBelowZero] using h

theorem weighted_of_lt {weight : Float} (hweight : isBelowZero weight = false)
    (hlt : weight + 1.0 < Scalar.sentinel) : Weighted weight := by
  have hone : (0 : ℚ) ≤ value 1.0 := value_one ▸ zero_le_one
  obtain ⟨⟨hfinite, hnonneg⟩, hsum⟩ := isFinite_of_add_lt (not_lt_of_isBelowZero hweight)
    isFinite_one hone isFinite_largestFloat hlt
  refine ⟨hfinite, hnonneg, hsum, ?_⟩
  rw [← value_largestFloat]
  exact (lt_iff_value_lt hsum isFinite_largestFloat).mp hlt

end Weights

section Shares

/-- No more tests of either kind failed than were run. -/
structure TestOutcome.Sound (o : TestOutcome) : Prop where
  positive : o.failedPositive ≤ o.ranPositive
  negative : o.failedNegative ≤ o.ranNegative

/-- The tests that were run can be counted by finite floats. -/
structure TestOutcome.Countable (o : TestOutcome) : Prop where
  positive : (Float.ofNat o.ranPositive).isFinite = true
  negative : (Float.ofNat o.ranNegative).isFinite = true

theorem TestOutcome.sound_ofFailed (r : TestRequest) (failed : List String) :
    (TestOutcome.ofFailed r failed).Sound :=
  ⟨List.countP_le_length, List.countP_le_length⟩

theorem within_failedShare {failed ran : Nat} (hle : failed ≤ ran)
    (h : (Float.ofNat ran).isFinite = true ∨ (failedShare failed ran : Float).isNaN = false) :
    Within 1 (failedShare failed ran : Float) := by
  unfold failedShare at h ⊢
  split
  · obtain ⟨hfinite, hvalue⟩ := value_ofNat (n := 0) (by decide)
    exact ⟨hfinite, hvalue.ge.trans' (by simp), hvalue.le.trans (by simp)⟩
  · next hpos =>
    rw [if_neg hpos] at h
    exact within_proportion hle (Nat.pos_of_ne_zero hpos) h

variable {o : TestOutcome} {weight : Float}

theorem TestOutcome.Sound.within_positiveShare (ho : o.Sound)
    (h : o.Countable ∨ (o.positiveShare : Float).isNaN = false) :
    Within 1 (o.positiveShare : Float) :=
  within_failedShare ho.positive (h.imp_left TestOutcome.Countable.positive)

theorem TestOutcome.Sound.within_negativeShare (ho : o.Sound)
    (h : o.Countable ∨ (o.negativeShare : Float).isNaN = false) :
    Within 1 (o.negativeShare : Float) :=
  within_failedShare ho.negative (h.imp_left TestOutcome.Countable.negative)

/-- The fitness is no larger than the weight and one more. -/
theorem TestOutcome.Sound.within_fitness (ho : o.Sound) (hweight : Weighted weight)
    (h : o.Countable ∨ (o.fitness weight : Float).isNaN = false) :
    Within (value (weight + 1.0)) (o.fitness weight) := by
  have hparts : (o.Countable ∨ (o.positiveShare : Float).isNaN = false) ∧
      (o.Countable ∨ (o.negativeShare : Float).isNaN = false) := by
    rcases h with hcountable | hnumber
    · exact ⟨Or.inl hcountable, Or.inl hcountable⟩
    · obtain ⟨hproduct, hnegative⟩ := numbers_of_add hnumber
      exact ⟨Or.inr (numbers_of_mul hproduct).2, Or.inr hnegative⟩
  have hpositive := ho.within_positiveShare hparts.1
  have hnegative := ho.within_negativeShare hparts.2
  exact (hpositive.mul hweight.isFinite hweight.nonneg).add hweight.isFinite isFinite_one
    hweight.sum_isFinite (value_one.symm ▸ hnegative)

end Shares

section Values

variable {o : TestOutcome} {weight diversity v : Float}

/-- What is left of one after a share is taken away. -/
theorem within_one_sub (hv : Within 1 v) : Within 1 (Arithmetic.ofNat 1 - v) := by
  obtain ⟨hfinite, hvalue⟩ := value_ofNat (n := 1) (by decide)
  rw [Nat.cast_one] at hvalue
  have hone : Within 1 (Arithmetic.ofNat 1 : Float) :=
    ⟨hfinite, hvalue.ge.trans' zero_le_one, hvalue.le⟩
  exact hone.sub hv.1 hv.2.1 (hv.2.2.trans hvalue.ge)

/-- A bonus is not below zero, and overflows only if its weight does. -/
theorem noveltyBonus_spec (hv : Within 1 v) (hdiversity : isBelowZero diversity = false)
    (h : diversity.isFinite = true ∨ (noveltyBonus v diversity).isNaN = false) :
    (noveltyBonus v diversity).isFinite = true ∧ 0 ≤ value (noveltyBonus v diversity) ∨
      Overflows (noveltyBonus v diversity) := by
  have hnumber : diversity.isNaN = false := by
    rcases h with hfinite | hnumber
    · exact isNaN_of_isFinite _ hfinite
    · exact (numbers_of_mul hnumber).2
  rcases nonneg_or_overflows hnumber (not_lt_of_isBelowZero hdiversity) with
    ⟨hfinite, hnonneg⟩ | hover
  · have hbonus := (within_one_sub hv).mul_weight hfinite hnonneg
    exact Or.inl ⟨hbonus.1, hbonus.2.1⟩
  · have hinfinite : ¬ diversity.isFinite = true := by simp [hover.isFinite]
    exact Or.inr (hover.mul (within_one_sub hv) (h.resolve_left hinfinite))

/-- The values that a vector may hold besides the number of edits: below the sentinel if they are
numbers. -/
theorem lt_sentinel_of_share (hv : Within 1 v) : v < Scalar.sentinel :=
  hv.lt_largestFloat one_lt_limit

theorem neg_lt_sentinel (hv : Within 1 v) : -v < Scalar.sentinel :=
  hv.neg_lt_largestFloat

theorem TestOutcome.Sound.fitness_lt_sentinel (ho : o.Sound) (hweight : Weighted weight)
    (h : o.Countable ∨ (o.fitness weight : Float).isNaN = false) :
    (o.fitness weight : Float) < Scalar.sentinel :=
  (ho.within_fitness hweight h).lt_largestFloat hweight.sum_lt

theorem TestOutcome.Sound.reduced_lt_sentinel (ho : o.Sound) (hweight : Weighted weight)
    (hdiversity : isBelowZero diversity = false) (hv : Within 1 v)
    (h : o.Countable ∧ diversity.isFinite = true ∨
      (o.fitness weight - noveltyBonus v diversity).isNaN = false) :
    o.fitness weight - noveltyBonus v diversity < Scalar.sentinel := by
  have hparts : (o.Countable ∨ (o.fitness weight : Float).isNaN = false) ∧
      (diversity.isFinite = true ∨ (noveltyBonus v diversity).isNaN = false) := by
    rcases h with ⟨hcountable, hfinite⟩ | hnumber
    · exact ⟨Or.inl hcountable, Or.inl hfinite⟩
    · exact ⟨Or.inr (numbers_of_sub hnumber).1, Or.inr (numbers_of_sub hnumber).2⟩
  exact (ho.within_fitness hweight hparts.1).sub_lt_largestFloat
    (noveltyBonus_spec hv hdiversity hparts.2) hweight.sum_lt

end Values

namespace Objectives

variable {v w : Objectives Float}

theorem isSentinel_sentinel (count : Nat) :
    (sentinel count : Objectives Float).isSentinel = true := by
  have hsame : (Scalar.sentinel == (Scalar.sentinel : Float)) = true :=
    (beq_iff _ _).mpr ⟨isNaN_of_isFinite _ isFinite_largestFloat,
      isNaN_of_isFinite _ isFinite_largestFloat, rfl⟩
  unfold isSentinel
  rw [List.all_eq_true]
  intro x hx
  have hx : x ∈ [Scalar.sentinel, Scalar.sentinel, Scalar.sentinel] := List.mem_of_mem_take hx
  simp only [List.mem_cons, List.not_mem_nil, or_false, or_self] at hx
  rw [hx]
  exact hsame

/-- A vector with a value that is below the sentinel if it is a number is not the sentinel
vector. -/
theorem isSentinel_eq_false {x : Float} (hmem : x ∈ v.toList)
    (hx : x.isNaN = false → x < Scalar.sentinel) : v.isSentinel = false := by
  unfold isSentinel
  rw [List.all_eq_false]
  refine ⟨x, hmem, ?_⟩
  intro hsame
  obtain ⟨hnumber, -, hrank⟩ := (beq_iff _ _).mp hsame
  exact ((lt_iff _ _).mp (hx hnumber)).2.2.ne hrank

/-- No value is above the sentinel, and some value is below. -/
def BelowSentinel (v : Objectives Float) : Prop :=
  (∀ x ∈ v.toList, x ≤ Scalar.sentinel) ∧ ∃ x ∈ v.toList, x < Scalar.sentinel

theorem BelowSentinel.isSentinel (h : v.BelowSentinel) : v.isSentinel = false := by
  obtain ⟨-, x, hx, hlt⟩ := h
  exact isSentinel_eq_false hx fun _ => hlt

/-- A vector below the sentinel dominates every sentinel vector of its size. -/
theorem BelowSentinel.dominates (hv : v.BelowSentinel) (hw : w.isSentinel = true)
    (hsize : v.size = w.size) : v.dominates w = true := by
  have hsentinel {k : Nat} {b : Float} (hb : w.toList[k]? = some b) :
      rank b = rank Scalar.sentinel ∧ b.isNaN = false := by
    have hall := List.all_eq_true.mp hw b (List.mem_of_getElem? hb)
    obtain ⟨hnumber, -, hrank⟩ := (beq_iff _ _).mp hall
    exact ⟨hrank, hnumber⟩
  rw [dominates_iff]
  constructor
  · intro k a b ha hb
    obtain ⟨hrank, hnumber⟩ := hsentinel hb
    have hle := (le_iff _ _).mp (hv.1 a (List.mem_of_getElem? ha))
    rw [← hrank] at hle
    exact (le_iff a b).mpr ⟨hle.1, hnumber, hle.2.2⟩
  · obtain ⟨-, a, ha, hlt⟩ := hv
    obtain ⟨k, hk⟩ := List.mem_iff_getElem?.mp ha
    have hlength : k < w.toList.length := by
      have hless := (List.getElem?_eq_some_iff.mp hk).1
      rwa [length_toList, hsize, ← length_toList] at hless
    obtain ⟨hrank, hnumber⟩ := hsentinel (List.getElem?_eq_getElem hlength)
    have hlt := (lt_iff _ _).mp hlt
    rw [← hrank] at hlt
    exact ⟨k, a, _, hk, List.getElem?_eq_getElem hlength,
      (lt_iff a _).mpr ⟨hlt.1, hnumber, hlt.2.2⟩⟩

end Objectives

section Vectors

variable {count edits : Nat} {o : TestOutcome} {f v : Float}

theorem isSentinel_plainObjectives (ho : o.Sound) (hf : f.isNaN = false → f < Scalar.sentinel) :
    (plainObjectives count edits o f).isSentinel = false := by
  have hshare : (o.positiveShare : Float).isNaN = false → o.positiveShare < Scalar.sentinel :=
    fun hnumber => lt_sentinel_of_share (ho.within_positiveShare (Or.inr hnumber))
  unfold plainObjectives
  split
  · exact Objectives.isSentinel_eq_false (List.mem_singleton_self f) hf
  · exact Objectives.isSentinel_eq_false (List.mem_cons_of_mem _ (List.mem_singleton_self f)) hf
  · exact Objectives.isSentinel_eq_false (List.mem_cons_of_mem _ List.mem_cons_self) hshare

theorem isSentinel_novelObjectives (hv : v.isNaN = false → Within 1 v) :
    (novelObjectives count edits v f).isSentinel = false := by
  have hneg : (-v).isNaN = false → -v < Scalar.sentinel :=
    fun hnumber => neg_lt_sentinel (hv (number_of_neg hnumber))
  unfold novelObjectives
  split
  · exact Objectives.isSentinel_eq_false (List.mem_singleton_self _) hneg
  · exact Objectives.isSentinel_eq_false (List.mem_cons_of_mem _ (List.mem_singleton_self _)) hneg
  · exact Objectives.isSentinel_eq_false (List.mem_cons_of_mem _ List.mem_cons_self) hneg

theorem belowSentinel_plainObjectives (ho : o.Sound) (hcountable : o.Countable)
    (hedits : (Float.ofNat edits).isFinite = true) (hf : f < Scalar.sentinel) :
    (plainObjectives count edits o f).BelowSentinel := by
  have hfirst : (Arithmetic.ofNat edits : Float) ≤ Scalar.sentinel := le_largestFloat hedits
  have hpositive : (o.positiveShare : Float) < Scalar.sentinel :=
    lt_sentinel_of_share (ho.within_positiveShare (Or.inl hcountable))
  have hnegative : (o.negativeShare : Float) < Scalar.sentinel :=
    lt_sentinel_of_share (ho.within_negativeShare (Or.inl hcountable))
  unfold plainObjectives
  split
  · exact ⟨List.forall_mem_singleton.mpr (le_of_lt hf), f, List.mem_singleton_self f, hf⟩
  · exact ⟨List.forall_mem_cons.mpr ⟨hfirst, List.forall_mem_singleton.mpr (le_of_lt hf)⟩, f,
      List.mem_cons_of_mem _ (List.mem_singleton_self f), hf⟩
  · exact ⟨List.forall_mem_cons.mpr ⟨hfirst, List.forall_mem_cons.mpr ⟨le_of_lt hpositive,
      List.forall_mem_singleton.mpr (le_of_lt hnegative)⟩⟩, _,
      List.mem_cons_of_mem _ List.mem_cons_self, hpositive⟩

theorem belowSentinel_novelObjectives (hv : Within 1 v)
    (hedits : (Float.ofNat edits).isFinite = true) (hf : f < Scalar.sentinel) :
    (novelObjectives count edits v f).BelowSentinel := by
  have hfirst : (Arithmetic.ofNat edits : Float) ≤ Scalar.sentinel := le_largestFloat hedits
  have hneg : -v < Scalar.sentinel := neg_lt_sentinel hv
  unfold novelObjectives
  split
  · exact ⟨List.forall_mem_singleton.mpr (le_of_lt hneg), _, List.mem_singleton_self _, hneg⟩
  · exact ⟨List.forall_mem_cons.mpr ⟨hfirst, List.forall_mem_singleton.mpr (le_of_lt hneg)⟩, _,
      List.mem_cons_of_mem _ (List.mem_singleton_self _), hneg⟩
  · exact ⟨List.forall_mem_cons.mpr ⟨hfirst, List.forall_mem_cons.mpr ⟨le_of_lt hneg,
      List.forall_mem_singleton.mpr (le_of_lt hf)⟩⟩, _,
      List.mem_cons_of_mem _ List.mem_cons_self, hneg⟩

/-- The weights of a setup let no score reach the sentinel. -/
structure Setup.Weighted (s : Setup) : Prop where
  fitness : PatchSearch.Weighted s.config.weight
  diversity : isBelowZero s.novelty.diversityWeight = false

theorem Setup.weighted_ofConfig {config : RepairConfig} (hvalid : config.validate = .ok ())
    (hlt : config.evaluation.weight + 1.0 < Scalar.sentinel) (model : ProgramModel)
    (tests : TestSuite) (sources : SourceTree) :
    (Setup.ofConfig model tests config sources).Weighted := by
  obtain ⟨hweight, hdiversity⟩ := RepairConfig.weights_of_validate hvalid
  exact ⟨weighted_of_lt hweight hlt, hdiversity⟩

variable {s : Setup} {novelty : Option Float}

/-- A score gives the sentinel vector exactly when novelty is all that counts and there is none. -/
theorem Setup.Weighted.isSentinel_modeObjectives (hs : s.Weighted) (ho : o.Sound)
    (hnovelty : ∀ v ∈ novelty, v.isNaN = false → Within 1 v) :
    (modeObjectives s edits o (o.fitness s.config.weight) novelty).isSentinel = true ↔
      s.novelty.mode = .full ∧ novelty = none := by
  have hfitness : (o.fitness s.config.weight : Float).isNaN = false →
      o.fitness s.config.weight < (Scalar.sentinel : Float) :=
    fun hnumber => ho.fitness_lt_sentinel hs.fitness (Or.inr hnumber)
  unfold modeObjectives
  split
  · next hmode => simp [hmode, isSentinel_plainObjectives ho hfitness]
  · next hmode => simp [hmode, isSentinel_plainObjectives ho hfitness]
  · next v hmode =>
    have hreduced (hnumber : (o.fitness s.config.weight -
        noveltyBonus v s.novelty.diversityWeight).isNaN = false) :
        o.fitness s.config.weight - noveltyBonus v s.novelty.diversityWeight < Scalar.sentinel := by
      have hbonus := (numbers_of_sub hnumber).2
      have hv := (numbers_of_sub (numbers_of_mul hbonus).1).2
      exact ho.reduced_lt_sentinel hs.fitness hs.diversity (hnovelty v rfl hv) (Or.inr hnumber)
    simp [hmode, isSentinel_plainObjectives ho hreduced]
  · next hmode => simp [hmode, Objectives.isSentinel_sentinel]
  · next v hmode => simp [isSentinel_novelObjectives (hnovelty v rfl)]

/-- A score of countable tests and edits with finite weights gives a vector below the sentinel, or
the sentinel vector when novelty is all that counts and there is none. -/
theorem Setup.Weighted.belowSentinel_modeObjectives (hs : s.Weighted)
    (hdiversity : s.novelty.diversityWeight.isFinite = true) (ho : o.Sound)
    (hcountable : o.Countable) (hedits : (Float.ofNat edits).isFinite = true)
    (hnovelty : ∀ v ∈ novelty, Within 1 v) (hsome : s.novelty.mode = .full → novelty ≠ none) :
    (modeObjectives s edits o (o.fitness s.config.weight) novelty).BelowSentinel := by
  have hfitness : o.fitness s.config.weight < (Scalar.sentinel : Float) :=
    ho.fitness_lt_sentinel hs.fitness (Or.inl hcountable)
  unfold modeObjectives
  split
  · exact belowSentinel_plainObjectives ho hcountable hedits hfitness
  · exact belowSentinel_plainObjectives ho hcountable hedits hfitness
  · next v hmode =>
    have hreduced := ho.reduced_lt_sentinel hs.fitness hs.diversity (hnovelty v rfl)
      (Or.inl ⟨hcountable, hdiversity⟩)
    exact belowSentinel_plainObjectives ho hcountable hedits hreduced
  · next hmode => exact absurd rfl (hsome hmode)
  · next v hmode => exact belowSentinel_novelObjectives (hnovelty v rfl) hedits hfitness

end Vectors

end PatchSearch
