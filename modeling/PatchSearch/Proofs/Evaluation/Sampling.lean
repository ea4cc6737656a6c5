import Mathlib.Data.List.Perm.Subperm
import Mathlib.Data.String.Basic
import PatchSearch.Evaluation.Evaluate
import PatchSearch.Proofs.Numbers.Exact
import PatchSearch.Proofs.Numbers.FloatBounds
import PatchSearch.Proofs.Random.Draws

/-!
Samples of the positive tests. A sample is drawn by a shuffle that is cut off and put back into
order, so it ascends as the suite does and holds some tests of the suite, each once. Its size is the
given share of the suite, rounded down, but at least one test and at most all of them. A sample that
is no smaller than the suite is the suite, so one run that asks for it is all there is to run.
-/
namespace PatchSearch

section Samples

variable (α : Type) [Scalar α]

theorem drawSample_perm (tests : List String) (size : ℕ) (g : Random) :
    (drawSample tests size g).1.Perm ((g.shuffle tests).1.take size) :=
  List.mergeSort_perm _ _

/-- A sample holds tests of the suite, each no more often than the suite. -/
theorem samplePositive_subperm (tests : List String) (percentage : Float) (g : Random) :
    (samplePositive α tests percentage g).1.Subperm tests := by
  unfold samplePositive
  split
  · have htake := (List.take_sublist (sampleSize α tests.length percentage)
      (g.shuffle tests).1).subperm
    exact ((drawSample_perm _ _ g).subperm.trans htake).trans (Random.shuffle_perm tests g).subperm
  · exact List.Subperm.refl _

theorem mem_samplePositive {tests : List String} {percentage : Float} {g : Random} {t : String}
    (h : t ∈ (samplePositive α tests percentage g).1) : t ∈ tests :=
  (samplePositive_subperm α tests percentage g).subset h

theorem mem_samplePositive_of_length_le {tests : List String} {percentage : Float} {g : Random}
    (h : tests.length ≤ (samplePositive α tests percentage g).1.length) {t : String}
    (ht : t ∈ tests) : t ∈ (samplePositive α tests percentage g).1 :=
  ((samplePositive_subperm α tests percentage g).perm_of_length_le h).mem_iff.mpr ht

theorem length_drawSample {tests : List String} {size : ℕ} (h : size ≤ tests.length) (g : Random) :
    (drawSample tests size g).1.length = size := by
  rw [(drawSample_perm tests size g).length_eq, List.length_take,
    (Random.shuffle_perm tests g).length_eq, Nat.min_eq_left h]

theorem length_samplePositive_of_lt {percentage : Float} (h : percentage < 1.0)
    (tests : List String) (g : Random) :
    (samplePositive α tests percentage g).1.length = sampleSize α tests.length percentage := by
  unfold samplePositive
  rw [if_pos h, length_drawSample (sampleSize_le α _ _)]

variable {tests : List String} (percentage : Float) (g : Random)

theorem pairwise_samplePositive (h : tests.Pairwise (· < ·)) :
    (samplePositive α tests percentage g).1.Pairwise (· < ·) := by
  obtain ⟨part, hperm, hsublist⟩ := samplePositive_subperm α tests percentage g
  have hnodup : (samplePositive α tests percentage g).1.Nodup :=
    hperm.nodup_iff.mp ((h.sublist hsublist).imp ne_of_lt)
  unfold samplePositive at hnodup ⊢
  by_cases hshare : percentage < 1.0
  · rw [if_pos hshare] at hnodup ⊢
    refine ((orders_textLE.pairwise_mergeSort _).and hnodup).imp fun {_ _} ⟨hle, hne⟩ => ?_
    exact lt_of_le_of_ne (of_decide_eq_true hle) hne
  · rw [if_neg hshare]
    exact h

/-- A sample that is no smaller than the suite is the suite, in its order. -/
theorem samplePositive_eq_iff (h : tests.Pairwise (· < ·)) :
    (samplePositive α tests percentage g).1 = tests ↔
      tests.length ≤ (samplePositive α tests percentage g).1.length := by
  constructor
  · intro heq
    rw [heq]
  · intro hlength
    refine ((samplePositive_subperm α tests percentage g).perm_of_length_le hlength).eq_of_pairwise
      (fun a b _ _ hab hba => absurd hab hba.asymm) (pairwise_samplePositive α percentage g h) h

/-- Only a suite without tests has a sample without tests. -/
theorem samplePositive_eq_nil_iff :
    (samplePositive α tests percentage g).1 = [] ↔ tests = [] := by
  rw [← List.length_eq_zero_iff, ← List.length_eq_zero_iff]
  by_cases hshare : percentage < 1.0
  · rw [length_samplePositive_of_lt α hshare]
    unfold sampleSize
    dsimp only
    omega
  · rw [samplePositive_of_not_lt α tests percentage g hshare]

end Samples

section Sizes

open FloatOrder

variable {percentage : Float}

/-- A float above zero that is not above one is a number of that kind. -/
theorem value_of_unit (hpos : 0.0 < percentage) (hone : percentage ≤ 1.0) :
    percentage.isFinite = true ∧ 0 < value percentage ∧ value percentage ≤ 1 := by
  have hnumber : percentage.isNaN = false := ((FloatOrder.le_iff _ _).mp hone).1
  have hsign : ¬ percentage < 0.0 := fun hneg =>
    FloatOrder.lt_irrefl _ (FloatOrder.lt_of_lt_of_le hneg (FloatOrder.le_of_lt hpos))
  have hbelow : percentage < 2.0 := by
    by_contra hlarge
    have htwo : (2.0 : Float) ≤ 1.0 :=
      FloatOrder.le_trans (FloatOrder.le_of_not_lt hnumber (by decide +kernel) hlarge) hone
    exact absurd htwo (by decide +kernel)
  rcases nonneg_or_overflows hnumber hsign with ⟨hfinite, -⟩ | hover
  · rw [lt_iff_value_lt isFinite_zero hfinite, value_zero] at hpos
    rw [le_iff_value_le hfinite isFinite_one, value_one] at hone
    exact ⟨hfinite, hpos, hone⟩
  · exact absurd hbelow (hover.not_lt (by decide +kernel))

/-- Without rounding the size of a sample is the share of the suite, rounded down, but at least one
and at most all. -/
theorem sampleSize_eq (α : Type) [ExactFloor α] {count : ℕ} (hcount : count < wordCount)
    (hpos : 0.0 < percentage) (hone : percentage ≤ 1.0) :
    sampleSize α count percentage = min count (max 1 ⌊count * value percentage⌋₊) := by
  obtain ⟨hfinite, hvalue, hunit⟩ := value_of_unit hpos hone
  have hfloor : ⌊count * value percentage⌋₊ ≤ count := by
    refine Nat.floor_le_of_le ?_
    exact mul_le_of_le_one_right (Nat.cast_nonneg _) hunit
  unfold sampleSize
  dsimp only
  rw [ExactScalar.ofNat_eq, ExactScalar.ofFloat_eq hfinite, ExactScalar.mul_eq,
    ExactFloor.floor_eq (hfloor.trans_lt hcount), Nat.min_comm, Nat.max_comm]

theorem length_samplePositive (α : Type) [ExactFloor α] {tests : List String}
    (hcount : tests.length < wordCount) (hpos : 0.0 < percentage) (hone : percentage ≤ 1.0)
    (g : Random) : (samplePositive α tests percentage g).1.length =
      min tests.length (max 1 ⌊tests.length * value percentage⌋₊) := by
  by_cases hshare : percentage < 1.0
  · rw [length_samplePositive_of_lt α hshare, sampleSize_eq α hcount hpos hone]
  · obtain ⟨hfinite, -, hunit⟩ := value_of_unit hpos hone
    have hvalue : value percentage = 1 := by
      rw [lt_iff_value_lt hfinite isFinite_one, value_one] at hshare
      exact le_antisymm hunit (not_lt.mp hshare)
    rw [samplePositive_of_not_lt α tests percentage g hshare, hvalue, mul_one, Nat.floor_natCast]
    change tests.length = _
    omega

end Sizes

section Runs

variable {α σ : Type} [Scalar α]

/-- Tests an artifact by one run of the whole suite, which counts if it completes. -/
def testWhole (s : Setup) (tools : Toolchain σ) (artifact : Artifact) (b : Bench σ) :
    Option (TestOutcome × Bool) × Bench σ :=
  let (outcome, world) := tools.execute artifact s.fullRequest s.waitTime b.world
  (if outcome.exceptional then none else some (outcome, false), { b with world })

/-- With the suite as the sample the first run asks for the whole suite, and no other follows. -/
theorem testArtifact_of_whole {s : Setup} {b : Bench σ} {random : Random}
    (h : samplePositive α s.tests.positive s.config.percentage b.random =
      (s.tests.positive, random)) (tools : Toolchain σ) (artifact : Artifact) :
    testArtifact α s tools artifact b = testWhole s tools artifact { b with random } := by
  obtain ⟨outcome, world, hrun⟩ : ∃ outcome world,
      tools.execute artifact ⟨s.tests.positive, s.tests.negative⟩ s.waitTime b.world =
        (outcome, world) := ⟨_, _, rfl⟩
  have hwhole : tools.execute artifact s.fullRequest s.waitTime b.world = (outcome, world) := hrun
  unfold testArtifact testWhole
  simp only [h, hrun, hwhole, lt_irrefl, decide_false, Bool.false_and, Bool.false_eq_true, if_false]
  cases outcome.exceptional <;> rfl

end Runs

/-- Sampling gives a valid part of the suite. For every suite whose positive tests ascend, every
percentage above zero and up to one and every source, a sample ascends strictly and holds positive
tests; with a percentage of one it is all of them, and nothing is drawn. It is empty only if there
are no positive tests. It counts as leaving none out exactly when it is the list of the positive
tests, and then the first run already asks for the whole suite and is the only one. Without rounding
it has as many tests as the percentage says, rounded down, but at least one and at most all, as long
as a machine word can count them. -/
theorem sample_of_suite (s : Setup) (hset : s.tests.positive.Pairwise (· < ·))
    (hpos : 0.0 < s.config.percentage) (hone : s.config.percentage ≤ 1.0) (g : Random) :
    (∀ (α : Type) [Scalar α],
      let drawn := samplePositive α s.tests.positive s.config.percentage g
      drawn.1.Pairwise (· < ·) ∧ (∀ t ∈ drawn.1, t ∈ s.tests.positive) ∧
      (s.config.percentage = 1.0 → drawn = (s.tests.positive, g)) ∧
      (drawn.1 = [] → s.tests.positive = []) ∧
      (decide (drawn.1.length < s.tests.positive.length) = false ↔
        drawn.1 = s.tests.positive) ∧
      (drawn.1 = s.tests.positive → ∀ {σ : Type} (tools : Toolchain σ) (artifact : Artifact)
        (b : Bench σ), b.random = g → testArtifact α s tools artifact b =
          testWhole s tools artifact { b with random := drawn.2 })) ∧
    ∀ (α : Type) [ExactFloor α], s.tests.positive.length < wordCount →
      (samplePositive α s.tests.positive s.config.percentage g).1.length =
        min s.tests.positive.length
          (max 1 ⌊s.tests.positive.length * FloatOrder.value s.config.percentage⌋₊) := by
  refine ⟨fun α _ => ⟨pairwise_samplePositive α _ g hset, fun t ht => mem_samplePositive α ht,
    fun hwhole => ?_, (samplePositive_eq_nil_iff α _ g).mp, ?_, fun hsame σ tools artifact b hb => ?_⟩,
    fun α _ hcount => length_samplePositive α hcount hpos hone g⟩
  · rw [hwhole]
    exact samplePositive_of_not_lt α _ _ g (FloatOrder.lt_irrefl _)
  · rw [decide_eq_false_iff_not, not_lt, samplePositive_eq_iff α _ g hset]
  · exact testArtifact_of_whole (hb.symm ▸ Prod.ext hsame rfl) tools artifact

/-- Five positive tests, of which an evaluation runs a share first. -/
def fiveTests (percentage : Float) : Setup where
  model := ⟨[]⟩
  tests := ⟨["T#a", "T#b", "T#c", "T#d", "T#e"], ["T#broken"]⟩
  config := { percentage }
  novelty := {}
  objectives := 2
  sources := SourceTree.ofFiles []

/-- Half of five tests are two of them, and all of five tests are drawn without a source. -/
theorem sample_of_suite_of_half_and_whole :
    ((fiveTests 0.5).tests.positive.Pairwise (· < ·) ∧ 0.0 < (fiveTests 0.5).config.percentage ∧
      (fiveTests 0.5).config.percentage ≤ 1.0 ∧ (fiveTests 0.5).tests.positive.length < wordCount) ∧
    (samplePositive ExtendedRational (fiveTests 0.5).tests.positive
      (fiveTests 0.5).config.percentage (Random.ofSeed 0)).1.length = 2 ∧
    samplePositive Float (fiveTests 1.0).tests.positive (fiveTests 1.0).config.percentage
      (Random.ofSeed 0) = ((fiveTests 1.0).tests.positive, Random.ofSeed 0) := by
  have hset : (fiveTests 0.5).tests.positive.Pairwise (· < ·) := by decide +kernel
  have hpos : (0.0 : Float) < (fiveTests 0.5).config.percentage := by decide +kernel
  have hone : (fiveTests 0.5).config.percentage ≤ (1.0 : Float) := by decide +kernel
  have hcount : (fiveTests 0.5).tests.positive.length < wordCount := by decide
  have hsize := (sample_of_suite (fiveTests 0.5) hset hpos hone (Random.ofSeed 0)).2
    ExtendedRational hcount
  obtain ⟨-, -, hwhole, -⟩ := (sample_of_suite (fiveTests 1.0) hset (by decide +kernel)
    (by decide +kernel) (Random.ofSeed 0)).1 Float
  refine ⟨⟨hset, hpos, hone, hcount⟩, hsize.trans ?_, hwhole rfl⟩
  have hvalue : FloatOrder.value (fiveTests 0.5).config.percentage = 1 / 2 := by decide +kernel
  rw [hvalue]
  decide +kernel

end PatchSearch
