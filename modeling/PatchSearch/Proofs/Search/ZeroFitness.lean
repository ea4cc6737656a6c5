import PatchSearch.Proofs.Evaluation.Pipeline
import PatchSearch.Proofs.Numbers.Exact
import PatchSearch.Proofs.Search.WellFormed

/-!
What a fitness of zero tells. Computed without rounding, the base fitness of an outcome is zero
exactly when none of the tests that were run failed, provided that the weight is above zero. An
outcome that is scored is that of a full run whenever the sample passed, so the fitness of an
evaluation is zero exactly when the whole suite passes, which is when the evaluation is adequate.
-/
namespace PatchSearch

open ExactScalar FloatOrder

variable {α σ : Type} [ExactScalar α]

namespace TestOutcome

/-- The base fitness as a rational, in which a share of nothing is zero. -/
def exactFitness (o : TestOutcome) (weight : ℚ) : ℚ :=
  weight * (o.failedPositive / o.ranPositive) + o.failedNegative / o.ranNegative

theorem failedShare_eq (failed ran : ℕ) : (failedShare failed ran : α) = number (failed / ran) := by
  unfold failedShare
  by_cases h : ran = 0
  · rw [if_pos h, ofNat_eq, h]
    simp
  · rw [if_neg h, proportion_eq failed h]

theorem fitness_eq (o : TestOutcome) {weight : Float} (hfinite : weight.isFinite = true) :
    (o.fitness weight : α) = number (o.exactFitness (value weight)) := by
  unfold fitness positiveShare negativeShare exactFitness
  rw [ofFloat_eq hfinite, failedShare_eq, failedShare_eq, mul_eq, add_eq]

variable {o : TestOutcome} {weight : ℚ}

theorem exactFitness_nonneg (hpos : 0 < weight) : 0 ≤ o.exactFitness weight := by
  unfold exactFitness
  positivity

theorem share_eq_zero_iff {failed ran : ℕ} (hle : failed ≤ ran) :
    (failed / ran : ℚ) = 0 ↔ failed = 0 := by
  rw [div_eq_zero_iff, Nat.cast_eq_zero, Nat.cast_eq_zero]
  omega

/-- The base fitness vanishes only when no test failed. -/
theorem Sound.exactFitness_eq_zero_iff (ho : o.Sound) (hpos : 0 < weight) :
    o.exactFitness weight = 0 ↔ o.failedPositive = 0 ∧ o.failedNegative = 0 := by
  have hpositive : 0 ≤ weight * (o.failedPositive / o.ranPositive) := by positivity
  have hnegative : (0 : ℚ) ≤ o.failedNegative / o.ranNegative := by positivity
  unfold exactFitness
  rw [add_eq_zero_iff_of_nonneg hpositive hnegative, mul_eq_zero, or_iff_right hpos.ne',
    share_eq_zero_iff ho.positive, share_eq_zero_iff ho.negative]

theorem exactFitness_ofFailed_eq_zero_iff (r : TestRequest) (failed : List String)
    (hpos : 0 < weight) :
    (ofFailed r failed).exactFitness weight = 0 ↔ (ofFailed r failed).allPassed = true := by
  rw [(sound_ofFailed r failed).exactFitness_eq_zero_iff hpos]
  simp [allPassed]

end TestOutcome

/-- What the base fitness of an evaluation tells about its end. There is one when the tests have an
outcome; it is a number that is not below zero, and it is zero when the evaluation is adequate and
only then. A sample that passes does not make it zero when the whole suite fails. -/
structure FitnessTells (evaluation : Evaluation α) : Prop where
  untested : evaluation.fitness = none ↔
    evaluation.status ∈ [.noActiveEdits, .patchFailed, .compileFailed, .exceptional]
  nonneg : ∀ f ∈ evaluation.fitness, ∃ q : ℚ, 0 ≤ q ∧ f = number q
  zero : evaluation.fitness = some (Arithmetic.ofNat 0) ↔ evaluation.status = .evaluated true
  rejected : evaluation.status = .confirmationRejected →
    ∃ q : ℚ, 0 < q ∧ evaluation.fitness = some (number q)

/-- An evaluation that ends before its tests have an outcome has no fitness. -/
theorem FitnessTells.unscored (s : Setup) (id edits : ℕ) {status : EvaluationStatus}
    (h : status ∈ [.noActiveEdits, .patchFailed, .compileFailed, .exceptional]) :
    FitnessTells (unscored s id edits status : Evaluation α) := by
  refine ⟨iff_of_true rfl h, nofun, iff_of_false nofun ?_, ?_⟩
  · rintro rfl
    simp at h
  · rintro rfl
    simp at h

section Ends

variable {s : Setup} {tools : Toolchain σ} {id : ℕ} {edits : List AppliedEdit} {b : Bench σ}

/-- However the evaluation of selected edits goes, its fitness tells how it ended. -/
theorem Stages.fitnessTells {b' : Bench (Traced α σ)} {evaluation : Evaluation α}
    (hfinite : s.config.weight.isFinite = true) (hpos : 0 < value s.config.weight)
    (hsuite : s.tests.ordered ≠ []) (hb : b.archive.Fits s.tests.ordered.length)
    (h : Stages s tools id edits b (.ok evaluation) b') : FitnessTells evaluation := by
  cases h with
  | unpatched _ _ ends => exact .unscored s id _ (by rcases ends with rfl | rfl <;> simp)
  | unbuilt _ ends => exact .unscored s id _ (by rcases ends with rfl | rfl <;> simp)
  | untested => exact .unscored s id _ (by simp)
  | @scored _ _ _ outcome c _ _ _ _ tested archive _ concluded =>
    obtain ⟨o, rejected⟩ := outcome
    obtain ⟨⟨r, failed, rfl⟩, hrejected⟩ := tested.outcome
    obtain ⟨sc, c', hscore, -, hfitness, hstatus, -⟩ := conclude_spec concluded
    obtain ⟨hnumber, -⟩ := score_spec hscore
    have havailable : ¬ (s.novelty.mode = .full ∧ sc.novelty.isNone) := by
      rintro ⟨hfull, hnone⟩
      obtain ⟨hnovelty, -⟩ := score_facts _ _ (archive ▸ hb) hscore
      exact hsuite ((hnovelty (by simp [hfull])).mp hnone)
    have hzero := TestOutcome.exactFitness_ofFailed_eq_zero_iff r failed hpos
    have hnonneg := TestOutcome.exactFitness_nonneg (o := .ofFailed r failed) hpos
    rw [hnumber, TestOutcome.fitness_eq _ hfinite] at hfitness
    generalize TestOutcome.exactFitness _ _ = q at hfitness hzero hnonneg
    refine ⟨?_, ?_, ?_, ?_⟩
    · rw [hfitness, hstatus]
      exact iff_of_false nofun (scoredStatus_notMem _ _ _)
    · intro f hf
      rw [hfitness, Option.mem_some] at hf
      exact ⟨q, hnonneg, hf.symm⟩
    · rw [hfitness, hstatus, Option.some.injEq, ofNat_eq, number_inj, Nat.cast_zero, hzero,
        scoredStatus_eq_evaluated_true_iff]
      constructor
      · intro hpassed
        refine ⟨havailable, ?_, hpassed⟩
        by_contra hne
        rw [hrejected (by simpa using hne)] at hpassed
        cases hpassed
      · exact fun h => h.2.2
    · intro heq
      have hfailed : (TestOutcome.ofFailed r failed).allPassed = false := by
        apply hrejected
        by_contra hne
        rw [hstatus, scoredStatus, if_neg havailable, if_neg hne] at heq
        cases heq
      refine ⟨q, lt_of_le_of_ne hnonneg ?_, hfitness⟩
      intro hq
      rw [hzero.mp hq.symm] at hfailed
      cases hfailed

/-- The fitness of an evaluation from a bench that evaluations come to tells how it ended. -/
theorem fitnessTells_of_evaluate {c c' : Chromosome} {b' : Bench σ} {evaluation : Evaluation α}
    (hfinite : s.config.weight.isFinite = true) (hpos : 0 < value s.config.weight)
    (hsuite : s.tests.positive ++ s.tests.negative ≠ []) (hb : b.Reachable α s)
    (h : evaluate s tools c b = (.ok (evaluation, c'), b')) : FitnessTells evaluation := by
  obtain ⟨edits, t, -, -, hstages⟩ := stages_of_evaluate h
  refine hstages.fitnessTells hfinite hpos (mt (ordered_eq_nil_iff _).mp hsuite) ?_
  exact hb.archive_fits

end Ends

end PatchSearch

/-!
Zero fitness over a run. The best fitness of a run only changes with evaluations that have a
fitness. It falls to zero with the first adequate evaluation, and with it the first patch is
stored; no other evaluation makes it zero, and none that is not adequate stores a patch. A patch
that is known already does not matter, as it was stored before.
-/
namespace PatchSearch

open ExactScalar FloatOrder

variable {α σ : Type} [ExactScalar α]

/-- The best fitness is a number that is not below zero, and it is zero once a patch is stored and
not before. -/
def BestTells (best : α) (b : Bench σ) : Prop :=
  ∃ q : ℚ, best = number q ∧ 0 ≤ q ∧ (q = 0 ↔ 1 ≤ b.ledger.patches.length)

theorem BestTells.eq_zero_iff {best : α} {b : Bench σ} (h : BestTells best b) :
    best = Arithmetic.ofNat 0 ↔ 1 ≤ b.ledger.patches.length := by
  obtain ⟨q, rfl, -, hzero⟩ := h
  rw [ofNat_eq, number_inj, Nat.cast_zero, hzero]

/-- The best fitness before a run stands for that of no candidate. -/
theorem bestTells_sentinel {b : Bench σ} (hempty : b.ledger.patches.length = 0) :
    BestTells (Scalar.sentinel : α) b := by
  have hlimit : (0 : ℚ) < limit := lt_trans zero_lt_one one_lt_limit
  refine ⟨limit, sentinel_eq, hlimit.le, iff_of_false hlimit.ne' ?_⟩
  omega

/-- An evaluation whose fitness tells how it ended keeps the best fitness telling. -/
theorem BestTells.evaluate {best : α} {s : Setup} {tools : Toolchain σ} {b b' : Bench σ}
    {c c' : Chromosome} {evaluation : Evaluation α} (h : BestTells best b)
    (htells : FitnessTells evaluation)
    (hrun : evaluate s tools c b = (.ok (evaluation, c'), b')) :
    BestTells ((evaluation.fitness.map (Scalar.lesser best)).getD best) b' := by
  obtain ⟨q, rfl, hnonneg, hzero⟩ := h
  obtain ⟨edits, t, -, rfl, hstages⟩ := stages_of_evaluate hrun
  obtain ⟨haccepted, hsame⟩ := hstages.ledger
  by_cases hadequate : evaluation.status = .evaluated true
  · obtain ⟨-, now, world, hledger⟩ := haccepted hadequate
    have hstored : 1 ≤ t.ledger.patches.length := by
      rw [hledger]
      exact Ledger.accept_stores _ _ _ _ _
    rw [htells.zero.mpr hadequate, ofNat_eq, Nat.cast_zero]
    change BestTells (Scalar.lesser (number q) (number 0)) t.erase
    rw [lesser_eq, min_eq_right hnonneg]
    exact ⟨0, rfl, le_rfl, iff_of_true rfl hstored⟩
  · have hledger : t.erase.ledger = b.ledger.begin.2 := hsame hadequate
    have hstored : q = 0 ↔ 1 ≤ t.erase.ledger.patches.length := by
      rw [hledger]
      exact hzero
    cases hfitness : evaluation.fitness with
    | none => exact ⟨q, rfl, hnonneg, hstored⟩
    | some f =>
      obtain ⟨p, hp, rfl⟩ := htells.nonneg f hfitness
      have hpos : 0 < p := by
        refine lt_of_le_of_ne hp fun hp => hadequate (htells.zero.mp ?_)
        rw [hfitness, ← hp, ofNat_eq, Nat.cast_zero]
      change BestTells (Scalar.lesser (number q) (number p)) t.erase
      rw [lesser_eq]
      refine ⟨min q p, rfl, le_min hnonneg hp, ?_⟩
      rw [← hstored]
      constructor
      · intro hmin
        rcases min_choice q p with hq | hq
        · rwa [hq] at hmin
        · exact absurd (hq.symm.trans hmin) hpos.ne'
      · rintro rfl
        exact min_eq_left hp

section Runs

variable {s : Search α σ} {e₀ : Engine α σ}

/-- All along a run that starts without patches the best fitness tells whether there are some. -/
theorem Search.Reaches.bestTells {c : Course α σ} (h : s.Reaches e₀ c)
    (hfinite : s.setup.config.weight.isFinite = true) (hpos : 0 < value s.setup.config.weight)
    (hsuite : s.setup.tests.positive ++ s.setup.tests.negative ≠ [])
    (hb : e₀.bench.Reachable α s.setup) (hempty : e₀.bench.ledger.patches.length = 0)
    (hfresh : e₀.bestFitness = Scalar.sentinel) :
    BestTells c.engine.bestFitness c.engine.bench := by
  have hstart : BestTells e₀.bestFitness e₀.bench := by
    rw [hfresh]
    exact bestTells_sentinel hempty
  have hkept : c.engine.bench.Reachable α s.setup ∧
      BestTells c.engine.bestFitness c.engine.bench := by
    refine h.kept (I := fun best b => b.Reachable α s.setup ∧ BestTells best b)
      (P := fun _ => True) ⟨hb, hstart⟩ (fun world hi => ⟨hi.1.between _ world, hi.2⟩)
      (fun _ _ _ _ => trivial) fun {best b b' d d' evaluation} hi _ hrun => ⟨?_, ?_⟩
    · have hnext := hi.1.evaluate s.tools d
      rwa [hrun] at hnext
    · exact hi.2.evaluate (fitnessTells_of_evaluate hfinite hpos hsuite hi.1 hrun) hrun
  exact hkept.2

end Runs

/-- A fitness of zero tells that a candidate is adequate, when scores are computed without rounding
and with a weight above zero, for a suite that is not empty. The evaluation of every chromosome
with the shape of the model ends, unless the patcher breaks down, and its fitness tells how. Over a
run that starts without patches the best fitness is zero exactly when a patch is stored, at every
moment and in the end. -/
theorem zero_fitness (config : RepairConfig) (model : ProgramModel) (tests : TestSuite)
    (sources : SourceTree) (tools : Toolchain σ) (notify : SearchProgress α → σ → σ)
    (hfinite : config.evaluation.weight.isFinite = true) (hpos : 0.0 < config.evaluation.weight)
    (hsuite : tests.positive ++ tests.negative ≠ []) :
    let s : Search α σ := ⟨config.search, .ofConfig model tests config sources, tools, notify⟩
    (∀ b c, b.Reachable α s.setup → c.Shaped model.points.length →
      ∃ (answer : Except Fault (Evaluation α)) (c' : Chromosome) (b' : Bench (Traced α σ)),
        evaluate s.setup tools.traced c b.traced = (answer.map (·, c'), b') ∧
        evaluate s.setup tools c b = (answer.map (·, c'), b'.erase) ∧
        ((∃ evaluation, answer = .ok evaluation) ↔ ¬ PatcherBroke b'.world.events) ∧
        ∀ evaluation, answer = .ok evaluation → FitnessTells evaluation) ∧
    ∀ bench seed, bench.Reachable α s.setup → bench.ledger.patches.length = 0 →
      (∀ c, s.Reaches (Search.engine bench seed) c →
        (c.engine.bestFitness = Arithmetic.ofNat 0 ↔
          1 ≤ c.engine.bench.ledger.patches.length)) ∧
      ∀ r t, s.run (Search.engine bench seed) = .ok (r, t) →
        (r.stats.bestFitness = Arithmetic.ofNat 0 ↔ 1 ≤ t.bench.ledger.patches.length) := by
  intro s
  have hweight : 0 < value config.evaluation.weight := by
    rw [← value_zero]
    exact (lt_iff_value_lt isFinite_zero hfinite).mp hpos
  refine ⟨fun b c hb hc => ?_, fun bench seed hb hempty => ?_⟩
  · obtain ⟨⟨edits, c'⟩, hselected, -⟩ := Chromosome.yields_selectEdits hc
      s.setup.config.filterRules s.setup.config.maxEdits
    obtain ⟨answer, b', htraced, herased, hstages⟩ :=
      evaluate_stages (α := α) tools b hselected
    refine ⟨answer, c', b', htraced, herased, hstages.ended, ?_⟩
    rintro evaluation rfl
    exact fitnessTells_of_evaluate (s := s.setup) hfinite hweight hsuite hb herased
  · have hreached (c : Course α σ) (hc : s.Reaches (Search.engine bench seed) c) :
        BestTells c.engine.bestFitness c.engine.bench :=
      hc.bestTells hfinite hweight hsuite hb hempty rfl
    refine ⟨fun c hc => (hreached c hc).eq_zero_iff, fun r t hrun => ?_⟩
    obtain ⟨c, hc, -, rfl, reason, started, rfl⟩ := Search.reaches_run hrun
    exact (hreached c hc).eq_zero_iff

/-- The search of two candidates over the program of one line, computed without rounding. -/
def exactSearch : Search ExtendedRational Bool :=
  ⟨pairConfig.search,
    .ofConfig oneLineSetup.model oneLineSetup.tests pairConfig oneLineSetup.sources, hastyTools,
    fun _ w => w⟩

/-- Without rounding the deletion of the only line has fitness zero, and a run that finds it ends
with a best fitness of zero and with its patch. -/
theorem zero_fitness_of_deleted_line :
    (pairConfig.validate = .ok () ∧ pairConfig.evaluation.weight.isFinite = true ∧
      0.0 < pairConfig.evaluation.weight ∧
      oneLineSetup.tests.positive ++ oneLineSetup.tests.negative ≠ []) ∧
    (∃ (evaluation : Evaluation ExtendedRational) (c : Chromosome) (b : Bench Bool),
      evaluate exactSearch.setup hastyTools ⟨[true], [0], [0]⟩
        (.start 1 0 (.start .empty 0) false) = (.ok (evaluation, c), b) ∧
      evaluation.status = .evaluated true ∧ evaluation.fitness = some (.number 0)) ∧
    ∃ r t, exactSearch.run (Search.engine (.start 1 0 (.start .empty 0) false) 2) = .ok (r, t) ∧
      r.stats.bestFitness = .number 0 ∧ 1 ≤ t.bench.ledger.patches.length := by
  let start : Bench Bool := .start 1 0 (.start .empty 0) false
  have hpos : 0.0 < pairConfig.evaluation.weight := by decide +kernel
  have hsuite : oneLineSetup.tests.positive ++ oneLineSetup.tests.negative ≠ [] := by decide
  have hreachable : start.Reachable ExtendedRational exactSearch.setup :=
    .start 1 0 (.start .empty 0) false
  obtain ⟨hevaluations, hruns⟩ := zero_fitness (α := ExtendedRational) pairConfig
    oneLineSetup.model oneLineSetup.tests oneLineSetup.sources hastyTools (fun _ w => w) rfl hpos
    hsuite
  refine ⟨⟨pairConfig_validate, rfl, hpos, hsuite⟩, ?_, ?_⟩
  · obtain ⟨answer, c, b, -, hrun, -, htells⟩ :=
      hevaluations start ⟨[true], [0], [0]⟩ hreachable ⟨rfl, rfl, rfl⟩
    have hstatus : (evaluate (α := ExtendedRational) exactSearch.setup hastyTools
        ⟨[true], [0], [0]⟩ start).1.toOption.map (·.1.status) = some (.evaluated true) := by
      decide +kernel
    rw [show evaluate exactSearch.setup hastyTools ⟨[true], [0], [0]⟩ start = _ from hrun]
      at hstatus
    cases answer with
    | error fault => cases hstatus
    | ok evaluation =>
      have hadequate : evaluation.status = .evaluated true := Option.some.inj hstatus
      exact ⟨evaluation, c, b.erase, hrun, hadequate,
        (htells evaluation rfl).zero.mpr hadequate⟩
  · have hfound : (exactSearch.run (Search.engine start 2)).toOption.map
        (·.2.bench.ledger.patches.length) = some 1 := by
      decide +kernel
    obtain ⟨⟨r, t⟩, hrun, hone⟩ := toOption_map_eq_some_iff.mp hfound
    have hstored : 1 ≤ t.bench.ledger.patches.length := hone.ge
    exact ⟨r, t, hrun, ((hruns start 2 hreachable rfl).2 r t hrun).mpr hstored, hstored⟩

end PatchSearch
