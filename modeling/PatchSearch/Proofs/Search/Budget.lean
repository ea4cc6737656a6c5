import PatchSearch.Proofs.Config
import PatchSearch.Proofs.Evaluation.Adequate
import PatchSearch.Proofs.Search.Steps

/-!
Budget, end and bookkeeping of a run. Between generations a run has evaluated either every
candidate of every population so far or has been found asked to stop in between; in both cases the
population has as many members as were evaluated, up to its size, and the histories and reports
keep pace with the generations. So the budget ends the run at a whole generation, and only a
request to stop ends it before.
-/
namespace PatchSearch

variable {σ : Type}

/-- A run between two generations. -/
structure Search.Paused (s : Search Float σ) (e : Engine Float (Traced Float σ)) : Prop where
  fit : s.Fit e.population
  population : e.population.length = min s.config.populationSize e.bench.ledger.evaluations
  budget : e.bench.ledger.evaluations ≤ s.config.populationSize * s.config.maxGenerations
  generation : e.generation < s.config.maxGenerations
  whole : e.bench.ledger.evaluations = s.config.populationSize * (e.generation + 1) ∨
    s.Stopped e.bench.world
  tallied : e.Tallied (e.generation + 1) (e.generation + 2)

/-- A run that has ended for a reason: it was asked to stop, or its budget is used up. -/
def Search.EndedFor (s : Search Float σ) (reason : StopReason)
    (e : Engine Float (Traced Float σ)) : Prop :=
  reason = .cancelled ∧ s.Stopped e.bench.world ∨ reason = .maxEvaluations ∧
    e.bench.ledger.evaluations = s.config.populationSize * s.config.maxGenerations

namespace Search.Ready

variable {s : Search Float σ} {e : Engine Float (Traced Float σ)}

/-- The end of a generation, once its candidates are evaluated. -/
theorem yields_close (h : s.Ready) {pool : List (Candidate Float)} (hpool : s.Fit pool)
    (hlength : min s.config.populationSize pool.length =
      min s.config.populationSize e.bench.ledger.evaluations)
    (hbudget : e.bench.ledger.evaluations ≤ s.config.populationSize * s.config.maxGenerations)
    (hgeneration : e.generation < s.config.maxGenerations)
    (hwhole : e.bench.ledger.evaluations = s.config.populationSize * (e.generation + 1) ∨
      s.Stopped e.bench.world)
    (he : e.Tallied e.generation (e.generation + 1)) :
    Yields (do
      let e ← s.traced.survive pool e
      let e ← recordHistory e
      s.traced.tell e) fun e' => s.Paused e' ∧ e'.generation = e.generation := by
  refine Yields.bind (yields_survive hpool) ?_
  rintro e₁ ⟨population, rfl, hsize, hfit⟩
  have hsmall : population.length ≤ 65536 := by
    have := h.small
    omega
  have he₁ : Engine.Tallied { e with population } e.generation (e.generation + 1) := he
  refine Yields.bind (yields_recordHistory hfit hsmall he₁) ?_
  rintro e₂ ⟨history, rfl, he₂⟩
  refine Yields.mono h.yields_tell ?_
  rintro e₃ ⟨w, rfl, hreports, hstopped⟩
  refine ⟨⟨hfit, hsize.trans hlength, hbudget, hgeneration, hwhole.imp_right hstopped, he₂.1, ?_⟩,
    rfl⟩
  exact hreports.trans (congrArg (· + 1) he₂.2)

/-- The first population is evaluated as far as the budget and requests to stop allow. -/
theorem yields_begin (h : s.Ready) (hfresh : e.bench.ledger.evaluations = 0)
    (he : e.Tallied 0 0) :
    Yields (s.traced.begin e) fun e' => s.Paused e' ∧ e'.generation = 0 := by
  have hroom : s.config.populationSize ≤ s.config.populationSize * s.config.maxGenerations :=
    Nat.le_mul_of_pos_right _ h.lasting
  unfold begin
  refine Yields.bind h.yields_populate ?_
  rintro e₁ ⟨population, random, nextId, rfl, hsize, hfit⟩
  refine Yields.bind h.yields_tell ?_
  rintro e₂ ⟨w, rfl, hreports, -⟩
  have he₂ : Tally e.history e.bestFitness e.bench.ledger.patches.length 0 ∧
      reports w.events = 1 := ⟨he.1, by rw [hreports, he.2]⟩
  refine Yields.bind (h.yields_evaluateAll hfit he₂ (by dsimp only; omega)) ?_
  rintro ⟨evaluated, e₃⟩ ⟨hevaluated, hlength, best, bench, rfl, he₃, hcount, hbudget, hend⟩
  dsimp only at hevaluated hlength hcount hend
  rw [hfresh, Nat.zero_add] at hcount
  refine h.yields_close hevaluated (by dsimp only; rw [hcount]) hbudget h.lasting ?_ he₃
  dsimp only
  rw [Nat.zero_add, Nat.mul_one]
  obtain hall | hused | hstopped := hend
  · exact Or.inl (by omega)
  · exact Or.inl (by omega)
  · exact Or.inr hstopped

/-- A generation of a run that goes on evaluates as many children as the population has room for,
unless the run is found asked to stop in between. -/
theorem yields_generation (h : s.Ready) (he : s.Paused e)
    (hwhole : e.bench.ledger.evaluations = s.config.populationSize * (e.generation + 1))
    (hleft : e.bench.ledger.evaluations < s.config.populationSize * s.config.maxGenerations) :
    Yields (s.traced.generation e) fun e' =>
      s.Paused e' ∧ e'.generation = e.generation + 1 := by
  have hnext : e.generation + 1 < s.config.maxGenerations := by
    rw [hwhole] at hleft
    exact Nat.lt_of_mul_lt_mul_left hleft
  have hroom : s.config.populationSize * (e.generation + 1 + 1) ≤
      s.config.populationSize * s.config.maxGenerations :=
    Nat.mul_le_mul_left _ hnext
  rw [Nat.mul_succ, ← hwhole] at hroom
  have hfull : s.config.populationSize ≤ e.bench.ledger.evaluations := by
    rw [hwhole]
    exact Nat.le_mul_of_pos_right _ (Nat.succ_pos _)
  have hlarge := h.large
  have hsize : e.population.length = s.config.populationSize := by
    rw [he.population, Nat.min_eq_left hfull]
  have hne : e.population ≠ [] := by
    intro hnil
    rw [hnil, List.length_nil] at hsize
    omega
  unfold generation
  refine Yields.bind (h.yields_offspring (e := { e with generation := e.generation + 1 })
    he.fit hne _) ?_
  rintro ⟨children, e₁⟩ ⟨hmade, hchildren, random, nextId, rfl⟩
  change children.length = s.config.populationSize at hmade
  dsimp only at hchildren
  have he₁ : Tally e.history e.bestFitness e.bench.ledger.patches.length (e.generation + 1) ∧
      reports e.bench.world.events = e.generation + 1 + 1 := he.tallied
  refine Yields.bind (h.yields_evaluateAll hchildren he₁ he.budget) ?_
  rintro ⟨evaluated, e₂⟩ ⟨hevaluated, hlength, best, bench, rfl, he₂, hcount, hbudget, hend⟩
  dsimp only at hevaluated hlength hcount hend
  have hpool : s.Fit (e.population ++ evaluated) := by
    intro c hc
    rcases List.mem_append.mp hc with hc | hc
    · exact he.fit c hc
    · exact hevaluated c hc
  refine h.yields_close hpool ?_ hbudget hnext ?_ he₂
  · dsimp only
    rw [List.length_append, hsize]
    omega
  · dsimp only
    rw [Nat.mul_succ, ← hwhole]
    obtain hall | hused | hstopped := hend
    · exact Or.inl (by omega)
    · exact Or.inl (by omega)
    · exact Or.inr hstopped

/-- A run goes from pause to pause until it ends. -/
theorem yields_generations (h : s.Ready) (he : s.Paused e) (fuel : Nat)
    (hfuel : s.config.maxGenerations ≤ fuel + e.generation) :
    Yields (s.traced.generations fuel e) fun r => s.Paused r.2 ∧ s.EndedFor r.1 r.2 := by
  induction fuel generalizing e with
  | zero =>
    have := he.generation
    omega
  | succ fuel ih =>
    unfold generations
    refine Yields.bind h.yields_stopReason? ?_
    rintro ⟨reason, e₁⟩ ⟨w, rfl, hreports, hreason⟩
    dsimp only at hreason ⊢
    have hpaused (hwhole : e.bench.ledger.evaluations =
          s.config.populationSize * (e.generation + 1) ∨ s.Stopped w) :
        s.Paused { e with bench := { e.bench with world := w } } :=
      ⟨he.fit, he.population, he.budget, he.generation, hwhole, he.tallied.1,
        hreports.trans he.tallied.2⟩
    obtain ⟨rfl, hstopped⟩ | ⟨hgoing, hbudget⟩ := hreason
    · exact Yields.pure ⟨hpaused (Or.inr hstopped), Or.inl ⟨rfl, hstopped⟩⟩
    · have hwhole := he.whole.resolve_right hgoing
      have hp := hpaused (Or.inl hwhole)
      obtain ⟨rfl, hused⟩ | ⟨rfl, hleft⟩ := hbudget
      · exact Yields.pure ⟨hp, Or.inr ⟨rfl, Nat.le_antisymm he.budget hused⟩⟩
      · have hsome : ¬ e.population.isEmpty = true := by
          have hlarge := h.large
          have hfull : s.config.populationSize ≤ e.bench.ledger.evaluations := by
            rw [hwhole]
            exact Nat.le_mul_of_pos_right _ (Nat.succ_pos _)
          rw [List.isEmpty_iff, ← List.length_eq_zero_iff, he.population]
          omega
        dsimp only
        rw [if_neg hsome]
        refine Yields.bind (h.yields_generation hp hwhole hleft) fun e₂ he₂ => ?_
        refine ih he₂.1 ?_
        rw [he₂.2]
        dsimp only
        omega

/-- A whole run ends for a reason, between two generations. -/
theorem yields_run (h : s.Ready) (hfresh : e.bench.ledger.evaluations = 0) (he : e.Tallied 0 0) :
    Yields (s.traced.run e) fun r => ∃ reason started, s.Paused r.2 ∧ s.EndedFor reason r.2 ∧
      r.1 = s.traced.result reason started r.2 := by
  have hlarge := h.large
  have hroom : s.config.maxGenerations ≤ s.config.populationSize * s.config.maxGenerations :=
    Nat.le_mul_of_pos_left _ (by omega)
  unfold run
  refine Yields.bind h.yields_maxEvaluations fun budget hbudget => ?_
  refine Yields.bind (h.yields_begin hfresh he) fun e₁ he₁ => ?_
  refine Yields.bind (h.yields_generations he₁.1 (budget + 1) (by omega)) ?_
  rintro ⟨reason, e₂⟩ ⟨hpaused, hended⟩
  exact Yields.pure ⟨reason, _, hpaused, hended, rfl⟩

/-- A fresh engine runs to the end of a chronicle. -/
theorem exists_chronicle (h : s.Ready) {bench : Bench σ} (hfresh : bench.ledger.evaluations = 0)
    (seed : UInt64) : ∃ x, s.chronicle (Search.engine bench seed) = .ok x := by
  have hnumber : (Scalar.sentinel : Float).isNaN = false := by decide +kernel
  have hstart : (Search.engine bench seed : Engine Float σ).traced.Tallied 0 0 :=
    ⟨⟨rfl, rfl, rfl, rfl, rfl, hnumber, List.pairwise_singleton _ _,
      List.pairwise_singleton _ _⟩, rfl⟩
  obtain ⟨⟨r, t⟩, hrun, -⟩ := h.yields_run hfresh hstart
  have hplain : s.run (Search.engine bench seed) = .ok (r, t.erase) := by
    rw [s.run_erase, hrun]
    rfl
  obtain ⟨batches, hchronicle⟩ := Search.exists_chronicle hplain
  exact ⟨_, hchronicle⟩

end Search.Ready

section Configured

/-- The floats among the options of a search are finite. -/
structure SearchConfig.Finite (c : SearchConfig) : Prop where
  mu : c.mu.isFinite = true
  crossoverProbability : c.crossoverProbability.isFinite = true
  mutationProbability : ∀ p, c.mutationProbability = some p → p.isFinite = true

/-- The search of a configuration. -/
def Search.ofConfig (config : RepairConfig) (model : ProgramModel) (tests : TestSuite)
    (sources : SourceTree) (tools : Toolchain σ) (notify : SearchProgress Float → σ → σ) :
    Search Float σ :=
  ⟨config.search, Setup.ofConfig model tests config sources, tools, notify⟩

variable {config : RepairConfig}

theorem Search.mutationRate_isNaN (s : Search Float σ)
    (h : ∀ p, s.config.mutationProbability = some p → p.isFinite = true) :
    s.mutationRate.isNaN = false := by
  unfold mutationRate
  cases hrate : s.config.mutationProbability with
  | some p => exact FloatOrder.isNaN_of_isFinite p (h p hrate)
  | none => exact FloatOrder.isNaN_one_div _ (FloatOrder.isNaN_ofNat _)

theorem isProbability_activation {strategy : Initialization} {mu : Float} {b : GeneBounds}
    (hmu : mu.isFinite = true) (hb : b.suspiciousness.isFinite = true) :
    Random.IsProbability (strategy.activation mu b) := by
  cases strategy with
  | prior => exact isProbability_clampUnit _ (FloatOrder.isNaN_mul _ _ hb hmu)
  | random => exact isProbability_half

/-- The search of a valid configuration with finite options, on a model with finite scores, is
ready to run. -/
theorem Search.ready_ofConfig (hvalid : config.validate = .ok ()) (hfinite : config.search.Finite)
    (hsmall : config.search.populationSize ≤ 65536)
    (hbudget : config.search.populationSize * config.search.maxGenerations < wordCount)
    {model : ProgramModel} (hmodel : ∀ p ∈ model.points, p.suspiciousness.isFinite = true)
    (tests : TestSuite) (sources : SourceTree) {tools : Toolchain σ}
    {notify : SearchProgress Float → σ → σ}
    (hsteady : tools.Steady)
    (hinsists : (Search.ofConfig config model tests sources tools notify).Insists) :
    (Search.ofConfig config model tests sources tools notify).Ready := by
  obtain ⟨hlarge, hlasting, hobjectives⟩ := RepairConfig.search_of_validate hvalid
  refine ⟨hlarge, hsmall, hlasting, hbudget, hobjectives, ?_, ?_, ?_, hsteady, hinsists⟩
  · intro b hb
    obtain ⟨p, hp, rfl⟩ := List.mem_map.mp hb
    exact isProbability_activation hfinite.mu (hmodel p hp)
  · exact FloatOrder.isNaN_of_isFinite _ hfinite.crossoverProbability
  · exact Search.mutationRate_isNaN _ hfinite.mutationProbability

end Configured

/-- The books of a run that has ended: it kept to its budget, its population, its histories and
its reports agree with its evaluations and generations, and it stopped short of its budget only if
it was asked to. -/
structure Search.Balanced (s : Search Float σ) (r : SearchResult Float)
    (t : Engine Float (Traced Float σ)) : Prop where
  budget : r.stats.totalEvaluations ≤ s.config.populationSize * s.config.maxGenerations
  population : t.population.length = min s.config.populationSize r.stats.totalEvaluations
  bestFitness : r.history.bestFitness.length = r.stats.generations + 1
  frontSize : r.history.frontSize.length = r.stats.generations + 1
  meanEdits : r.history.meanEdits.length = r.stats.generations + 1
  diversity : r.history.diversity.length = r.stats.generations + 1
  patchesFound : r.history.patchesFound.length = r.stats.generations + 1
  reports : reports t.bench.world.events = r.stats.generations + 2
  falling : r.history.bestFitness.Pairwise fun a b => b ≤ a
  growing : r.history.patchesFound.Pairwise (· ≤ ·)
  whole : .looked true ∉ t.bench.world.events →
    r.stats.totalEvaluations = s.config.populationSize * s.config.maxGenerations ∧
      r.stats.generations = s.config.maxGenerations - 1 ∧ r.stats.stopReason = .maxEvaluations
  short : r.stats.totalEvaluations < s.config.populationSize * s.config.maxGenerations →
    r.stats.stopReason = .cancelled

theorem Search.Paused.balanced {s : Search Float σ} {t : Engine Float (Traced Float σ)}
    (h : s.Ready) (ht : s.Paused t) {reason : StopReason} (hended : s.EndedFor reason t)
    (started : Nat) : s.Balanced (s.traced.result reason started t) t := by
  obtain ⟨htally, hreports⟩ := ht.tallied
  refine ⟨ht.budget, ht.population, htally.bestFitness, htally.frontSize, htally.meanEdits,
    htally.diversity, htally.patchesFound, hreports, (List.pairwise_append.mp htally.falling).1,
    (List.pairwise_append.mp htally.growing).1, fun hnever => ?_, fun hshort => ?_⟩
  · have hgoing : ¬ s.Stopped t.bench.world := fun hstopped => hnever hstopped.2
    have hwhole := ht.whole.resolve_right hgoing
    obtain ⟨-, hstopped⟩ | ⟨rfl, hused⟩ := hended
    · exact absurd hstopped hgoing
    · have hlarge := h.large
      have hlast : t.generation + 1 = s.config.maxGenerations :=
        Nat.eq_of_mul_eq_mul_left (by omega) (hwhole.symm.trans hused)
      refine ⟨hused, ?_, rfl⟩
      change t.generation = _
      omega
  · obtain ⟨rfl, -⟩ | ⟨rfl, hused⟩ := hended
    · rfl
    · exact absurd hused (Nat.ne_of_lt hshort)

/-- A run of a fresh engine under a valid configuration ends, and with balanced books, whatever
the collaborators do and whenever it is asked to stop. Only a patcher that breaks down would take
the run with it. -/
theorem balanced_run (config : RepairConfig) (model : ProgramModel) (tests : TestSuite)
    (sources : SourceTree) (tools : Toolchain σ) (notify : SearchProgress Float → σ → σ)
    (bench : Bench σ) (seed : UInt64) (hvalid : config.validate = .ok ())
    (hfinite : config.search.Finite) (hsmall : config.search.populationSize ≤ 65536)
    (hbudget : config.search.populationSize * config.search.maxGenerations < wordCount)
    (hmodel : ∀ p ∈ model.points, p.suspiciousness.isFinite = true)
    (hsteady : tools.Steady)
    (hinsists : (Search.ofConfig config model tests sources tools notify).Insists)
    (hfresh : bench.ledger.evaluations = 0) :
    let s := Search.ofConfig config model tests sources tools notify
    ∃ r t, s.traced.run (Search.engine bench seed).traced = .ok (r, t) ∧
      s.run (Search.engine bench seed) = .ok (r, t.erase) ∧ s.Balanced r t := by
  intro s
  have hready : s.Ready :=
    Search.ready_ofConfig hvalid hfinite hsmall hbudget hmodel tests sources hsteady hinsists
  have hnumber : (Scalar.sentinel : Float).isNaN = false := by decide +kernel
  have hstart : (Search.engine bench seed : Engine Float σ).traced.Tallied 0 0 :=
    ⟨⟨rfl, rfl, rfl, rfl, rfl, hnumber, List.pairwise_singleton _ _,
      List.pairwise_singleton _ _⟩, rfl⟩
  obtain ⟨⟨r, t⟩, hrun, reason, started, hpaused, hended, hresult⟩ :=
    hready.yields_run hfresh hstart
  refine ⟨r, t, hrun, ?_, ?_⟩
  · rw [s.run_erase, hrun]
    rfl
  · change r = _ at hresult
    rw [hresult]
    exact hpaused.balanced hready hended started

/-- The default configuration runs over the program of one line. -/
theorem balanced_run_of_default :
    (({} : RepairConfig).validate = .ok () ∧ ({} : RepairConfig).search.Finite ∧
      ∀ p ∈ oneLineSetup.model.points, p.suspiciousness.isFinite = true) ∧
    let s := Search.ofConfig {} oneLineSetup.model oneLineSetup.tests oneLineSetup.sources
      idleTools fun _ w => w
    idleTools.Steady ∧ s.Insists ∧ ∃ r t, s.run (Search.engine (.start 200 0 (.start .empty 0) ()) 0) =
      .ok (r, t.erase) ∧ s.Balanced r t := by
  have hvalid : ({} : RepairConfig).validate = .ok () := by
    rfl
  have hfinite : ({} : RepairConfig).search.Finite :=
    ⟨by decide +kernel, by decide +kernel, by simp⟩
  have hmodel : ∀ p ∈ oneLineSetup.model.points, p.suspiciousness.isFinite = true := by
    decide +kernel
  have hsteady : idleTools.Steady := Toolchain.Steady.of_linePatcher rfl
  have hinsists : (Search.ofConfig {} oneLineSetup.model oneLineSetup.tests oneLineSetup.sources
      idleTools fun _ w => w).Insists :=
    ⟨fun _ h => h, fun _ _ h => h⟩
  obtain ⟨r, t, -, hrun, hbalanced⟩ :=
    balanced_run {} oneLineSetup.model oneLineSetup.tests oneLineSetup.sources idleTools
      (fun _ w => w) (.start 200 0 (.start .empty 0) ()) 0 hvalid hfinite (by decide) (by decide)
      hmodel hsteady hinsists rfl
  exact ⟨⟨hvalid, hfinite, hmodel⟩, hsteady, hinsists, r, t, hrun, hbalanced⟩

end PatchSearch
