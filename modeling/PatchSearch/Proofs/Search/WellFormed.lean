import PatchSearch.Proofs.Evaluation.Selected
import PatchSearch.Proofs.Genome.Bounds
import PatchSearch.Proofs.Search.Budget
import PatchSearch.Proofs.Search.Course

/-!
Well-formed candidates. Every chromosome that a run holds or has evaluated lies within the bounds
of the model, at any moment of the run and whatever the evaluations come to. So crossing, mutating,
comparing and decoding it reads no gene that is not there, divides by no empty list, and no number
of it is changed by a remainder.
-/
namespace PatchSearch

variable {α σ : Type}

/-- What a search does with chromosomes is safe for two of them: nothing comes to a fault, all
that comes out lies within bounds, and the numbers of the first are taken as they are. -/
structure Search.SafeFor (s : Search α σ) (a b : Chromosome) : Prop where
  crossover : ∀ g, Yields (a.crossover b g) fun r =>
    r.1.1.InBounds s.bounds ∧ r.1.2.InBounds s.bounds
  mutate : ∀ g, Yields (a.mutate s.bounds s.mutationRate g) fun r => r.1.InBounds s.bounds
  distance : Yields (a.distance b : Except Fault Float) fun _ => True
  selectEdits : Yields (selectEdits s.setup.model.points s.setup.config.filterRules
    s.setup.config.maxEdits a) fun r => r.2.InBounds s.bounds
  takenAsIs : ∀ i p, s.setup.model.points[i]? = some p → a.TakenAsIs i p

/-- The bounds hold of new candidates and of evaluated ones. -/
theorem Search.carries_inBounds [Scalar α] (s : Search α σ)
    (h : ∀ b ∈ s.bounds, 0 < b.operators) :
    s.Carries (fun d => d.chromosome.InBounds s.bounds)
      (fun d => d.chromosome.InBounds s.bounds) where
  drawn hdrawn := Chromosome.inBounds_random h hdrawn
  bred {e e' a b parents} hpopulation hmate f := by
    obtain ⟨p, hp, q, hq, crossed, g, g₁, g₂, hcrossed, ha, hb, -, -⟩ := mate_spec hmate
    have hcrossed : crossed.1.InBounds s.bounds ∧ crossed.2.InBounds s.bounds := by
      obtain rfl | ⟨g₀, hcrossed⟩ := hcrossed
      · exact ⟨hpopulation p hp, hpopulation q hq⟩
      · exact Chromosome.inBounds_crossover (hpopulation p hp) (hpopulation q hq) hcrossed
    exact ⟨Chromosome.inBounds_mutate hcrossed.1 ha, Chromosome.inBounds_mutate hcrossed.2 hb⟩
  evaluated {d d' e e'} hd hevaluated := by
    obtain ⟨evaluation, chromosome, bench, hevaluate, rfl, -⟩ :=
      evaluateCandidate_engine hevaluated
    obtain ⟨edits, hselected, -⟩ := evaluate_eq_ok (congrArg Prod.fst hevaluate)
    exact Chromosome.inBounds_selectEdits hd hselected
  ranked hd heq := by
    rw [Candidate.eq_of_unranked_eq heq]
    exact hd

/-- Within bounds everything is safe. -/
theorem Search.safeFor {s : Search α σ} {catalog : List Point} {maxPoints : Nat} {g g' : Random}
    (hmodel : ProgramModel.ofCatalog catalog maxPoints g = .ok (s.setup.model, g'))
    (hrate : s.mutationRate.isNaN = false) {a b : Chromosome} (ha : a.InBounds s.bounds)
    (hb : b.InBounds s.bounds) : s.SafeFor a b where
  crossover g := (Chromosome.yields_crossover ha.shaped hb.shaped g).and_of_ok
    (fun _ hr => Chromosome.inBounds_crossover ha hb hr) |>.mono fun _ h => h.2
  mutate g := (Chromosome.yields_mutate ha.shaped s.mutationRate hrate g).and_of_ok
    (fun _ hr => Chromosome.inBounds_mutate ha hr) |>.mono fun _ h => h.2
  distance := Chromosome.yields_distance ha.shaped hb.shaped
  selectEdits := (Chromosome.yields_selectEdits ha.shaped _ _).and_of_ok
    (fun _ hr => Chromosome.inBounds_selectEdits ha hr) |>.mono fun _ h => h.2
  takenAsIs _ _ hp := ha.takenAsIs hmodel hp

theorem isNaN_of_inUnitInterval {x : Float} (h : inUnitInterval x = true) : x.isNaN = false := by
  unfold inUnitInterval at h
  rw [Bool.and_eq_true, decide_eq_true_eq, FloatOrder.le_iff] at h
  exact h.1.2.1

/-- The rate of mutation of a valid configuration is a number. -/
theorem Search.mutationRate_of_validate {s : Search α σ} {config : RepairConfig}
    (h : config.validate = .ok ()) (hs : s.config = config.search) :
    s.mutationRate.isNaN = false := by
  unfold mutationRate
  rw [hs]
  cases hp : config.search.mutationProbability with
  | none => exact FloatOrder.isNaN_one_div _ (FloatOrder.isNaN_ofNat _)
  | some p => exact isNaN_of_inUnitInterval ((RepairConfig.rates_of_validate h).2 p hp)

/-- All chromosomes that a run of a valid configuration over the model of a catalog ever holds lie
within the bounds of the model, also those of the population it ends with, and everything that is
done with chromosomes within bounds is safe. -/
theorem inBounds_of_reaches (config : RepairConfig) (catalog : List Point) (maxPoints : Nat)
    (g g' : Random) (model : ProgramModel) (tests : TestSuite) (sources : SourceTree)
    (tools : Toolchain σ) (notify : SearchProgress Float → σ → σ)
    (hmodel : ProgramModel.ofCatalog catalog maxPoints g = .ok (model, g'))
    (hvalid : config.validate = .ok ()) (e₀ : Engine Float σ) :
    let s := Search.ofConfig config model tests sources tools notify
    (∀ c, s.Reaches e₀ c → ∀ d ∈ c.held, d.chromosome.InBounds s.bounds) ∧
      (∀ r t, s.run e₀ = .ok (r, t) → ∀ d ∈ t.population, d.chromosome.InBounds s.bounds) ∧
      ∀ a b, a.InBounds s.bounds → b.InBounds s.bounds → s.SafeFor a b := by
  intro s
  have hheld (c : Course Float σ) (hc : s.Reaches e₀ c) :
      ∀ d ∈ c.held, d.chromosome.InBounds s.bounds := by
    have hcarried := hc.carried (s.carries_inBounds (ProgramModel.operators_pos hmodel))
    exact hcarried.held (fun _ h => h) fun _ h => h
  refine ⟨hheld, ?_, ?_⟩
  · intro r t hrun d hd
    obtain ⟨c, hc, -, rfl, -⟩ := Search.reaches_run hrun
    refine hheld c hc d ?_
    simp [Course.held, hd]
  · intro a b ha hb
    exact Search.safeFor hmodel (Search.mutationRate_of_validate hvalid rfl) ha hb

/-- A catalog of two lines. The first has an ingredient that repeats it, the second allows only an
operator for which it has no ingredient. -/
def twoLineCatalog : List Point :=
  [⟨⟨"A.java", 1⟩, "x++;", 1.0, [⟨0, "x++;"⟩, ⟨1, "x--;"⟩], [.replace]⟩,
    ⟨⟨"A.java", 2⟩, "y++;", 1.0, [], [.insertBefore]⟩]

/-- The model of the two lines. -/
def twoLineModel : ProgramModel :=
  ⟨twoLineCatalog.map Point.normalize⟩

/-- Two candidates, which start at random. -/
def pairConfig : RepairConfig :=
  { search := { populationSize := 2, initialization := .random } }

/-- The search of two candidates over the two lines. -/
def twoLineSearch : Search Float Unit :=
  Search.ofConfig pairConfig twoLineModel ⟨["T#kept"], ["T#broken"]⟩
    (SourceTree.ofFiles [("A.java", "x++;\ny++;")]) idleTools fun _ w => w

/-- Tools that find no failure in what they test, and ask a run to stop once something was built. -/
def hastyTools : Toolchain Bool where
  patch := linePatcher
  compile id _ _ := (Work.done (.ok ⟨id, "out"⟩), true)
  runTests _ _ _ w := (Work.done (.ok []), w)
  files := idleTools.files.within (fun _ => ()) fun _ w => w
  clock _ := 0
  cancelled w := (w, w)

/-- The engine that the search of the two lines starts with. -/
def twoLineEngine : Engine Float Unit :=
  Search.engine (.start 200 0 (.start .empty 0) ()) 0

theorem twoLineModel_ofCatalog :
    ProgramModel.ofCatalog twoLineCatalog 40 (Random.ofSeed 0) =
      .ok (twoLineModel, Random.ofSeed 0) := by
  rfl

theorem pairConfig_validate : pairConfig.validate = .ok () := by
  rfl

/-- The search of a valid configuration over the two lines comes to its end when its budget is used
up. -/
theorem twoLines_run {config : RepairConfig} (hvalid : config.validate = .ok ())
    (hfinite : config.search.Finite) (hsmall : config.search.populationSize ≤ 65536)
    (hbudget : config.search.populationSize * config.search.maxGenerations < wordCount) :
    let s := Search.ofConfig config twoLineModel ⟨["T#kept"], ["T#broken"]⟩
      (SourceTree.ofFiles [("A.java", "x++;\ny++;")]) idleTools fun _ w => w
    ∃ r t, s.run twoLineEngine = .ok (r, t) ∧
      r.stats.totalEvaluations = config.search.populationSize * config.search.maxGenerations := by
  intro s
  have hmodel : ∀ p ∈ twoLineModel.points, p.suspiciousness.isFinite = true := by
    decide +kernel
  have hready : s.Ready :=
    Search.ready_ofConfig hvalid hfinite hsmall hbudget hmodel _ _
      (Toolchain.Steady.of_linePatcher rfl) ⟨fun _ h => h, fun _ _ h => h⟩
  have hnumber : (Scalar.sentinel : Float).isNaN = false := by decide +kernel
  have hstart : twoLineEngine.traced.Tallied 0 0 :=
    ⟨⟨rfl, rfl, rfl, rfl, rfl, hnumber, List.pairwise_singleton _ _,
      List.pairwise_singleton _ _⟩, rfl⟩
  obtain ⟨⟨r, t⟩, hrun, reason, started, -, hended, hresult⟩ := hready.yields_run rfl hstart
  refine ⟨r, t.erase, ?_, ?_⟩
  · rw [Search.run_erase, hrun]
    rfl
  · obtain ⟨-, hstopped, -⟩ | ⟨-, hused⟩ := hended
    · cases hstopped
    · change r = _ at hresult
      rw [hresult]
      exact hused

/-- The search of the two lines comes to its end. -/
theorem twoLineSearch_run : ∃ r t, twoLineSearch.run twoLineEngine = .ok (r, t) := by
  have hfinite : pairConfig.search.Finite :=
    ⟨by decide +kernel, by decide +kernel, by simp [pairConfig]⟩
  obtain ⟨r, t, hrun, -⟩ := twoLines_run pairConfig_validate hfinite (by decide) (by decide)
  exact ⟨r, t, hrun⟩

/-- All candidates of a run over the two lines lie within bounds. -/
theorem inBounds_of_twoLines :
    ProgramModel.ofCatalog twoLineCatalog 40 (Random.ofSeed 0) =
        .ok (twoLineModel, Random.ofSeed 0) ∧
      pairConfig.validate = .ok () ∧
      ∃ r t, twoLineSearch.run twoLineEngine = .ok (r, t) ∧
        ∀ d ∈ t.population, d.chromosome.InBounds twoLineSearch.bounds := by
  obtain ⟨r, t, hrun⟩ := twoLineSearch_run
  have hbounds := inBounds_of_reaches pairConfig twoLineCatalog 40 (Random.ofSeed 0)
    (Random.ofSeed 0) twoLineModel ⟨["T#kept"], ["T#broken"]⟩
    (SourceTree.ofFiles [("A.java", "x++;\ny++;")]) idleTools (fun _ w => w)
    twoLineModel_ofCatalog pairConfig_validate twoLineEngine
  exact ⟨twoLineModel_ofCatalog, pairConfig_validate, r, t, hrun, hbounds.2.1 r t hrun⟩

end PatchSearch
