import PatchSearch.Proofs.Evaluation.Pipeline
import PatchSearch.Proofs.Search.Elitism

/-!
Scored candidates come first. A candidate that could not be evaluated has the sentinel vector, and
the vector of every scored one dominates it. So in a pool with a scored candidate no member of the
first front is unscored, and as a selection keeps a member of the first front, there is a scored
candidate in the first front of every later population.
-/
namespace PatchSearch

open FloatOrder

variable {σ : Type}

section Vectors

/-- The weights of a setup are finite and its points and tests can be counted by machine words. -/
structure Setup.Scorable (s : Setup) : Prop where
  weighted : s.Weighted
  diversity : s.novelty.diversityWeight.isFinite = true
  points : s.model.points.length < wordCount
  tests : s.tests.total < wordCount

variable {s : Setup} {tools : Toolchain σ} {id : ℕ} {edits : List AppliedEdit} {b : Bench σ}

/-- The tests of a scored outcome are among those of the suite. -/
theorem Tested.ran_le {artifact : Artifact} {before events : List (Event Float)}
    {o : TestOutcome} {rejected : Bool}
    (h : Tested s artifact before (some (o, rejected)) events) :
    o.ranPositive ≤ s.tests.positive.length ∧ o.ranNegative = s.tests.negative.length := by
  cases h with
  | once part => exact ⟨part.length_le, rfl⟩
  | twice _ _ _ _ counts =>
    obtain ⟨hnone, -⟩ | ⟨failed, -, hsome⟩ := counts
    · cases hnone
    · obtain ⟨rfl, -⟩ := Prod.mk.inj (Option.some.inj hsome)
      exact ⟨le_rfl, rfl⟩

theorem Setup.Scorable.countable (hs : s.Scorable) {o : TestOutcome}
    (hpositive : o.ranPositive ≤ s.tests.positive.length)
    (hnegative : o.ranNegative = s.tests.negative.length) : o.Countable := by
  have htotal := hs.tests
  unfold TestSuite.total at htotal
  exact ⟨isFinite_ofNat (by omega), isFinite_ofNat (by omega)⟩

/-- An evaluation ends with the sentinel vector or with a vector below it. -/
theorem Stages.sentinel_or_below {b' : Bench (Traced Float σ)} {evaluation : Evaluation Float}
    (hs : s.Scorable) (hedits : edits.length ≤ s.model.points.length)
    (hb : b.archive.Describes s.tests.ordered)
    (h : Stages s tools id edits b (.ok evaluation) b') :
    evaluation.objectives.isSentinel = true ∨ evaluation.objectives.BelowSentinel := by
  cases h with
  | unpatched => exact Or.inl (Objectives.isSentinel_sentinel _)
  | unbuilt => exact Or.inl (Objectives.isSentinel_sentinel _)
  | untested => exact Or.inl (Objectives.isSentinel_sentinel _)
  | @scored _ _ _ outcome c _ _ _ _ tested archive _ concluded =>
    obtain ⟨o, rejected⟩ := outcome
    obtain ⟨hpositive, hnegative⟩ := tested.ran_le
    obtain ⟨⟨r, failed, rfl⟩, -⟩ := tested.outcome
    obtain ⟨sc, c', hscore, hobjectives, -, -, -⟩ := conclude_spec concluded
    obtain ⟨hfitness, hvector, hnovelty, -⟩ := score_spec hscore
    rw [archive] at hnovelty
    have hordered : (Float.ofNat s.tests.ordered.length).isFinite = true :=
      isFinite_ofNat (s.tests.length_ordered_le.trans_lt hs.tests)
    have hwithin : ∀ v ∈ sc.novelty, Within 1 v := fun v hv =>
      hb.within_novelty ⟨_, rfl⟩ (hnovelty v hv) (Or.inl hordered)
    rw [hobjectives, hvector, hfitness]
    by_cases hnone : s.novelty.mode = .full ∧ sc.novelty = none
    · refine Or.inl ((hs.weighted.isSentinel_modeObjectives (TestOutcome.sound_ofFailed r failed)
        fun v hv _ => hwithin v hv).mpr hnone)
    · refine Or.inr (hs.weighted.belowSentinel_modeObjectives hs.diversity
        (TestOutcome.sound_ofFailed r failed) (hs.countable hpositive hnegative)
        (isFinite_ofNat (hedits.trans_lt hs.points)) hwithin ?_)
      exact fun hfull heq => hnone ⟨hfull, heq⟩

end Vectors

/-- A candidate is scored when its vector is not the sentinel vector. -/
def Candidate.Scored (d : Candidate Float) : Prop :=
  d.objectives.isSentinel = false

/-- A candidate has as many objectives as there are, and is scored with a vector below the sentinel
or not at all. -/
structure Candidate.Marked (count : ℕ) (d : Candidate Float) : Prop where
  size : d.objectives.size = count
  below : d.Scored → d.objectives.BelowSentinel

section Pools

variable {count room : ℕ} {pool kept : List (Candidate Float)}

theorem Candidate.Marked.congr {d d' : Candidate Float} (h : d.Marked count)
    (heq : d'.objectives = d.objectives) : d'.Marked count := by
  refine ⟨heq ▸ h.size, fun hscored => ?_⟩
  rw [heq]
  apply h.below
  rwa [Candidate.Scored, heq] at hscored

/-- Whoever is scored dominates whoever is not. -/
theorem Candidate.Marked.dominates {d d' : Candidate Float} (h : d.Marked count)
    (h' : d'.Marked count) (hscored : d.Scored) (hunscored : ¬ d'.Scored) :
    d.objectives.dominates d'.objectives = true := by
  have hsentinel : d'.objectives.isSentinel = true := by
    simpa [Candidate.Scored] using hunscored
  exact (h.below hscored).dominates hsentinel (h.size.trans h'.size.symm)

/-- Besides a scored candidate no unscored one has rank zero. -/
theorem RankedByFront.scored (h : RankedByFront pool) (hmarked : ∀ d ∈ pool, d.Marked count)
    (hscored : ∃ d ∈ pool, d.Scored) : ∀ d ∈ pool, d.rank = some 0 → d.Scored := by
  intro d hd hzero
  obtain ⟨d', hd', hscored⟩ := hscored
  by_contra hunscored
  have hfree := (h.rank_eq_zero_iff hd).mp hzero d' hd'
  have hdominates := (hmarked d' hd').dominates (hmarked d hd) hscored hunscored
  rw [hfree] at hdominates
  cases hdominates

theorem RankedByFront.exists_zero (h : RankedByFront pool) {d : Candidate Float} (hd : d ∈ pool) :
    ∃ d' ∈ pool, d'.rank = some 0 := by
  obtain ⟨k, hk⟩ := h.ranked d hd
  induction k generalizing d with
  | zero => exact ⟨d, hd, hk⟩
  | succ k ih =>
    obtain ⟨d', hd', -, hk'⟩ := h.just d hd k hk
    exact ih hd' hk'

/-- A selection from a pool with a scored candidate keeps a scored one in the first front. -/
theorem exists_scored_survivor (hmarked : ∀ d ∈ pool, d.Marked count) (hroom : 0 < room)
    (hscored : ∃ d ∈ pool, d.Scored) (h : survivors room pool = .ok kept) :
    ∃ d ∈ kept, d.rank = some 0 ∧ d.Scored := by
  obtain ⟨cs, hcs, rfl⟩ := survivors_eq_take h
  have hobjectives := objectives_ranked hcs
  have hsame {xs ys : List (Candidate Float)} (heq : xs.map (·.objectives) = ys.map (·.objectives))
      {d : Candidate Float} (hd : d ∈ xs) : ∃ d' ∈ ys, d'.objectives = d.objectives := by
    have hmem : d.objectives ∈ ys.map (·.objectives) := heq ▸ List.mem_map_of_mem hd
    obtain ⟨d', hd', heq⟩ := List.mem_map.mp hmem
    exact ⟨d', hd', heq⟩
  have hmarked' : ∀ d ∈ cs, d.Marked count := by
    intro d hd
    obtain ⟨d', hd', heq⟩ := hsame hobjectives hd
    exact (hmarked d' hd').congr heq.symm
  have hscored' : ∃ d ∈ cs, d.Scored := by
    obtain ⟨d, hd, hscored⟩ := hscored
    obtain ⟨d', hd', heq⟩ := hsame hobjectives.symm hd
    refine ⟨d', hd', ?_⟩
    rwa [Candidate.Scored, heq]
  have hranked : RankedByFront cs :=
    rankedByFront_ranked (fun d hd => Or.inr (hmarked d hd).size) hcs
  obtain ⟨c, hc⟩ : ∃ c, c ∈ cs := hscored'.imp fun _ h => h.1
  obtain ⟨first, hfirst, hzero⟩ := hranked.exists_zero hc
  obtain ⟨d, hd, hzero⟩ := hranked.exists_first_kept hroom hfirst hzero
  have hmem : d ∈ cs := List.mem_mergeSort.mp (List.mem_of_mem_take hd)
  exact ⟨d, hd, hzero, hranked.scored hmarked' hscored' d hmem hzero⟩

end Pools

namespace Search

variable {s : Search Float σ} {e₀ : Engine Float σ} {c : Course Float σ}

/-- Room for someone, one to three objectives, and scores below the sentinel. -/
structure Scoring (s : Search Float σ) : Prop where
  room : 0 < s.config.populationSize
  one : 1 ≤ s.setup.objectives
  three : s.setup.objectives ≤ 3
  scorable : s.setup.Scorable

/-- The evaluation of a candidate marks it. -/
theorem Scoring.marked (hs : s.Scoring) {e e' : Engine Float σ} {d d' : Candidate Float}
    (hb : e.bench.Reachable Float s.setup) (h : s.evaluateCandidate d e = .ok (d', e')) :
    d'.Marked s.setup.objectives := by
  obtain ⟨evaluation, chromosome, bench, hevaluate, rfl, -⟩ := evaluateCandidate_engine h
  obtain ⟨edits, -, hanswer⟩ := evaluate_eq_ok (congrArg Prod.fst hevaluate)
  refine ⟨evaluateEdits_size hanswer hs.one hs.three, fun hscored => ?_⟩
  obtain ⟨edits', t, hselected, -, hstages⟩ := stages_of_evaluate hevaluate
  have hdescribes : e.bench.begun.archive.Describes s.setup.tests.ordered := hb.archive_describes
  obtain hsentinel | hbelow :=
    hstages.sentinel_or_below hs.scorable (length_selectEdits_le hselected) hdescribes
  · rw [Candidate.Scored, hsentinel] at hscored
    cases hscored
  · exact hbelow

/-- All candidates that a run has evaluated are marked. -/
theorem Reaches.marked (h : s.Reaches e₀ c) (hs : s.Scoring)
    (hb : e₀.bench.Reachable Float s.setup) : ∀ d ∈ c.seen, d.Marked s.setup.objectives := by
  induction h with
  | populate => nofun
  | @step c c' h hstep ih =>
    cases hstep with
    | evaluate _ hgo he =>
      obtain rfl := stopReason?_engine hgo
      have hlooked : (s.look c.engine).2.bench.Reachable Float s.setup :=
        (h.bench_reachable hb).between _ _
      intro d hd
      rw [Course.seen, ← List.append_assoc, List.mem_append, List.mem_singleton] at hd
      rcases hd with hd | rfl
      · exact ih d hd
      · exact hs.marked hlooked he
    | survive =>
      intro d hd
      rw [Course.seen, List.append_nil] at hd
      exact ih d hd
    | _ => exact ih

theorem Reaches.marked_parents (h : s.Reaches e₀ c) (hs : s.Scoring)
    (hb : e₀.bench.Reachable Float s.setup) : ∀ d ∈ c.parents, d.Marked s.setup.objectives := by
  intro d hd
  obtain ⟨d', hd', heq⟩ := h.numbered.parents d hd
  exact (h.marked hs hb d' hd').congr (Candidate.objectives_eq_of_unranked_eq heq)

/-- Once a candidate was scored there is a scored one in the first front of every selection. -/
theorem Reaches.exists_scored_parent (h : s.Reaches e₀ c) (hs : s.Scoring)
    (hb : e₀.bench.Reachable Float s.setup) (hscored : ∃ d ∈ c.earlier, d.Scored) :
    ∃ d ∈ c.parents, d.rank = some 0 ∧ d.Scored := by
  induction h with
  | populate => obtain ⟨d, hd, -⟩ := hscored; cases hd
  | @step c c' h hstep ih =>
    cases hstep with
    | survive _ hsurvive =>
      obtain ⟨population, hsurvivors, rfl⟩ := survive_engine hsurvive
      have hmarked : ∀ d ∈ c.parents ++ c.evaluated, d.Marked s.setup.objectives := by
        intro d hd
        rcases List.mem_append.mp hd with hd | hd
        · exact h.marked_parents hs hb d hd
        · exact h.marked hs hb d (List.mem_append_right _ hd)
      refine exists_scored_survivor hmarked hs.room ?_ hsurvivors
      -- what was scored earlier has left a scored parent, and what was scored now is in the pool
      obtain ⟨d, hd, hscored⟩ := hscored
      rcases List.mem_append.mp hd with hd | hd
      · obtain ⟨d', hd', -, hscored'⟩ := ih ⟨d, hd, hscored⟩
        exact ⟨d', List.mem_append_left _ hd', hscored'⟩
      · exact ⟨d, List.mem_append_right _ hd, hscored⟩
    | _ => exact ih hscored

end Search

/-- Among candidates that were evaluated and the population that they left, scored ones come first:
the first front has an unscored member only if no candidate was scored, and otherwise it has a
scored member and no other. -/
structure ScoredFirst (seen population : List (Candidate Float)) : Prop where
  unscored : (∃ d ∈ firstFront population, ¬ d.Scored) → ∀ d ∈ seen, ¬ d.Scored
  scored : (∃ d ∈ seen, d.Scored) →
    (∃ d ∈ firstFront population, d.Scored) ∧ ∀ d ∈ firstFront population, d.Scored

theorem Search.Reaches.scoredFirst {s : Search Float σ} {e₀ : Engine Float σ}
    {c : Course Float σ} (h : s.Reaches e₀ c) (hs : s.Scoring)
    (hb : e₀.bench.Reachable Float s.setup) : ScoredFirst c.earlier c.parents := by
  have hscored (hearlier : ∃ d ∈ c.earlier, d.Scored) :
      (∃ d ∈ firstFront c.parents, d.Scored) ∧ ∀ d ∈ firstFront c.parents, d.Scored := by
    obtain ⟨d, hd, hzero, hscored⟩ := h.exists_scored_parent hs hb hearlier
    refine ⟨⟨d, List.mem_filter.mpr ⟨hd, beq_iff_eq.mpr hzero⟩, hscored⟩, fun d' hd' => ?_⟩
    obtain ⟨hmem, hzero'⟩ := List.mem_filter.mp hd'
    exact h.rankedByFront.scored (h.marked_parents hs hb) ⟨d, hd, hscored⟩ d' hmem
      (beq_iff_eq.mp hzero')
  refine ⟨fun hunscored d hd hd' => ?_, hscored⟩
  obtain ⟨d', hfirst, hunscored⟩ := hunscored
  exact hunscored ((hscored ⟨d, hd, hd'⟩).2 d' hfirst)

/-- Candidates that could not be evaluated never displace scored ones. Under a valid configuration
with finite weights, the weight and one more below the sentinel, the first front of every selection
of a run has a member with the sentinel vector only if no candidate was scored up to then. Once a
candidate is scored the first front of every later population has a scored member and no other, and
so has the front that the run returns. -/
theorem scored_first (config : RepairConfig) (model : ProgramModel) (tests : TestSuite)
    (sources : SourceTree) (tools : Toolchain σ) (notify : SearchProgress Float → σ → σ)
    (hvalid : config.validate = .ok ())
    (hweight : config.evaluation.weight + 1.0 < Scalar.sentinel)
    (hdiversity : config.novelty.diversityWeight.isFinite = true)
    (hpoints : model.points.length < wordCount) (htests : tests.total < wordCount) :
    let s := Search.ofConfig config model tests sources tools notify
    ∀ e₀ : Engine Float σ, e₀.bench.Reachable Float s.setup →
      (∀ c, s.Reaches e₀ c → ScoredFirst c.earlier c.parents) ∧
      (∀ c, s.Reaches e₀ c → (∃ d ∈ c.seen, d.Scored) →
        ∀ c', Relation.ReflTransGen s.Step c c' → c'.Rested →
          (∃ d ∈ firstFront c'.engine.population, d.Scored) ∧
            ∀ d ∈ firstFront c'.engine.population, d.Scored) ∧
      ∀ r t, s.run e₀ = .ok (r, t) →
        ∃ c, s.Reaches e₀ c ∧ c.Rested ∧ c.engine = t ∧
          r.front = (firstFront t.population).map Candidate.snapshot ∧
          ScoredFirst c.seen t.population := by
  intro s e₀ hb
  obtain ⟨hpopulation, -, hone, hthree⟩ := RepairConfig.search_of_validate hvalid
  have hs : s.Scoring := ⟨Nat.lt_of_lt_of_le Nat.zero_lt_two hpopulation, hone, hthree,
    Setup.weighted_ofConfig hvalid hweight model tests sources, hdiversity, hpoints, htests⟩
  have hrested (c : Course Float σ) (hc : s.Reaches e₀ c) (hrest : c.Rested) :
      ScoredFirst c.seen c.engine.population := by
    rw [hrest.seen, hrest.population]
    exact hc.scoredFirst hs hb
  refine ⟨fun c hc => hc.scoredFirst hs hb, ?_, ?_⟩
  · rintro c hc ⟨d, hd, hscored⟩ c' hsteps hrest
    have hlater := hrested c' (hc.trans hsteps) hrest
    exact hlater.scored ⟨d, Search.seen_subset hsteps hd, hscored⟩
  · intro r t hrun
    obtain ⟨c, hc, hrest, rfl, reason, started, rfl⟩ := Search.reaches_run hrun
    exact ⟨c, hc, hrest, rfl, rfl, hrested c hc hrest⟩

/-- The search of two candidates over the program of one line. -/
def hastySearch : Search Float Bool :=
  Search.ofConfig pairConfig oneLineSetup.model oneLineSetup.tests oneLineSetup.sources hastyTools
    fun _ w => w

/-- A run that stops after it has scored a candidate returns a front of scored ones. -/
theorem scored_first_of_deleted_line :
    (pairConfig.validate = .ok () ∧
      pairConfig.evaluation.weight + 1.0 < Scalar.sentinel ∧
      pairConfig.novelty.diversityWeight.isFinite = true ∧
      oneLineSetup.model.points.length < wordCount ∧ oneLineSetup.tests.total < wordCount ∧
      (Bench.start 200 0 (.start .empty 0) false).Reachable Float hastySearch.setup) ∧
    ∃ r t, hastySearch.run (Search.engine (.start 200 0 (.start .empty 0) false) 2) = .ok (r, t) ∧
      r.front = (firstFront t.population).map Candidate.snapshot ∧
      (∃ d ∈ firstFront t.population, d.Scored) ∧ ∀ d ∈ firstFront t.population, d.Scored := by
  let start : Bench Bool := .start 200 0 (.start .empty 0) false
  have hweight : pairConfig.evaluation.weight + 1.0 < Scalar.sentinel := by decide +kernel
  have hpoints : oneLineSetup.model.points.length < wordCount := by decide
  have htests : oneLineSetup.tests.total < wordCount := by decide
  have hreachable : start.Reachable Float hastySearch.setup := .start 200 0 (.start .empty 0) false
  have hscored : (hastySearch.run (Search.engine start 2)).toOption.map
      (fun x => x.2.population.any fun d => !d.objectives.isSentinel) = some true := by
    decide +kernel
  obtain ⟨⟨r, t⟩, hrun, hfound⟩ := toOption_map_eq_some_iff.mp hscored
  obtain ⟨d, hd, hd'⟩ := List.any_eq_true.mp hfound
  obtain ⟨c, hc, hrest, hengine, hfront, hfirst⟩ :=
    (scored_first pairConfig oneLineSetup.model oneLineSetup.tests oneLineSetup.sources hastyTools
      (fun _ w => w) pairConfig_validate hweight rfl hpoints htests (Search.engine start 2)
      hreachable).2.2 r t hrun
  rw [← hengine, hrest.population] at hd
  obtain ⟨d', hseen, heq⟩ := hc.numbered.parents d hd
  have hd'' : d'.Scored := by
    rw [Candidate.Scored, ← Candidate.objectives_eq_of_unranked_eq heq]
    simpa using hd'
  exact ⟨⟨pairConfig_validate, hweight, rfl, hpoints, htests, hreachable⟩, r, t, hrun, hfront,
    hfirst.scored ⟨d', hseen, hd''⟩⟩

end PatchSearch
