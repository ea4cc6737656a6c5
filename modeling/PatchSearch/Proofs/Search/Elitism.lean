import PatchSearch.Proofs.Search.Extremes
import PatchSearch.Proofs.Search.Front
import PatchSearch.Proofs.Search.Members

/-!
No best value is lost. The smallest value of an objective among the survivors of a selection is
the smallest of all candidates that were evaluated up to then, provided that there is room for two
candidates for each objective. Without novelty the best fitness of a run is the smallest fitness of
the candidates that it evaluated, so it is the smallest fitness of the front that it returns.
-/
namespace PatchSearch

open FloatOrder

variable {σ : Type}

namespace Search

variable {s : Search Float σ} {e₀ : Engine Float σ} {c c' : Course Float σ} {k : ℕ}

/-- Candidates with one to three objectives have as many values once they are evaluated. -/
theorem carries_size (s : Search Float σ) (hone : 1 ≤ s.setup.objectives)
    (hthree : s.setup.objectives ≤ 3) :
    s.Carries (fun _ => True) fun d => d.objectives.size = s.setup.objectives where
  drawn _ := trivial
  bred _ _ _ := ⟨trivial, trivial⟩
  evaluated {d d' e e'} _ he := by
    obtain ⟨evaluation, chromosome, bench, hevaluate, rfl, -⟩ := evaluateCandidate_engine he
    obtain ⟨edits, -, hanswer⟩ := evaluate_eq_ok (congrArg Prod.fst hevaluate)
    exact evaluateEdits_size hanswer hone hthree
  ranked hd heq := by
    rw [Candidate.objectives_eq_of_unranked_eq heq]
    exact hd

theorem seen_subset (h : Relation.ReflTransGen s.Step c c') : c.seen ⊆ c'.seen := by
  induction h with
  | refl => exact List.Subset.refl _
  | tail _ hstep ih => exact List.Subset.trans ih hstep.seen_subset

theorem Reaches.trans (h : s.Reaches e₀ c) (hsteps : Relation.ReflTransGen s.Step c c') :
    s.Reaches e₀ c' := by
  induction hsteps with
  | refl => exact h
  | tail _ hstep ih => exact ih.step hstep

/-- A search for no candidates comes to none. -/
theorem Reaches.eq_nil (h : s.Reaches e₀ c) (hnone : s.config.populationSize = 0) :
    c.seen = [] ∧ c.waiting = [] := by
  induction h with
  | @populate e hp =>
    obtain ⟨⟨population, e₁⟩, hdrawn, hp⟩ := bind_eq_ok_iff.mp hp
    cases hp
    have hids := (randomCandidates_ids hdrawn).1
    rw [hnone] at hids
    exact ⟨rfl, List.map_eq_nil_iff.mp hids⟩
  | step _ hstep ih =>
    obtain ⟨hseen, hwaiting⟩ := ih
    cases hstep with
    | evaluate hfront =>
      rw [hwaiting] at hfront
      cases hfront
    | leave => exact ⟨hseen, rfl⟩
    | survive => exact ⟨by rw [Course.seen, hseen]; rfl, rfl⟩
    | breed _ hb =>
      have hids := (offspring_ids hb).1
      rw [hnone] at hids
      exact ⟨hseen, List.map_eq_nil_iff.mp hids⟩
    | _ => exact ⟨hseen, hwaiting⟩

/-- One to three objectives and room for two candidates for each of them; with one objective room
for one candidate does. -/
structure Roomy (s : Search Float σ) : Prop where
  one : 1 ≤ s.setup.objectives
  three : s.setup.objectives ≤ 3
  room : 2 * s.setup.objectives ≤ s.config.populationSize ∨
    s.setup.objectives = 1 ∧ 0 < s.config.populationSize

/-- The survivors of a run have as many values as there are objectives, and these are finite if
those of all candidates were when they were evaluated. -/
theorem Reaches.valued_parents (h : s.Reaches e₀ c) (hs : s.Roomy)
    (hfinite : ∀ d ∈ c.seen, d.objectives.Finite) : Valued s.setup.objectives c.parents := by
  intro d hd
  obtain ⟨d', hd', heq⟩ := h.numbered.parents d hd
  rw [Candidate.objectives_eq_of_unranked_eq heq]
  exact ⟨(h.carried (s.carries_size hs.one hs.three)).seen d' hd', hfinite d' hd'⟩

/-- A selection keeps the smallest values of all candidates that were evaluated up to then, if the
selection before did. -/
theorem Reaches.leastAt_survivors (h : s.Reaches e₀ c) (hs : s.Roomy)
    (hfinite : ∀ d ∈ c.seen, d.objectives.Finite) (hne : c.seen ≠ [])
    (hk : k < s.setup.objectives)
    (hbefore : c.earlier ≠ [] →
      ∃ x, LeastAt k (vectorsOf c.parents) x ∧ LeastAt k (vectorsOf c.earlier) x)
    {population : List (Candidate Float)}
    (hsurvivors : survivors s.config.populationSize (c.parents ++ c.evaluated) = .ok population) :
    ∃ x, LeastAt k (vectorsOf population) x ∧ LeastAt k (vectorsOf c.seen) x := by
  have hvalued : Valued s.setup.objectives (c.parents ++ c.evaluated) := fun d hd =>
    (List.mem_append.mp hd).elim (h.valued_parents hs hfinite d) fun hd =>
      ⟨(h.carried (s.carries_size hs.one hs.three)).seen d (List.mem_append_right _ hd),
        hfinite d (List.mem_append_right _ hd)⟩
  have hpool : c.parents ++ c.evaluated ≠ [] := by
    intro hnil
    obtain ⟨hp, he⟩ := List.append_eq_nil_iff.mp hnil
    rw [Course.seen, he, List.append_nil] at hne
    obtain ⟨x, hx, -⟩ := hbefore hne
    obtain ⟨d, hd, -⟩ := hx.exists_mem
    rw [hp] at hd
    cases hd
  obtain ⟨x, hkept, hleast⟩ := survivors_leastAt hvalued hs.room hpool hsurvivors hk
  refine ⟨x, hkept, ?_⟩
  -- what is smallest in the pool was evaluated, and nothing evaluated earlier is smaller
  obtain ⟨d, hd, hx⟩ := hleast.exists_mem
  obtain ⟨d', hd', hx'⟩ : ∃ d' ∈ c.seen, d'.objectives.toList[k]? = some x := by
    rcases List.mem_append.mp hd with hd | hd
    · obtain ⟨d', hd', heq⟩ := h.numbered.parents d hd
      exact ⟨d', hd', Candidate.objectives_eq_of_unranked_eq heq ▸ hx⟩
    · exact ⟨d, List.mem_append_right _ hd, hx⟩
  refine .intro hd' hx' fun b hb y hy => ?_
  rcases List.mem_append.mp hb with hb | hb
  · obtain ⟨z, hparent, hearlier⟩ := hbefore (List.ne_nil_of_mem hb)
    obtain ⟨p, hp, hz⟩ := hparent.exists_mem
    exact le_trans (hleast.le (List.mem_append_left _ hp) hz) (hearlier.le hb hy)
  · exact hleast.le (List.mem_append_right _ hb) hy

/-- In every course the survivors of the last selection have the smallest values of all candidates
that were evaluated up to then. -/
theorem Reaches.leastAt (h : s.Reaches e₀ c) (hs : s.Roomy)
    (hfinite : ∀ d ∈ c.seen, d.objectives.Finite) (hne : c.earlier ≠ [])
    (hk : k < s.setup.objectives) :
    ∃ x, LeastAt k (vectorsOf c.parents) x ∧ LeastAt k (vectorsOf c.earlier) x := by
  induction h with
  | populate => exact absurd rfl hne
  | @step c c' h hstep ih =>
    have hbefore : ∀ d ∈ c.seen, d.objectives.Finite := fun d hd =>
      hfinite d (hstep.seen_subset hd)
    cases hstep with
    | survive hwaiting hsurvive =>
      obtain ⟨population, hsurvivors, rfl⟩ := survive_engine hsurvive
      exact h.leastAt_survivors hs hbefore hne hk (ih hbefore) hsurvivors
    | _ => exact ih hbefore hne

/-- At a rest the members of the population have the smallest values of all candidates that were
evaluated. -/
theorem Reaches.leastAt_of_rested (h : s.Reaches e₀ c) (hrest : c.Rested) (hs : s.Roomy)
    (hfinite : ∀ d ∈ c.seen, d.objectives.Finite) (hne : c.seen ≠ [])
    (hk : k < s.setup.objectives) :
    ∃ x, LeastAt k (vectorsOf c.engine.population) x ∧ LeastAt k (vectorsOf c.seen) x := by
  rw [hrest.population, hrest.seen]
  exact h.leastAt hs hfinite (hrest.seen ▸ hne) hk

/-- The best fitness of a course with the values of all candidates that were evaluated: it is below
all of them and reached by one of them, or nothing has changed it yet. -/
structure Best (k : ℕ) (e₀ : Engine Float σ) (c : Course Float σ) : Prop where
  below : ∀ d ∈ c.seen, ∀ y, d.objectives.toList[k]? = some y → c.engine.bestFitness ≤ y
  reached : (c.seen = [] ∧ c.engine.bestFitness = e₀.bestFitness ∧
      c.engine.bench.ledger = e₀.bench.ledger) ∨
    ∃ d ∈ c.seen, ∃ y, d.objectives.toList[k]? = some y ∧ y ≤ c.engine.bestFitness

theorem Best.isNaN (h : Best k e₀ c) (hfresh : e₀.bestFitness = Scalar.sentinel) :
    c.engine.bestFitness.isNaN = false := by
  obtain ⟨-, hbest, -⟩ | ⟨-, -, y, -, hy⟩ := h.reached
  · rw [hbest, hfresh]
    exact isNaN_of_isFinite _ isFinite_largestFloat
  · exact ((le_iff _ _).mp hy).2.1

/-- A candidate with a fitness takes its place among those that the best fitness is below. -/
theorem Best.scored (h : Best k e₀ c) (hfresh : e₀.bestFitness = Scalar.sentinel)
    {d : Candidate Float} {f : Float} (hf : f.isFinite = true)
    (hd : d.objectives.toList[k]? = some f) (hseen : c'.seen = c.seen ++ [d])
    (hbest : c'.engine.bestFitness = Scalar.lesser c.engine.bestFitness f) : Best k e₀ c' := by
  have hnumber := h.isNaN hfresh
  have hfnumber := isNaN_of_isFinite f hf
  refine ⟨fun b hb y hy => ?_, ?_⟩
  · rw [hbest]
    rw [hseen, List.mem_append, List.mem_singleton] at hb
    rcases hb with hb | rfl
    · exact le_trans (lesser_le _ f hnumber).2 (h.below b hb y hy)
    · obtain rfl := Option.some.inj (hd.symm.trans hy)
      exact lesser_le_right hnumber hfnumber
  · rw [hbest, hseen]
    refine Or.inr ?_
    by_cases hlt : f < c.engine.bestFitness
    · refine ⟨d, by simp, f, hd, ?_⟩
      rw [Scalar.lesser, if_pos hlt]
      exact self_le f hfnumber
    · rw [Scalar.lesser, if_neg hlt]
      obtain ⟨-, hstart, -⟩ | ⟨b, hb, y, hy, hle⟩ := h.reached
      · refine ⟨d, by simp, f, hd, ?_⟩
        rw [hstart, hfresh]
        exact le_largestFloat hf
      · exact ⟨b, List.mem_append_left _ hb, y, hy, hle⟩

/-- A candidate without a fitness has the largest value, which the best fitness is below. -/
theorem Best.unscored (h : Best k e₀ c) (hfresh : e₀.bestFitness = Scalar.sentinel)
    (hfinite : ∀ d ∈ c.seen, d.objectives.Finite) {d : Candidate Float}
    (hd : d.objectives.toList[k]? = some Scalar.sentinel) (hseen : c'.seen = c.seen ++ [d])
    (hbest : c'.engine.bestFitness = c.engine.bestFitness) : Best k e₀ c' := by
  have hself : (Scalar.sentinel : Float) ≤ Scalar.sentinel :=
    le_largestFloat isFinite_largestFloat
  refine ⟨fun b hb y hy => ?_, ?_⟩
  · rw [hbest]
    rw [hseen, List.mem_append, List.mem_singleton] at hb
    rcases hb with hb | rfl
    · exact h.below b hb y hy
    · obtain rfl := Option.some.inj (hd.symm.trans hy)
      obtain ⟨-, hstart, -⟩ | ⟨b, hb, y, hy, hle⟩ := h.reached
      · rw [hstart, hfresh]
        exact hself
      · exact le_trans (h.below b hb y hy)
          (le_largestFloat (hfinite b hb y (List.mem_of_getElem? hy)))
  · rw [hbest, hseen]
    obtain ⟨-, hstart, -⟩ | ⟨b, hb, y, hy, hle⟩ := h.reached
    · refine Or.inr ⟨d, by simp, _, hd, ?_⟩
      rw [hstart, hfresh]
      exact hself
    · exact Or.inr ⟨b, List.mem_append_left _ hb, y, hy, hle⟩

/-- Without novelty the best fitness is the smallest fitness that was evaluated. -/
theorem Reaches.best (h : s.Reaches e₀ c) (hmode : s.setup.novelty.mode = .none)
    (hcount : s.setup.objectives = 1 ∨ s.setup.objectives = 2)
    (hfresh : e₀.bestFitness = Scalar.sentinel) (hfinite : ∀ d ∈ c.seen, d.objectives.Finite) :
    Best (s.setup.objectives - 1) e₀ c := by
  induction h with
  | populate hp =>
    obtain ⟨population, random, nextId, rfl⟩ := populate_engine hp
    exact ⟨nofun, Or.inl ⟨rfl, rfl, rfl⟩⟩
  | @step c c' h hstep ih =>
    have hseen : ∀ d ∈ c.seen, d.objectives.Finite := fun d hd => hfinite d (hstep.seen_subset hd)
    have hbefore := ih hseen
    cases hstep with
    | look => exact ⟨hbefore.below, hbefore.reached⟩
    | tell ht =>
      obtain ⟨world, rfl⟩ := tell_engine ht
      exact ⟨hbefore.below, hbefore.reached⟩
    | record hr =>
      obtain ⟨history, rfl⟩ := recordHistory_engine hr
      exact ⟨hbefore.below, hbefore.reached⟩
    | @evaluate d d' rest e e' hwaiting hgo he =>
      obtain rfl := stopReason?_engine hgo
      obtain ⟨evaluation, chromosome, bench, hevaluate, hd', rfl⟩ := evaluateCandidate_engine he
      obtain ⟨edits, -, hanswer⟩ := evaluate_eq_ok (congrArg Prod.fst hevaluate)
      have hfinite' : d'.objectives.Finite :=
        hfinite d' (List.mem_append_right _ (List.mem_append_right _ (List.mem_singleton_self d')))
      have hvalues : d'.objectives = evaluation.objectives := by rw [hd']
      obtain ⟨hnone, hobjectives⟩ | ⟨f, hsome, hf⟩ := evaluateEdits_fitness hanswer hmode hcount
      · refine hbefore.unscored hfresh hseen ?_ (List.append_assoc _ _ _).symm (by rw [hnone]; rfl)
        rw [hvalues, hobjectives]
        rcases hcount with hcount | hcount <;> rw [hcount] <;> rfl
      · rw [← hvalues] at hf
        exact hbefore.scored hfresh (hfinite' f (List.mem_of_getElem? hf)) hf
          (List.append_assoc _ _ _).symm (by rw [hsome]; rfl)
    | leave hl =>
      obtain rfl := stopReason?_engine hl
      exact ⟨hbefore.below, hbefore.reached⟩
    | survive hwaiting hs =>
      obtain ⟨population, -, rfl⟩ := survive_engine hs
      have hsame : Course.seen ⟨{ c.engine with population }, population, [], [], c.seen⟩ =
          c.seen := List.append_nil _
      exact ⟨fun d hd => hbefore.below d (hsame ▸ hd), hsame.symm ▸ hbefore.reached⟩
    | breed hrest hb =>
      obtain ⟨random, nextId, rfl⟩ := offspring_engine hb
      exact ⟨hbefore.below, hbefore.reached⟩

/-- Without novelty the best fitness of a rest with evaluated candidates is, as a number, the
smallest fitness of the first front of the population. -/
theorem Reaches.bestFitness_leastAt (h : s.Reaches e₀ c) (hrest : c.Rested)
    (hmode : s.setup.novelty.mode = .none)
    (hroom : s.setup.objectives = 1 ∨ s.setup.objectives = 2 ∧ 4 ≤ s.config.populationSize)
    (hfresh : e₀.bestFitness = Scalar.sentinel) (hfinite : ∀ d ∈ c.seen, d.objectives.Finite)
    (hcount : e₀.bench.ledger.evaluations < c.engine.bench.ledger.evaluations) :
    ∃ x, LeastAt (s.setup.objectives - 1) (vectorsOf (firstFront c.engine.population)) x ∧
      (x == c.engine.bestFitness) = true := by
  have hbest := h.best hmode (hroom.imp id And.left) hfresh hfinite
  obtain ⟨-, -, hsame⟩ | ⟨b, hb, y, hy, hle⟩ := hbest.reached
  · rw [hsame] at hcount
    exact absurd hcount (Nat.lt_irrefl _)
  have hlast : s.setup.objectives - 1 < s.setup.objectives := by omega
  have hpositive : 0 < s.config.populationSize :=
    Nat.pos_of_ne_zero fun hnone => List.ne_nil_of_mem hb (h.eq_nil hnone).1
  have hs : s.Roomy := ⟨by omega, by omega, by omega⟩
  obtain ⟨x, hleast, hall⟩ := h.leastAt_of_rested hrest hs hfinite (List.ne_nil_of_mem hb) hlast
  have hvalued := h.valued_parents hs hfinite
  have hranked := h.rankedByFront
  rw [← hrest.population] at hvalued hranked
  -- a member of the first front is nowhere worse than the member with the smallest fitness
  obtain ⟨d, hd, hx⟩ := hleast.exists_mem
  obtain ⟨first, hmem, hfirst, hbelow⟩ := hranked.exists_first hvalued hd
  obtain ⟨z, hz⟩ := hvalued.exists_value hmem hlast
  have hzx := hbelow _ z x hz hx
  refine ⟨z, .intro (List.mem_filter.mpr ⟨hmem, beq_iff_eq.mpr hfirst⟩) hz fun a ha w hw => ?_, ?_⟩
  · exact le_trans hzx (hleast.le (List.mem_of_mem_filter ha) hw)
  · obtain ⟨d', hd', heq⟩ := h.numbered.parents first (hrest.population ▸ hmem)
    rw [Candidate.objectives_eq_of_unranked_eq heq] at hz
    exact beq_of_le_of_le (le_trans hzx (le_trans (hall.le hb hy) hle)) (hbest.below d' hd' z hz)

end Search

/-- No best value is lost, provided that the values of all candidates are finite. With room for two
candidates for each objective the smallest value of an objective among the members of a population
is that among all candidates that were evaluated, so from one population to a later one it never
gets worse. Without novelty, with one objective or with two and room for four candidates, the best
fitness of a run that begins without one is the smallest fitness, which is the last value, of the
front that it returns, once a candidate was evaluated. -/
theorem elitism (s : Search Float σ) (e₀ : Engine Float σ) (hone : 1 ≤ s.setup.objectives)
    (hthree : s.setup.objectives ≤ 3)
    (hfinite : ∀ c, s.Reaches e₀ c → ∀ d ∈ c.seen, d.objectives.Finite) :
    (2 * s.setup.objectives ≤ s.config.populationSize →
      ∀ c, s.Reaches e₀ c → c.Rested → c.seen ≠ [] → ∀ k < s.setup.objectives,
        (∃ x, LeastAt k (vectorsOf c.engine.population) x ∧ LeastAt k (vectorsOf c.seen) x) ∧
        ∀ c', Relation.ReflTransGen s.Step c c' → c'.Rested → ∀ x x',
          LeastAt k (vectorsOf c.engine.population) x →
            LeastAt k (vectorsOf c'.engine.population) x' → x' ≤ x) ∧
    ∀ r t, s.run e₀ = .ok (r, t) → s.setup.novelty.mode = .none →
      s.setup.objectives = 1 ∨ s.setup.objectives = 2 ∧ 4 ≤ s.config.populationSize →
        e₀.bestFitness = Scalar.sentinel →
          e₀.bench.ledger.evaluations < r.stats.totalEvaluations →
            ∃ x, LeastAt (s.setup.objectives - 1) (r.front.map (·.objectives)) x ∧
              (x == r.stats.bestFitness) = true := by
  refine ⟨fun hroom c hc hrest hne k hk => ⟨?_, fun c' hsteps hrest' x x' hx hx' => ?_⟩, ?_⟩
  · exact hc.leastAt_of_rested hrest ⟨hone, hthree, Or.inl hroom⟩ (hfinite c hc) hne hk
  · have hc' := hc.trans hsteps
    have hsubset := Search.seen_subset hsteps
    obtain ⟨b, hb⟩ := List.exists_mem_of_ne_nil _ hne
    obtain ⟨y, hy, hleast⟩ := hc'.leastAt_of_rested hrest' ⟨hone, hthree, Or.inl hroom⟩
      (hfinite c' hc') (List.ne_nil_of_mem (hsubset hb)) hk
    obtain ⟨d, hd, hdx⟩ := hx.exists_mem
    obtain ⟨d', hd', heq⟩ := hc.numbered.parents d (hrest.population ▸ hd)
    rw [Candidate.objectives_eq_of_unranked_eq heq] at hdx
    obtain ⟨p, hp, hpy⟩ := hy.exists_mem
    exact le_trans (hx'.le hp hpy) (hleast.le (hsubset hd') hdx)
  · intro r t hrun hmode hroom hfresh hcount
    obtain ⟨c, hc, hrest, rfl, reason, started, rfl⟩ := Search.reaches_run hrun
    obtain ⟨x, hx, hbest⟩ :=
      hc.bestFitness_leastAt hrest hmode hroom hfresh (hfinite c hc) hcount
    refine ⟨x, ?_, hbest⟩
    change LeastAt _ (((firstFront c.engine.population).map Candidate.snapshot).map _) x
    rw [List.map_map]
    exact hx

/-- Two candidates with one objective, which start at random. -/
def oneObjectiveConfig : RepairConfig :=
  { search := { populationSize := 2, objectives := 1, initialization := .random } }

/-- The search of two candidates with one objective over the two lines. -/
def oneObjectiveSearch : Search Float Unit :=
  Search.ofConfig oneObjectiveConfig twoLineModel ⟨["T#kept"], ["T#broken"]⟩
    (SourceTree.ofFiles [("A.java", "x++;\ny++;")]) idleTools fun _ w => w

/-- Idle tools find no failure in what they test. -/
theorem testArtifact_idle {artifact : Artifact} {b b' : Bench Unit} {outcome : TestOutcome × Bool}
    (h : testArtifact Float oneObjectiveSearch.setup idleTools artifact b = (some outcome, b')) :
    outcome.1 = .ofFailed oneObjectiveSearch.setup.fullRequest [] := by
  have hwhole : ¬ oneObjectiveSearch.setup.config.percentage < 1.0 := by decide +kernel
  unfold testArtifact at h
  rw [samplePositive_of_not_lt _ _ _ _ hwhole] at h
  cases h
  rfl

theorem carries_finite :
    oneObjectiveSearch.Carries (fun _ => True) fun d => d.objectives.Finite where
  drawn _ := trivial
  bred _ _ _ := ⟨trivial, trivial⟩
  evaluated {d d' e e'} _ he := by
    obtain ⟨evaluation, chromosome, bench, hevaluate, rfl, -⟩ := Search.evaluateCandidate_engine he
    obtain ⟨edits, -, hanswer⟩ := evaluate_eq_ok (congrArg Prod.fst hevaluate)
    obtain ⟨status, rfl⟩ | ⟨-, outcome, b', ⟨artifact, b₀, htested⟩, rfl⟩ :=
      evaluateEdits_cases hanswer
    · intro x hx
      obtain rfl := List.mem_singleton.mp hx
      exact isFinite_largestFloat
    · intro x hx
      obtain rfl := List.mem_singleton.mp hx
      change (outcome.1.fitness _ : Float).isFinite = true
      rw [testArtifact_idle htested]
      decide +kernel
  ranked hd heq := by
    rw [Candidate.objectives_eq_of_unranked_eq heq]
    exact hd

/-- A run of two candidates with one objective ends with the smallest fitness in its population and
in its front. -/
theorem elitism_of_oneObjective :
    (∀ c, oneObjectiveSearch.Reaches twoLineEngine c → ∀ d ∈ c.seen, d.objectives.Finite) ∧
      ∃ r t c, oneObjectiveSearch.run twoLineEngine = .ok (r, t) ∧
        oneObjectiveSearch.Reaches twoLineEngine c ∧ c.Rested ∧
        (∃ x, LeastAt 0 (vectorsOf c.engine.population) x ∧ LeastAt 0 (vectorsOf c.seen) x) ∧
        ∃ x, LeastAt 0 (r.front.map (·.objectives)) x ∧ (x == r.stats.bestFitness) = true := by
  have hfinite : ∀ c, oneObjectiveSearch.Reaches twoLineEngine c →
      ∀ d ∈ c.seen, d.objectives.Finite := fun c hc => (hc.carried carries_finite).seen
  obtain ⟨hrests, hruns⟩ := elitism oneObjectiveSearch twoLineEngine (by decide) (by decide) hfinite
  have hvalid : oneObjectiveConfig.validate = .ok () := rfl
  obtain ⟨r, t, hrun, hcount⟩ := twoLines_run hvalid
    ⟨by decide +kernel, by decide +kernel, by simp [oneObjectiveConfig]⟩ (by decide) (by decide)
  have hevaluated : twoLineEngine.bench.ledger.evaluations < r.stats.totalEvaluations := by
    rw [hcount]
    decide
  have hbest := hruns r t hrun rfl (Or.inl rfl) rfl hevaluated
  obtain ⟨c, hc, hrest, rfl, reason, started, rfl⟩ := Search.reaches_run hrun
  have hseen : c.seen ≠ [] := by
    obtain ⟨x, ⟨⟨v, hv, -⟩, -⟩, -⟩ := hbest
    obtain ⟨a, ha, -⟩ := List.mem_map.mp hv
    obtain ⟨d, hd, -⟩ := List.mem_map.mp ha
    obtain ⟨d', hd', -⟩ := hc.numbered.parents d (hrest.population ▸ List.mem_of_mem_filter hd)
    exact List.ne_nil_of_mem hd'
  exact ⟨hfinite, _, _, c, hrun, hc, hrest, (hrests (by decide) c hc hrest hseen 0 (by decide)).1,
    hbest⟩

end PatchSearch
