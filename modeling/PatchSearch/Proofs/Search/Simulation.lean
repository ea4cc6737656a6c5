import PatchSearch.Proofs.Evaluation.Mirrors
import PatchSearch.Proofs.Search.Growth
import PatchSearch.Proofs.Toolchain

/-!
Runs side by side. Two searches are of one kind if they differ in the number of their generations
and in novelty at most, and evaluate alike on related benches; then they make, evaluate and select
the same candidates. If besides they have one budget and are asked to stop alike, their runs have
one chronicle, and their results agree in all but times. Two searches whose collaborators simulate
each other are of one kind; in particular a run with a log is the run without it.
-/
namespace PatchSearch

variable {α σ τ : Type}

/-- Two engines agree but for their benches, which are related. -/
def Engine.Agree (Q : Bench τ → Bench σ → Prop) (e : Engine α τ) (f : Engine α σ) : Prop :=
  ∃ b', f = { e with bench := b' } ∧ Q e.bench b'

/-- The same answer with engines that agree. -/
def Engine.Answers {β : Type} (Q : Bench τ → Bench σ → Prop) (x : β × Engine α τ)
    (y : β × Engine α σ) : Prop :=
  x.1 = y.1 ∧ x.2.Agree Q y.2

/-- The same answer first, then steps that take the same course from engines that agree. -/
theorem SameCourse.bind_answers {β γ δ : Type} {Q : Bench τ → Bench σ → Prop}
    {P : γ → δ → Prop} {x : Except Fault (β × Engine α τ)} {y : Except Fault (β × Engine α σ)}
    {f : β × Engine α τ → Except Fault γ} {g : β × Engine α σ → Except Fault δ}
    (h : SameCourse (Engine.Answers Q) x y)
    (hfg : ∀ b d d', d.Agree Q d' → SameCourse P (f (b, d)) (g (b, d'))) :
    SameCourse P (x >>= f) (y >>= g) := by
  refine h.bind ?_
  rintro ⟨b, d⟩ ⟨_, d'⟩ ⟨rfl, hd⟩
  exact hfg b d d' hd

/-- The result without its times. -/
def SearchResult.untimed (r : SearchResult α) : SearchResult α :=
  { r with
    patches := r.patches.map PatchRecord.untimed
    stats := { r.stats with elapsedSeconds := 0.0, evaluationsPerSecond := 0.0 } }

/-- Two searches that differ in the number of their generations and in novelty at most, and whose
evaluations on related benches have the same gist. -/
structure Search.Kindred [Scalar α] (fine : Search α τ) (coarse : Search α σ)
    (Q : Bench τ → Bench σ → Prop) : Prop where
  config : coarse.config =
    { fine.config with maxGenerations := coarse.config.maxGenerations }
  setup : coarse.setup = { fine.setup with novelty := coarse.setup.novelty }
  ledger : ∀ {b b'}, Q b b' → b.ledger.untimed = b'.ledger.untimed
  evaluate : ∀ {b b'} c, Q b b' →
    Matched (SameCourse fun x y => x.1.SameGist y.1 ∧ x.2 = y.2) Q
      (evaluate (α := α) fine.setup fine.tools c b) (evaluate coarse.setup coarse.tools c b')

namespace Search.Kindred

variable [Scalar α] {fine : Search α τ} {coarse : Search α σ} {Q : Bench τ → Bench σ → Prop}
  {e : Engine α τ} {f : Engine α σ}

theorem populationSize (h : fine.Kindred coarse Q) :
    coarse.config.populationSize = fine.config.populationSize := by
  rw [h.config]

theorem objectives (h : fine.Kindred coarse Q) :
    coarse.setup.objectives = fine.setup.objectives := by
  rw [h.setup]

theorem bounds (h : fine.Kindred coarse Q) : coarse.bounds = fine.bounds := by
  unfold Search.bounds
  rw [h.setup]

theorem mutationRate (h : fine.Kindred coarse Q) : coarse.mutationRate = fine.mutationRate := by
  have hrate : coarse.config.mutationProbability = fine.config.mutationProbability := by
    rw [h.config]
  simp only [Search.mutationRate, hrate, h.bounds]

/-- The books of engines that agree count the same evaluations and patches. -/
theorem counts (h : fine.Kindred coarse Q) (he : e.Agree Q f) :
    f.bench.ledger.evaluations = e.bench.ledger.evaluations ∧
      f.bench.ledger.patches.length = e.bench.ledger.patches.length := by
  obtain ⟨b', rfl, hb⟩ := he
  obtain ⟨hevaluations, -, hpatches, -⟩ := Ledger.untimed_eq_iff.mp (h.ledger hb)
  exact ⟨hevaluations.symm, congrArg List.length hpatches.symm⟩

theorem newCandidate (h : fine.Kindred coarse Q) (he : e.Agree Q f) (c : Chromosome)
    (parents : List Nat) :
    Engine.Answers Q (fine.newCandidate e c parents) (coarse.newCandidate f c parents) := by
  obtain ⟨b', rfl, hb⟩ := he
  simp only [Search.newCandidate, h.objectives]
  exact ⟨rfl, b', rfl, hb⟩

theorem randomCandidates (h : fine.Kindred coarse Q) (he : e.Agree Q f) (n : Nat) :
    SameCourse (Engine.Answers Q) (fine.randomCandidates n e) (coarse.randomCandidates n f) := by
  have hstrategy : coarse.config.initialization = fine.config.initialization := by
    rw [h.config]
  have hmu : coarse.config.mu = fine.config.mu := by rw [h.config]
  induction n generalizing e f with
  | zero => exact SameCourse.ok ⟨rfl, he⟩
  | succ n ih =>
    obtain ⟨b', rfl, hb⟩ := he
    unfold Search.randomCandidates
    rw [hstrategy, hmu, h.bounds]
    refine SameCourse.step fun drawn => ?_
    have hnew := h.newCandidate (e := { e with random := drawn.2 })
      (f := { e with random := drawn.2, bench := b' }) ⟨b', rfl, hb⟩ drawn.1 []
    refine SameCourse.bind_answers (ih hnew.2) fun rest d d' hd => SameCourse.pure ⟨?_, hd⟩
    dsimp only
    rw [h.objectives]

theorem populate (h : fine.Kindred coarse Q) (he : e.Agree Q f) :
    SameCourse (Engine.Agree Q) (fine.populate e) (coarse.populate f) := by
  obtain ⟨b', rfl, hb⟩ := he
  unfold Search.populate
  rw [h.populationSize]
  have hmade := h.randomCandidates (e := { e with generation := 0 })
    (f := { e with generation := 0, bench := b' }) ⟨b', rfl, hb⟩ fine.config.populationSize
  refine SameCourse.bind_answers hmade fun population d d' hd => SameCourse.pure ?_
  obtain ⟨b'', rfl, hb''⟩ := hd
  exact ⟨b'', rfl, hb''⟩

theorem evaluateCandidate (h : fine.Kindred coarse Q) (he : e.Agree Q f) (c : Candidate α) :
    SameCourse (Engine.Answers Q) (fine.evaluateCandidate c e)
      (coarse.evaluateCandidate c f) := by
  obtain ⟨b', rfl, hb⟩ := he
  have hevaluated := h.evaluate c.chromosome hb
  unfold Search.evaluateCandidate
  generalize PatchSearch.evaluate (α := α) fine.setup fine.tools c.chromosome e.bench = x
    at hevaluated ⊢
  generalize PatchSearch.evaluate (α := α) coarse.setup coarse.tools c.chromosome b' = y
    at hevaluated ⊢
  obtain ⟨answer, d⟩ := x
  obtain ⟨answer', d'⟩ := y
  obtain ⟨hanswer, hd⟩ := hevaluated
  refine SameCourse.bind hanswer ?_
  rintro ⟨a, c₁⟩ ⟨a', c₁'⟩ ⟨⟨hstatus, -, hobjectives, hfitness⟩, hchromosome⟩
  dsimp only at hstatus hobjectives hfitness hchromosome ⊢
  rw [hstatus, hobjectives, hfitness, hchromosome]
  exact SameCourse.pure ⟨rfl, d', rfl, hd⟩

theorem mate (h : fine.Kindred coarse Q) (he : e.Agree Q f) :
    SameCourse (fun x y => x.1 = y.1 ∧ Engine.Answers Q x.2 y.2) (fine.mate e)
      (coarse.mate f) := by
  have hcrossover : coarse.config.crossoverProbability = fine.config.crossoverProbability := by
    rw [h.config]
  obtain ⟨b', rfl, hb⟩ := he
  unfold Search.mate
  rw [hcrossover, h.bounds, h.mutationRate]
  refine SameCourse.step fun i => SameCourse.step fun j => SameCourse.step fun p =>
    SameCourse.step fun q => SameCourse.step fun crossed => ?_
  dsimp only
  split
  · refine SameCourse.step fun pair => SameCourse.step fun a => SameCourse.step fun b => ?_
    exact SameCourse.pure ⟨rfl, rfl, b', rfl, hb⟩
  · refine SameCourse.step fun pair => SameCourse.step fun a => SameCourse.step fun b => ?_
    exact SameCourse.pure ⟨rfl, rfl, b', rfl, hb⟩

theorem offspring (h : fine.Kindred coarse Q) (he : e.Agree Q f) (n : Nat) :
    SameCourse (Engine.Answers Q) (fine.offspring n e) (coarse.offspring n f) := by
  induction n using Nat.strongRecOn generalizing e f with
  | ind n ih =>
    match n with
    | 0 => exact SameCourse.ok ⟨rfl, he⟩
    | 1 =>
      unfold Search.offspring
      refine SameCourse.bind (h.mate he) ?_
      rintro ⟨pair, parents, d⟩ ⟨_, _, d'⟩ ⟨rfl, rfl, hd⟩
      dsimp only at hd ⊢
      have hnew := h.newCandidate hd pair.1 parents
      exact SameCourse.pure ⟨congrArg (fun c => [c]) hnew.1, hnew.2⟩
    | n + 2 =>
      unfold Search.offspring
      refine SameCourse.bind (h.mate he) ?_
      rintro ⟨pair, parents, d⟩ ⟨_, _, d'⟩ ⟨rfl, rfl, hd⟩
      dsimp only at hd ⊢
      have hfirst := h.newCandidate hd pair.1 parents
      have hsecond := h.newCandidate hfirst.2 pair.2 parents
      refine SameCourse.bind_answers (ih n (by omega) hsecond.2) fun rest d d' hd =>
        SameCourse.pure ⟨?_, hd⟩
      dsimp only
      rw [hfirst.1, hsecond.1]

theorem survive (h : fine.Kindred coarse Q) (he : e.Agree Q f) (pool : List (Candidate α)) :
    SameCourse (Engine.Agree Q) (fine.survive pool e) (coarse.survive pool f) := by
  obtain ⟨b', rfl, hb⟩ := he
  unfold Search.survive
  rw [h.populationSize]
  exact SameCourse.step fun population => SameCourse.pure ⟨b', rfl, hb⟩

theorem recordHistory (h : fine.Kindred coarse Q) (he : e.Agree Q f) :
    SameCourse (Engine.Agree Q) (Search.recordHistory e) (Search.recordHistory f) := by
  have hpatches := (h.counts he).2
  obtain ⟨b', rfl, hb⟩ := he
  unfold Search.recordHistory
  rw [hpatches]
  exact SameCourse.step fun spread => SameCourse.pure ⟨b', rfl, hb⟩

end Search.Kindred

/-- Two searches of one kind with one budget that are asked to stop alike. -/
structure Search.Twins [Scalar α] (fine : Search α τ) (coarse : Search α σ)
    (Q : Bench τ → Bench σ → Prop) : Prop extends fine.Kindred coarse Q where
  budget : coarse.config.maxGenerations = fine.config.maxGenerations
  cancelled : ∀ {b b'}, Q b b' →
    Alike (Bench.Worlds Q b b') (fine.tools.cancelled b.world) (coarse.tools.cancelled b'.world)
  notify : ∀ {b b'} p, Q b b' →
    Bench.Worlds Q b b' (fine.notify p b.world) (coarse.notify p b'.world)

namespace Search.Twins

variable [Scalar α] {fine : Search α τ} {coarse : Search α σ} {Q : Bench τ → Bench σ → Prop}
  {e : Engine α τ} {f : Engine α σ}

theorem sameConfig (h : fine.Twins coarse Q) : coarse.config = fine.config := by
  rw [h.config, h.budget]

theorem look (h : fine.Twins coarse Q) (he : e.Agree Q f) :
    Engine.Answers Q (fine.look e) (coarse.look f) := by
  obtain ⟨b', rfl, hb⟩ := he
  obtain ⟨stopped, w, v, hx, hy, hw⟩ := h.cancelled hb
  simp only [Search.look, hx, hy]
  exact ⟨rfl, _, rfl, hw⟩

theorem stopReason? (h : fine.Twins coarse Q) (he : e.Agree Q f) :
    SameCourse (Engine.Answers Q) (fine.stopReason? e) (coarse.stopReason? f) := by
  unfold Search.stopReason?
  have hlooked := h.look he
  generalize fine.look e = x at hlooked
  generalize coarse.look f = y at hlooked
  obtain ⟨stopped, d⟩ := x
  obtain ⟨stopped', d'⟩ := y
  obtain ⟨hstopped, hd⟩ := hlooked
  dsimp only at hstopped hd ⊢
  subst hstopped
  split
  · exact SameCourse.pure ⟨rfl, hd⟩
  · rw [h.sameConfig, (h.counts hd).1]
    exact SameCourse.step fun budget => SameCourse.pure ⟨rfl, hd⟩

theorem evaluateAll (h : fine.Twins coarse Q) (he : e.Agree Q f) (cs : List (Candidate α)) :
    SameCourse (Engine.Answers Q) (fine.evaluateAll cs e) (coarse.evaluateAll cs f) := by
  induction cs generalizing e f with
  | nil => exact SameCourse.ok ⟨rfl, he⟩
  | cons c cs ih =>
    unfold Search.evaluateAll
    refine SameCourse.bind_answers (h.stopReason? he) fun reason d d' hd => ?_
    cases reason with
    | some reason => exact SameCourse.pure ⟨rfl, hd⟩
    | none =>
      refine SameCourse.bind_answers (h.evaluateCandidate hd c) fun c' d d' hd => ?_
      exact SameCourse.bind_answers (ih hd) fun rest d d' hd => SameCourse.pure ⟨rfl, hd⟩

theorem progressWhen (h : fine.Twins coarse Q) (he : e.Agree Q f) (stopped : Bool) :
    fine.progressWhen stopped e = coarse.progressWhen stopped f := by
  obtain ⟨hevaluations, hpatches⟩ := h.counts he
  obtain ⟨b', rfl, hb⟩ := he
  unfold Search.progressWhen
  rw [hevaluations, hpatches, h.sameConfig]

theorem tell (h : fine.Twins coarse Q) (he : e.Agree Q f) :
    SameCourse (Engine.Agree Q) (fine.tell e) (coarse.tell f) := by
  have hlooked := h.look he
  unfold Search.tell
  dsimp only
  rw [h.progressWhen hlooked.2, hlooked.1]
  obtain ⟨b', hd, hb⟩ := hlooked.2
  refine SameCourse.step fun p => SameCourse.pure ?_
  rw [hd]
  exact ⟨_, rfl, h.notify p hb⟩

theorem judge (h : fine.Twins coarse Q) (he : e.Agree Q f)
    (parents made : List (Candidate α)) :
    SameCourse (Engine.Answers Q) (fine.judge parents made e) (coarse.judge parents made f) := by
  unfold Search.judge
  refine SameCourse.bind_answers (h.evaluateAll he made) fun evaluated d d' hd => ?_
  refine SameCourse.bind (h.survive hd _) fun e₁ e₁' h₁ => ?_
  refine SameCourse.bind (h.recordHistory h₁) fun e₂ e₂' h₂ => ?_
  have hsurvivors : e₂'.population = e₂.population := by
    obtain ⟨b', rfl, -⟩ := h₂
    rfl
  refine SameCourse.bind (h.tell h₂) fun e₃ e₃' h₃ => SameCourse.pure ⟨?_, h₃⟩
  dsimp only
  rw [hsurvivors]

theorem opening (h : fine.Twins coarse Q) (he : e.Agree Q f) :
    SameCourse (Engine.Answers Q) (fine.opening e) (coarse.opening f) := by
  unfold Search.opening
  refine SameCourse.bind (h.populate he) fun e₁ e₁' h₁ => ?_
  refine SameCourse.bind (h.tell h₁) fun e₂ e₂' h₂ => ?_
  have hpopulation : e₂'.population = e₂.population := by
    obtain ⟨b', rfl, -⟩ := h₂
    rfl
  rw [hpopulation]
  exact h.judge h₂ [] e₂.population

theorem turn (h : fine.Twins coarse Q) (he : e.Agree Q f) :
    SameCourse (Engine.Answers Q) (fine.turn e) (coarse.turn f) := by
  obtain ⟨b', rfl, hb⟩ := he
  have hnext : Engine.Agree Q { e with generation := e.generation + 1 }
      { e with generation := e.generation + 1, bench := b' } := ⟨b', rfl, hb⟩
  unfold Search.turn
  dsimp only
  rw [h.populationSize]
  exact SameCourse.bind_answers (h.offspring hnext _) fun made d d' hd =>
    h.judge hd e.population made

theorem turns (h : fine.Twins coarse Q) (he : e.Agree Q f) (fuel : Nat) :
    SameCourse (fun x y => x.1 = y.1 ∧ Engine.Answers Q x.2 y.2) (fine.turns fuel e)
      (coarse.turns fuel f) := by
  induction fuel generalizing e f with
  | zero => exact SameCourse.error _
  | succ fuel ih =>
    unfold Search.turns
    refine SameCourse.bind_answers (h.stopReason? he) fun reason d d' hd => ?_
    have hpopulation : d'.population = d.population := by
      obtain ⟨b', rfl, -⟩ := hd
      rfl
    cases reason with
    | some reason => exact SameCourse.pure ⟨rfl, rfl, hd⟩
    | none =>
      dsimp only
      rw [hpopulation]
      split
      · exact SameCourse.pure ⟨rfl, rfl, hd⟩
      · refine SameCourse.bind (h.turn hd) fun x y hxy => ?_
        refine SameCourse.bind (ih hxy.2) fun r r' hr => SameCourse.pure ⟨?_, hr.2⟩
        dsimp only
        rw [hxy.1, hr.1]

theorem untimed_result (h : fine.Twins coarse Q) (he : e.Agree Q f) (reason : StopReason)
    (started started' : Nat) :
    (fine.result reason started e).untimed = (coarse.result reason started' f).untimed := by
  obtain ⟨b', rfl, hb⟩ := he
  obtain ⟨hevaluations, -, -, hrecords, -⟩ := Ledger.untimed_eq_iff.mp (h.ledger hb)
  simp only [Search.result, SearchResult.untimed, hevaluations, hrecords]

/-- Whole runs come to the same fault, or to the same candidates and populations and to results
that agree in all but times. -/
theorem chronicle (h : fine.Twins coarse Q) (he : e.Agree Q f) :
    SameCourse (fun x y => x.1 = y.1 ∧ x.2.1.untimed = y.2.1.untimed ∧ x.2.2.Agree Q y.2.2)
      (fine.chronicle e) (coarse.chronicle f) := by
  unfold Search.chronicle
  dsimp only
  rw [h.sameConfig]
  refine SameCourse.step fun budget => ?_
  refine SameCourse.bind_answers (h.opening he) fun b d d' hd => ?_
  refine SameCourse.bind (h.turns hd (budget + 1)) ?_
  rintro ⟨rest, reason, d⟩ ⟨_, _, d'⟩ ⟨rfl, rfl, hd⟩
  exact SameCourse.pure ⟨rfl, h.untimed_result hd reason _ _, hd⟩

end Search.Twins

/-- The collaborators of two searches with one configuration and setup simulate each other. -/
structure Search.Simulation (fine : Search α τ) (coarse : Search α σ)
    (Q : Bench τ → Bench σ → Prop) : Prop where
  config : fine.config = coarse.config
  setup : fine.setup = coarse.setup
  tools : PatchSearch.Simulation fine.setup fine.tools coarse.tools Q
  begun : ∀ {b b'}, Q b b' → Q b.begun b'.begun
  cancelled : ∀ {b b'}, Q b b' →
    Alike (Bench.Worlds Q b b') (fine.tools.cancelled b.world) (coarse.tools.cancelled b'.world)
  notify : ∀ {b b'} p, Q b b' →
    Bench.Worlds Q b b' (fine.notify p b.world) (coarse.notify p b'.world)

namespace Search.Simulation

variable [Scalar α] {fine : Search α τ} {coarse : Search α σ} {Q : Bench τ → Bench σ → Prop}
  {e : Engine α τ} {f : Engine α σ}

theorem twins (h : fine.Simulation coarse Q) : fine.Twins coarse Q where
  config := by rw [h.config]
  setup := by rw [h.setup]
  ledger hb := congrArg Ledger.untimed (h.tools.ledger hb)
  evaluate c hb := by
    have hevaluated := (h.tools.evaluate (α := α) (h.begun hb) c).matched
      (P := SameCourse fun x y => x.1.SameGist y.1 ∧ x.2 = y.2) fun answer =>
        (SameCourse.refl answer).mono fun x y heq => heq ▸ ⟨⟨rfl, rfl, rfl, rfl⟩, rfl⟩
    rwa [h.setup] at hevaluated ⊢
  budget := by rw [h.config]
  cancelled := h.cancelled
  notify := h.notify

omit [Scalar α] in
theorem result (h : fine.Simulation coarse Q) (he : e.Agree Q f) (reason : StopReason)
    (started : Nat) : fine.result reason started e = coarse.result reason started f := by
  obtain ⟨b', rfl, hb⟩ := he
  unfold Search.result
  rw [h.tools.clock hb, h.tools.ledger hb]

/-- Whole runs come to the same fault or to the same result, and leave engines that agree. -/
theorem run (h : fine.Simulation coarse Q) (he : e.Agree Q f) :
    SameCourse (Engine.Answers Q) (fine.run e) (coarse.run f) := by
  have hclock : fine.tools.clock e.bench.world = coarse.tools.clock f.bench.world := by
    obtain ⟨b', rfl, hb⟩ := he
    exact h.tools.clock hb
  unfold Search.run
  rw [hclock, h.config]
  refine SameCourse.step fun budget => ?_
  rw [begin_eq, begin_eq]
  refine SameCourse.bind ((h.twins.opening he).map fun x y hxy => hxy.2) fun e₁ e₁' h₁ => ?_
  rw [generations_eq, generations_eq]
  have hturns := (h.twins.turns h₁ (budget + 1)).map fun x y hxy => hxy.2
  exact SameCourse.bind_answers hturns fun reason d d' hd =>
    SameCourse.pure ⟨h.result hd reason _, hd⟩

end Search.Simulation

/-- The search with a log of what its collaborators answer and of what is told. -/
def Search.traced (s : Search α σ) : Search α (Traced α σ) where
  config := s.config
  setup := s.setup
  tools := s.tools.traced
  notify p w := ⟨s.notify p w.world, .told p :: w.events⟩

/-- The engine with an empty log. -/
def Engine.traced (e : Engine α σ) : Engine α (Traced α σ) :=
  { e with bench := e.bench.traced }

/-- The engine without its log. -/
def Engine.erase (e : Engine α (Traced α σ)) : Engine α σ :=
  { e with bench := e.bench.erase }

/-- Forgetting the log commutes with a whole run. -/
theorem Search.traced_simulation (s : Search α σ) :
    s.traced.Simulation s (Bench.Agree fun w v => w.world = v) where
  config := rfl
  setup := rfl
  tools := s.tools.traced_simulates.simulation s.setup
  begun hb := { hb with ledger := congrArg (fun l => l.begin.2) hb.ledger }
  cancelled {b b'} hb := by
    obtain ⟨archive, random, ledger, world⟩ := b
    obtain ⟨archive', random', ledger', world'⟩ := b'
    obtain ⟨rfl, rfl, rfl, rfl⟩ := hb
    exact ⟨_, _, _, rfl, rfl, rfl, rfl, rfl, rfl⟩
  notify p hb := ⟨hb.archive, hb.random, hb.ledger, congrArg (s.notify p) hb.world⟩

theorem Search.run_erase [Scalar α] (s : Search α σ) (e : Engine α σ) :
    s.run e = (s.traced.run e.traced).map fun r => (r.1, r.2.erase) := by
  have he : e.traced.Agree (Bench.Agree fun w v => w.world = v) e :=
    ⟨e.bench, rfl, rfl, rfl, rfl, rfl⟩
  obtain ⟨fault, hx, hy⟩ | ⟨⟨r, d⟩, ⟨r', d'⟩, hx, hy, hr, b', hd, hb⟩ :=
    s.traced_simulation.run he
  · rw [hx, hy]
    rfl
  · rw [hx, hy]
    obtain ⟨archive, random, ledger, world⟩ := b'
    obtain ⟨harchive, hrandom, hledger, hworld⟩ := hb
    dsimp only at hr hd harchive hrandom hledger hworld
    subst hr hd harchive hrandom hledger hworld
    rfl

end PatchSearch
