import PatchSearch.Proofs.Evaluation.Reachable
import PatchSearch.Proofs.Search.Selection
import PatchSearch.Search.Engine

/-!
Runs step by step. A course is a run at work: its engine, and apart from it the candidates that
the present generation holds, waiting for their evaluation or with it behind them. One step looks,
tells, records, evaluates one candidate, gives up those that wait, selects the survivors or breeds
the next generation. Every whole run is made of such steps, and so is every run that comes to a
fault up to there; a property of candidates that no step breaks is one of all candidates that a
run ever holds. A run makes some of these steps only: it breeds right after a look that lets it go
on.
-/
namespace PatchSearch

variable {α σ : Type}

/-- A run at work: the survivors of the last selection, the candidates of the present generation
that wait for their evaluation and those that have had it, and the candidates that were evaluated
in earlier generations. -/
structure Course (α σ : Type) where
  engine : Engine α σ
  parents : List (Candidate α)
  waiting : List (Candidate α)
  evaluated : List (Candidate α)
  earlier : List (Candidate α)

namespace Course

/-- All candidates that were evaluated so far, each as its evaluation left it. -/
def seen (c : Course α σ) : List (Candidate α) :=
  c.earlier ++ c.evaluated

/-- All candidates that the run holds or has evaluated. -/
def held (c : Course α σ) : List (Candidate α) :=
  c.engine.population ++ c.parents ++ c.waiting ++ c.seen

/-- Between two generations: the survivors are the population and no other candidate is held. -/
structure Rested (c : Course α σ) : Prop where
  population : c.engine.population = c.parents
  waiting : c.waiting = []
  evaluated : c.evaluated = []

theorem Rested.seen {c : Course α σ} (h : c.Rested) : c.seen = c.earlier := by
  rw [Course.seen, h.evaluated, List.append_nil]

/-- A property of new candidates and one of evaluated candidates hold of all that the run holds. -/
structure Carried (New Evaluated : Candidate α → Prop) (c : Course α σ) : Prop where
  population : ∀ d ∈ c.engine.population, New d ∨ Evaluated d
  waiting : ∀ d ∈ c.waiting, New d
  parents : ∀ d ∈ c.parents, Evaluated d
  seen : ∀ d ∈ c.seen, Evaluated d

/-- What new and evaluated candidates have in common holds of all that the run holds. -/
theorem Carried.held {New Evaluated P : Candidate α → Prop} {c : Course α σ}
    (h : c.Carried New Evaluated) (hnew : ∀ d, New d → P d) (hevaluated : ∀ d, Evaluated d → P d) :
    ∀ d ∈ c.held, P d := by
  intro d hd
  simp only [Course.held, List.mem_append] at hd
  obtain ((hd | hd) | hd) | hd := hd
  · exact (h.population d hd).elim (hnew d) (hevaluated d)
  · exact hevaluated d (h.parents d hd)
  · exact hnew d (h.waiting d hd)
  · exact hevaluated d (h.seen d hd)

end Course

namespace Search

variable [Scalar α]

/-- One step of a run. -/
inductive Step (s : Search α σ) : Course α σ → Course α σ → Prop
  | look (c : Course α σ) : s.Step c { c with engine := (s.look c.engine).2 }
  | tell {c : Course α σ} {e : Engine α σ} (h : s.tell c.engine = .ok e) :
      s.Step c { c with engine := e }
  | record {c : Course α σ} {e : Engine α σ} (h : recordHistory c.engine = .ok e) :
      s.Step c { c with engine := e }
  | evaluate {c : Course α σ} {d d' : Candidate α} {rest : List (Candidate α)}
      {e e' : Engine α σ} (hwaiting : c.waiting = d :: rest)
      (hgo : s.stopReason? c.engine = .ok (none, e))
      (h : s.evaluateCandidate d e = .ok (d', e')) :
      s.Step c { c with engine := e', waiting := rest, evaluated := c.evaluated ++ [d'] }
  | leave {c : Course α σ} {reason : StopReason} {e : Engine α σ}
      (h : s.stopReason? c.engine = .ok (some reason, e)) :
      s.Step c { c with engine := e, waiting := [] }
  | survive {c : Course α σ} {e : Engine α σ} (hwaiting : c.waiting = [])
      (h : s.survive (c.parents ++ c.evaluated) c.engine = .ok e) :
      s.Step c ⟨e, e.population, [], [], c.seen⟩
  | breed {c : Course α σ} {children : List (Candidate α)} {e : Engine α σ} (hrest : c.Rested)
      (h : s.offspring s.config.populationSize
        { c.engine with generation := c.engine.generation + 1 } = .ok (children, e)) :
      s.Step c { c with engine := e, waiting := children }

/-- What a run that starts with an engine comes to, step by step. -/
inductive Reaches (s : Search α σ) (e₀ : Engine α σ) : Course α σ → Prop
  | populate {e : Engine α σ} (h : s.populate e₀ = .ok e) :
      s.Reaches e₀ ⟨e, [], e.population, [], []⟩
  | step {c c' : Course α σ} (h : s.Reaches e₀ c) (hstep : s.Step c c') : s.Reaches e₀ c'

/-- One step that a run makes: a step within a generation, or breeding the next one after a look
that does not stop the run. -/
inductive Takes (s : Search α σ) : Course α σ → Course α σ → Prop
  | within {c c' : Course α σ} (h : s.Step c c')
      (hsame : c'.engine.generation = c.engine.generation) : s.Takes c c'
  | turn {c : Course α σ} {children : List (Candidate α)} {e e' : Engine α σ} (hrest : c.Rested)
      (hgo : s.stopReason? c.engine = .ok (none, e))
      (h : s.offspring s.config.populationSize { e with generation := e.generation + 1 } =
        .ok (children, e')) :
      s.Takes c { c with engine := e', waiting := children }

/-- What a run that starts with an engine goes through. -/
inductive Visits (s : Search α σ) (e₀ : Engine α σ) : Course α σ → Prop
  | populate {e : Engine α σ} (h : s.populate e₀ = .ok e) :
      s.Visits e₀ ⟨e, [], e.population, [], []⟩
  | step {c c' : Course α σ} (h : s.Visits e₀ c) (hstep : s.Takes c c') : s.Visits e₀ c'

section Engines

variable {s : Search α σ} {e e' : Engine α σ}

/-! What each operation does to an engine beside its world. -/

omit [Scalar α] in
theorem stopReason?_engine {reason : Option StopReason}
    (h : s.stopReason? e = .ok (reason, e')) : e' = (s.look e).2 := by
  unfold stopReason? at h
  dsimp only at h
  split at h
  · cases h
    rfl
  · obtain ⟨budget, -, h⟩ := bind_eq_ok_iff.mp h
    cases h
    rfl

omit [Scalar α] in
theorem tell_engine (h : s.tell e = .ok e') :
    ∃ world, e' = { e with bench := { e.bench with world } } := by
  obtain ⟨p, -, h⟩ := bind_eq_ok_iff.mp h
  cases h
  exact ⟨_, rfl⟩

theorem recordHistory_engine (h : recordHistory e = .ok e') :
    ∃ history, e' = { e with history } := by
  obtain ⟨spread, -, h⟩ := bind_eq_ok_iff.mp h
  cases h
  exact ⟨_, rfl⟩

theorem survive_engine {pool : List (Candidate α)} (h : s.survive pool e = .ok e') :
    ∃ population, survivors s.config.populationSize pool = .ok population ∧
      e' = { e with population } := by
  obtain ⟨population, hsurvivors, h⟩ := bind_eq_ok_iff.mp h
  cases h
  exact ⟨population, hsurvivors, rfl⟩

theorem randomCandidates_engine {n : Nat} {cs : List (Candidate α)}
    (h : s.randomCandidates n e = .ok (cs, e')) :
    ∃ random nextId, e' = { e with random, nextId } := by
  induction n generalizing e cs with
  | zero =>
    cases h
    exact ⟨_, _, rfl⟩
  | succ n ih =>
    obtain ⟨⟨d, random⟩, -, h⟩ := bind_eq_ok_iff.mp h
    obtain ⟨⟨rest, e₁⟩, hrest, h⟩ := bind_eq_ok_iff.mp h
    cases h
    obtain ⟨random', nextId, rfl⟩ := ih hrest
    exact ⟨random', nextId, rfl⟩

theorem populate_engine (h : s.populate e = .ok e') :
    ∃ population random nextId,
      e' = { e with population, generation := 0, random, nextId } := by
  obtain ⟨⟨population, e₁⟩, hdrawn, h⟩ := bind_eq_ok_iff.mp h
  cases h
  obtain ⟨random, nextId, rfl⟩ := randomCandidates_engine hdrawn
  exact ⟨population, random, nextId, rfl⟩

/-- What the evaluation of a candidate makes of it and of the engine. -/
theorem evaluateCandidate_engine {d d' : Candidate α}
    (h : s.evaluateCandidate d e = .ok (d', e')) :
    ∃ evaluation chromosome bench,
      evaluate s.setup s.tools d.chromosome e.bench = (.ok (evaluation, chromosome), bench) ∧
      d' = { d with
        chromosome, objectives := evaluation.objectives, status := evaluation.status } ∧
      e' = { e with
        bestFitness := (evaluation.fitness.map (Scalar.lesser e.bestFitness)).getD e.bestFitness
        bench } := by
  unfold evaluateCandidate at h
  rcases hrun : evaluate s.setup s.tools d.chromosome e.bench with ⟨answer, bench⟩
  rw [hrun] at h
  obtain ⟨⟨evaluation, chromosome⟩, rfl, h⟩ := bind_eq_ok_iff.mp h
  cases h
  refine ⟨evaluation, chromosome, bench, rfl, rfl, ?_⟩
  cases evaluation.fitness <;> rfl

end Engines

section Runs

variable {s : Search α σ} {e₀ : Engine α σ}

/-- What was evaluated stays so. -/
theorem Step.seen_subset {c c' : Course α σ} (h : s.Step c c') : c.seen ⊆ c'.seen := by
  cases h with
  | evaluate =>
    rw [Course.seen, Course.seen, ← List.append_assoc]
    exact List.subset_append_left _ _
  | survive => exact List.subset_append_left _ _
  | _ => exact List.Subset.refl _

omit [Scalar α] in
theorem rested_look {c : Course α σ} (h : c.Rested) :
    Course.Rested { c with engine := (s.look c.engine).2 } :=
  ⟨h.population, h.waiting, h.evaluated⟩

theorem Reaches.takes {c c' : Course α σ} (h : s.Reaches e₀ c) (hstep : s.Takes c c') :
    s.Reaches e₀ c' := by
  cases hstep with
  | within hstep => exact h.step hstep
  | turn hrest hgo hbreed =>
    obtain rfl := stopReason?_engine hgo
    exact (h.step (.look c)).step (.breed (rested_look hrest) hbreed)

theorem Visits.reaches {c : Course α σ} (h : s.Visits e₀ c) : s.Reaches e₀ c := by
  induction h with
  | populate hp => exact .populate hp
  | step _ hstep ih => exact ih.takes hstep

theorem Visits.tell {c : Course α σ} (h : s.Visits e₀ c) {e : Engine α σ}
    (ht : s.tell c.engine = .ok e) : s.Visits e₀ { c with engine := e } := by
  have hstep := Step.tell ht
  obtain ⟨world, rfl⟩ := tell_engine ht
  exact h.step (.within hstep rfl)

theorem Visits.record {c : Course α σ} (h : s.Visits e₀ c) {e : Engine α σ}
    (hr : recordHistory c.engine = .ok e) : s.Visits e₀ { c with engine := e } := by
  have hstep := Step.record (s := s) hr
  obtain ⟨history, rfl⟩ := recordHistory_engine hr
  exact h.step (.within hstep rfl)

/-- Evaluating all that wait is a course of steps, and leaves none of them waiting. -/
theorem Visits.evaluateAll {c : Course α σ} (h : s.Visits e₀ c) {done : List (Candidate α)}
    {e : Engine α σ} (he : s.evaluateAll c.waiting c.engine = .ok (done, e)) :
    s.Visits e₀ { c with engine := e, waiting := [], evaluated := c.evaluated ++ done } := by
  obtain ⟨engine, parents, waiting, evaluated, earlier⟩ := c
  dsimp only at he ⊢
  induction waiting generalizing engine evaluated done with
  | nil =>
    cases he
    simpa using h
  | cons d rest ih =>
    obtain ⟨⟨reason, e₁⟩, hstop, he⟩ := bind_eq_ok_iff.mp he
    cases reason with
    | some reason =>
      cases he
      have hleave := Step.leave (c := ⟨engine, parents, d :: rest, evaluated, earlier⟩) hstop
      obtain rfl := stopReason?_engine hstop
      simpa using h.step (.within hleave rfl)
    | none =>
      obtain ⟨⟨d', e₂⟩, hd, he⟩ := bind_eq_ok_iff.mp he
      obtain ⟨⟨ds, e₃⟩, hds, he⟩ := bind_eq_ok_iff.mp he
      cases he
      have hevaluate := Step.evaluate (c := ⟨engine, parents, d :: rest, evaluated, earlier⟩) rfl
        hstop hd
      obtain rfl := stopReason?_engine hstop
      obtain ⟨evaluation, chromosome, bench, -, -, rfl⟩ := evaluateCandidate_engine hd
      simpa using ih _ (evaluated ++ [d']) (h.step (.within hevaluate rfl)) hds

/-- The end of a generation is a course of steps to a rest. -/
theorem Visits.close {c : Course α σ} (h : s.Visits e₀ c) (hwaiting : c.waiting = [])
    {e : Engine α σ}
    (he : (do
      let e ← s.survive (c.parents ++ c.evaluated) c.engine
      let e ← recordHistory e
      s.tell e) = .ok e) :
    ∃ c' : Course α σ, s.Visits e₀ c' ∧ c'.Rested ∧ c'.engine = e := by
  obtain ⟨e₁, hsurvive, he⟩ := bind_eq_ok_iff.mp he
  obtain ⟨e₂, hrecord, htell⟩ := bind_eq_ok_iff.mp he
  have hsurvived : s.Visits e₀ ⟨e₁, e₁.population, [], [], c.seen⟩ := by
    have hstep := Step.survive hwaiting hsurvive
    obtain ⟨population, -, rfl⟩ := survive_engine hsurvive
    exact h.step (.within hstep rfl)
  have hclosed := (hsurvived.record hrecord).tell htell
  obtain ⟨history, rfl⟩ := recordHistory_engine hrecord
  obtain ⟨world, rfl⟩ := tell_engine htell
  exact ⟨_, hclosed, ⟨rfl, rfl, rfl⟩, rfl⟩

theorem visits_begin {e : Engine α σ} (h : s.begin e₀ = .ok e) :
    ∃ c : Course α σ, s.Visits e₀ c ∧ c.Rested ∧ c.engine = e := by
  obtain ⟨e₁, hpopulate, h⟩ := bind_eq_ok_iff.mp h
  obtain ⟨e₂, htell, h⟩ := bind_eq_ok_iff.mp h
  obtain ⟨⟨evaluated, e₃⟩, hevaluate, h⟩ := bind_eq_ok_iff.mp h
  have hpopulation : e₂.population = e₁.population := by
    obtain ⟨world, rfl⟩ := tell_engine htell
    rfl
  rw [hpopulation] at hevaluate
  have hall := ((Visits.populate hpopulate).tell htell).evaluateAll hevaluate
  exact hall.close rfl h

/-- A generation after a look that does not stop the run. -/
theorem Visits.generation {c : Course α σ} (h : s.Visits e₀ c) (hrest : c.Rested)
    {e e' : Engine α σ} (hgo : s.stopReason? c.engine = .ok (none, e))
    (he : s.generation e = .ok e') :
    ∃ c' : Course α σ, s.Visits e₀ c' ∧ c'.Rested ∧ c'.engine = e' := by
  obtain ⟨⟨children, e₁⟩, hbreed, he⟩ := bind_eq_ok_iff.mp he
  obtain ⟨⟨evaluated, e₂⟩, hevaluate, he⟩ := bind_eq_ok_iff.mp he
  have hall := (h.step (.turn hrest hgo hbreed)).evaluateAll hevaluate
  obtain rfl := stopReason?_engine hgo
  dsimp only [look] at hall he
  rw [hrest.population] at he
  rw [hrest.evaluated, List.nil_append] at hall
  exact hall.close rfl he

theorem Visits.generations {c : Course α σ} (h : s.Visits e₀ c) (hrest : c.Rested)
    {fuel : Nat} {reason : StopReason} {e : Engine α σ}
    (he : s.generations fuel c.engine = .ok (reason, e)) :
    ∃ c' : Course α σ, s.Visits e₀ c' ∧ c'.Rested ∧ c'.engine = e := by
  induction fuel generalizing c with
  | zero => cases he
  | succ fuel ih =>
    obtain ⟨⟨found, e₁⟩, hstop, he⟩ := bind_eq_ok_iff.mp he
    obtain rfl := stopReason?_engine hstop
    have hlooked := h.step (.within (.look c) rfl)
    have hrested := rested_look (s := s) hrest
    cases found with
    | some found =>
      cases he
      exact ⟨_, hlooked, hrested, rfl⟩
    | none =>
      dsimp only at he
      split at he
      · cases he
        exact ⟨_, hlooked, hrested, rfl⟩
      · obtain ⟨e₂, hgeneration, he⟩ := bind_eq_ok_iff.mp he
        obtain ⟨c', hc', hrested', rfl⟩ := h.generation hrest hstop hgeneration
        exact ih hc' hrested' he

/-- A whole run is a course of its own steps to a rest, and its result is that of the rest. -/
theorem visits_run {r : SearchResult α} {t : Engine α σ} (h : s.run e₀ = .ok (r, t)) :
    ∃ c : Course α σ, s.Visits e₀ c ∧ c.Rested ∧ c.engine = t ∧
      ∃ reason started, r = s.result reason started t := by
  obtain ⟨budget, -, h⟩ := bind_eq_ok_iff.mp h
  obtain ⟨e₁, hbegin, h⟩ := bind_eq_ok_iff.mp h
  obtain ⟨⟨reason, e₂⟩, hgenerations, h⟩ := bind_eq_ok_iff.mp h
  cases h
  obtain ⟨c, hc, hrest, rfl⟩ := visits_begin hbegin
  obtain ⟨c', hc', hrest', rfl⟩ := hc.generations hrest hgenerations
  exact ⟨c', hc', hrest', rfl, reason, _, rfl⟩

/-- A whole run is a course of steps to a rest, and its result is that of the rest. -/
theorem reaches_run {r : SearchResult α} {t : Engine α σ} (h : s.run e₀ = .ok (r, t)) :
    ∃ c : Course α σ, s.Reaches e₀ c ∧ c.Rested ∧ c.engine = t ∧
      ∃ reason started, r = s.result reason started t := by
  obtain ⟨c, hc, hrested⟩ := visits_run h
  exact ⟨c, hc.reaches, hrested⟩

end Runs

section Candidates

/-- A search hands on a property of new candidates and one of evaluated candidates: what is drawn
or bred is new, what was new is evaluated by its evaluation, and ranks do not matter. -/
structure Carries (s : Search α σ) (New Evaluated : Candidate α → Prop) : Prop where
  drawn : ∀ {e : Engine α σ} {c : Chromosome} {g random : Random},
    Chromosome.random s.config.initialization s.config.mu s.bounds g = .ok (c, random) →
      New (s.newCandidate e c []).1
  bred : ∀ {e e' : Engine α σ} {a b : Chromosome} {parents : List Nat},
    (∀ d ∈ e.population, Evaluated d) → s.mate e = .ok ((a, b), parents, e') →
      ∀ f : Engine α σ, New (s.newCandidate f a parents).1 ∧ New (s.newCandidate f b parents).1
  evaluated : ∀ {d d' : Candidate α} {e e' : Engine α σ}, New d →
    s.evaluateCandidate d e = .ok (d', e') → Evaluated d'
  ranked : ∀ {d d' : Candidate α}, Evaluated d → d'.unranked = d.unranked → Evaluated d'

variable {s : Search α σ} {e₀ : Engine α σ} {New Evaluated : Candidate α → Prop}

/-- The children of two members are mutated from what crossover, if there is any, makes of their
chromosomes; of the engine only the random source changes. -/
theorem mate_spec {e e' : Engine α σ} {a b : Chromosome} {parents : List Nat}
    (h : s.mate e = .ok ((a, b), parents, e')) :
    ∃ p ∈ e.population, ∃ q ∈ e.population, ∃ (crossed : Chromosome × Chromosome)
      (g g₁ g₂ : Random),
      (crossed = (p.chromosome, q.chromosome) ∨
        ∃ g₀, p.chromosome.crossover q.chromosome g₀ = .ok (crossed, g)) ∧
      crossed.1.mutate s.bounds s.mutationRate g = .ok (a, g₁) ∧
      crossed.2.mutate s.bounds s.mutationRate g₁ = .ok (b, g₂) ∧
      parents = [p.id, q.id] ∧ e' = { e with random := g₂ } := by
  obtain ⟨i, -, h⟩ := bind_eq_ok_iff.mp h
  obtain ⟨j, -, h⟩ := bind_eq_ok_iff.mp h
  obtain ⟨p, hp, h⟩ := bind_eq_ok_iff.mp h
  obtain ⟨q, hq, h⟩ := bind_eq_ok_iff.mp h
  obtain ⟨⟨coin, g₀⟩, -, h⟩ := bind_eq_ok_iff.mp h
  have hpair (crossed : Chromosome × Chromosome) (g : Random)
      (h : (do
        let a ← crossed.1.mutate s.bounds s.mutationRate g
        let b ← crossed.2.mutate s.bounds s.mutationRate a.2
        return ((a.1, b.1), [p.id, q.id], { e with random := b.2 })) =
          (.ok ((a, b), parents, e') : Except Fault _)) :
      ∃ g₁ g₂, crossed.1.mutate s.bounds s.mutationRate g = .ok (a, g₁) ∧
        crossed.2.mutate s.bounds s.mutationRate g₁ = .ok (b, g₂) ∧
        parents = [p.id, q.id] ∧ e' = { e with random := g₂ } := by
    obtain ⟨⟨a', g₁⟩, ha, h⟩ := bind_eq_ok_iff.mp h
    obtain ⟨⟨b', g₂⟩, hb, h⟩ := bind_eq_ok_iff.mp h
    cases h
    exact ⟨g₁, g₂, ha, hb, rfl, rfl⟩
  refine ⟨p, List.mem_of_getElem? (getElem?_of_itemAt hp), q,
    List.mem_of_getElem? (getElem?_of_itemAt hq), ?_⟩
  dsimp only at h
  split at h
  · obtain ⟨⟨crossed, g⟩, hcrossed, h⟩ := bind_eq_ok_iff.mp h
    obtain ⟨g₁, g₂, hmutated⟩ := hpair crossed g h
    exact ⟨crossed, g, g₁, g₂, Or.inr ⟨g₀, hcrossed⟩, hmutated⟩
  · obtain ⟨g₁, g₂, hmutated⟩ := hpair (p.chromosome, q.chromosome) g₀ h
    exact ⟨_, g₀, g₁, g₂, Or.inl rfl, hmutated⟩

theorem mate_engine {e e' : Engine α σ} {pair : Chromosome × Chromosome} {parents : List Nat}
    (h : s.mate e = .ok (pair, parents, e')) : ∃ random, e' = { e with random } := by
  obtain ⟨p, -, q, -, crossed, g, g₁, g₂, -, -, -, -, he'⟩ := mate_spec h
  exact ⟨g₂, he'⟩

theorem offspring_engine {n : Nat} {e e' : Engine α σ} {cs : List (Candidate α)}
    (h : s.offspring n e = .ok (cs, e')) : ∃ random nextId, e' = { e with random, nextId } := by
  induction n using Nat.strongRecOn generalizing e e' cs with
  | ind n ih =>
    match n with
    | 0 =>
      cases h
      exact ⟨e.random, e.nextId, rfl⟩
    | 1 =>
      obtain ⟨⟨⟨a, b⟩, parents, e₁⟩, hmate, h⟩ := bind_eq_ok_iff.mp h
      obtain ⟨random, rfl⟩ := mate_engine hmate
      cases h
      exact ⟨random, e.nextId + 1, rfl⟩
    | n + 2 =>
      obtain ⟨⟨⟨a, b⟩, parents, e₁⟩, hmate, h⟩ := bind_eq_ok_iff.mp h
      obtain ⟨⟨rest, e₂⟩, hrest, h⟩ := bind_eq_ok_iff.mp h
      obtain ⟨random, rfl⟩ := mate_engine hmate
      obtain ⟨random', nextId, rfl⟩ := ih n (by omega) hrest
      cases h
      exact ⟨random', nextId, rfl⟩

theorem Carries.randomCandidates (h : s.Carries New Evaluated) {n : Nat} {e e' : Engine α σ}
    {cs : List (Candidate α)} (hdrawn : s.randomCandidates n e = .ok (cs, e')) :
    ∀ d ∈ cs, New d := by
  induction n generalizing e e' cs with
  | zero =>
    cases hdrawn
    simp
  | succ n ih =>
    obtain ⟨⟨c, random⟩, hc, hdrawn⟩ := bind_eq_ok_iff.mp hdrawn
    obtain ⟨⟨rest, e₁⟩, hrest, hdrawn⟩ := bind_eq_ok_iff.mp hdrawn
    cases hdrawn
    intro d hd
    rcases List.mem_cons.mp hd with rfl | hd
    · exact h.drawn hc
    · exact ih hrest d hd

theorem Carries.populate (h : s.Carries New Evaluated) {e e' : Engine α σ}
    (hp : s.populate e = .ok e') : ∀ d ∈ e'.population, New d := by
  obtain ⟨⟨population, e₁⟩, hdrawn, hp⟩ := bind_eq_ok_iff.mp hp
  cases hp
  exact h.randomCandidates hdrawn

theorem Carries.offspring (h : s.Carries New Evaluated) {n : Nat} {e e' : Engine α σ}
    {cs : List (Candidate α)} (he : ∀ d ∈ e.population, Evaluated d)
    (hbred : s.offspring n e = .ok (cs, e')) : ∀ d ∈ cs, New d := by
  induction n using Nat.strongRecOn generalizing e e' cs with
  | ind n ih =>
    match n with
    | 0 =>
      cases hbred
      simp
    | 1 =>
      obtain ⟨⟨⟨a, b⟩, parents, e₁⟩, hmate, hbred⟩ := bind_eq_ok_iff.mp hbred
      cases hbred
      intro d hd
      obtain rfl := List.mem_singleton.mp hd
      exact (h.bred he hmate e₁).1
    | n + 2 =>
      obtain ⟨⟨⟨a, b⟩, parents, e₁⟩, hmate, hbred⟩ := bind_eq_ok_iff.mp hbred
      obtain ⟨⟨rest, e₂⟩, hrest, hbred⟩ := bind_eq_ok_iff.mp hbred
      cases hbred
      obtain ⟨random, rfl⟩ := mate_engine hmate
      intro d hd
      rcases List.mem_cons.mp hd with rfl | hd
      · exact (h.bred he hmate _).1
      · rcases List.mem_cons.mp hd with rfl | hd
        · exact (h.bred he hmate _).2
        · exact ih n (by omega) (by exact he) hrest d hd

theorem Carries.step (h : s.Carries New Evaluated) {c c' : Course α σ}
    (hc : c.Carried New Evaluated) (hstep : s.Step c c') : c'.Carried New Evaluated := by
  obtain ⟨hpopulation, hwaiting, hparents, hseen⟩ := hc
  cases hstep with
  | look => exact ⟨hpopulation, hwaiting, hparents, hseen⟩
  | tell ht =>
    obtain ⟨world, rfl⟩ := tell_engine ht
    exact ⟨hpopulation, hwaiting, hparents, hseen⟩
  | record hr =>
    obtain ⟨history, rfl⟩ := recordHistory_engine hr
    exact ⟨hpopulation, hwaiting, hparents, hseen⟩
  | @evaluate d d' rest e e' hfront hgo he =>
    obtain rfl := stopReason?_engine hgo
    have hd' : Evaluated d' := h.evaluated (hwaiting d (by simp [hfront])) he
    obtain ⟨evaluation, chromosome, bench, -, -, rfl⟩ := evaluateCandidate_engine he
    refine ⟨hpopulation, fun x hx => hwaiting x (by simp [hfront, hx]), hparents, ?_⟩
    intro x hx
    simp only [Course.seen, ← List.append_assoc, List.mem_append, List.mem_singleton] at hx hseen
    rcases hx with hx | rfl
    · exact hseen x hx
    · exact hd'
  | leave hl =>
    obtain rfl := stopReason?_engine hl
    exact ⟨hpopulation, by simp, hparents, hseen⟩
  | survive hnone hs =>
    obtain ⟨population, hsurvivors, rfl⟩ := survive_engine hs
    have hsurvivor (d : Candidate α) (hd : d ∈ population) : Evaluated d := by
      obtain ⟨d', hd', heq⟩ := mem_survivors hsurvivors hd
      refine h.ranked ?_ heq
      rcases List.mem_append.mp hd' with hd' | hd'
      · exact hparents d' hd'
      · exact hseen d' (List.mem_append_right _ hd')
    exact ⟨fun d hd => Or.inr (hsurvivor d hd), by simp, hsurvivor,
      by simpa [Course.seen] using hseen⟩
  | breed hrest hb =>
    obtain ⟨random, nextId, rfl⟩ := offspring_engine hb
    have hbred := h.offspring (by rwa [hrest.population]) hb
    exact ⟨hpopulation, hbred, hparents, hseen⟩

theorem Reaches.carried {c : Course α σ} (hc : s.Reaches e₀ c) (h : s.Carries New Evaluated) :
    c.Carried New Evaluated := by
  induction hc with
  | populate hp =>
    have hdrawn := h.populate hp
    exact ⟨fun d hd => Or.inl (hdrawn d hd), hdrawn, by simp, by simp [Course.seen]⟩
  | step _ hstep ih => exact h.step ih hstep

end Candidates

section Benches

variable {s : Search α σ} {e₀ : Engine α σ}

/-- What evaluations of waiting candidates make of best fitness and bench, and no change of the
world breaks, holds all along a run. -/
theorem Reaches.kept {I : α → Bench σ → Prop} {P : Chromosome → Prop} {c : Course α σ}
    (h : s.Reaches e₀ c) (hstart : I e₀.bestFitness e₀.bench)
    (hworld : ∀ {best b} world, I best b → I best { b with world })
    (hwaiting : ∀ c, s.Reaches e₀ c → ∀ d ∈ c.waiting, P d.chromosome)
    (hevaluate : ∀ {best b b' d d' evaluation}, I best b → P d →
      evaluate s.setup s.tools d b = (.ok (evaluation, d'), b') →
        I ((evaluation.fitness.map (Scalar.lesser best)).getD best) b') :
    I c.engine.bestFitness c.engine.bench := by
  induction h with
  | populate hp =>
    obtain ⟨population, random, nextId, rfl⟩ := populate_engine hp
    exact hstart
  | @step c c' hc hstep ih =>
    cases hstep with
    | look => exact hworld _ ih
    | tell ht =>
      obtain ⟨world, rfl⟩ := tell_engine ht
      exact hworld world ih
    | record hr =>
      obtain ⟨history, rfl⟩ := recordHistory_engine hr
      exact ih
    | @evaluate d d' rest e e' hfront hgo he =>
      obtain rfl := stopReason?_engine hgo
      obtain ⟨evaluation, chromosome, bench, hrun, -, rfl⟩ := evaluateCandidate_engine he
      have hd : P d.chromosome := hwaiting c hc d (by simp [hfront])
      exact hevaluate (hworld _ ih) hd hrun
    | leave hl =>
      obtain rfl := stopReason?_engine hl
      exact hworld _ ih
    | survive _ hs =>
      obtain ⟨population, -, rfl⟩ := survive_engine hs
      exact ih
    | breed _ hb =>
      obtain ⟨random, nextId, rfl⟩ := offspring_engine hb
      exact ih

/-- A run comes only to benches that evaluations come to. -/
theorem Reaches.bench_reachable {c : Course α σ} (h : s.Reaches e₀ c)
    (hb : e₀.bench.Reachable α s.setup) : c.engine.bench.Reachable α s.setup := by
  refine h.kept (I := fun _ b => b.Reachable α s.setup) (P := fun _ => True) hb
    (fun world hb => hb.between _ world) (fun _ _ _ _ => trivial) fun {_ _ _ d _ _} hb _ hrun => ?_
  have hnext := hb.evaluate s.tools d
  rwa [hrun] at hnext

end Benches

end Search

end PatchSearch
