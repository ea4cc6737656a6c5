import PatchSearch.Proofs.Evaluation.Reachable
import PatchSearch.Proofs.Search.Members
import PatchSearch.Proofs.Yields
import PatchSearch.Search.Engine

/-!
Chronicles of runs. A run comes to a result and to an engine that has forgotten the candidates that
did not survive. Its chronicle also keeps, generation by generation, what was made, what was
evaluated, and what survived; without these it is the run.
-/
namespace PatchSearch

variable {α σ : Type}

/-- What happened in one generation. -/
structure Batch (α : Type) where
  /-- The candidates that were made, each before its evaluation. -/
  made : List (Candidate α)
  /-- As many of them as were evaluated, each after its evaluation. -/
  evaluated : List (Candidate α)
  /-- The population at the end. -/
  survivors : List (Candidate α)

/-- The candidates of a generation before and after their evaluation. -/
def Batch.trials (b : Batch α) : List (Candidate α × Candidate α) :=
  b.made.zip b.evaluated

/-- All evaluated candidates of a run, each before and after its evaluation. -/
def trials (batches : List (Batch α)) : List (Candidate α × Candidate α) :=
  batches.flatMap Batch.trials

namespace Search

variable [Scalar α]

/-- Evaluates what was made, lets the best of it and of the parents survive, and reports. -/
def judge (s : Search α σ) (parents made : List (Candidate α)) (e : Engine α σ) :
    Except Fault (Batch α × Engine α σ) := do
  let (evaluated, e) ← s.evaluateAll made e
  let e ← s.survive (parents ++ evaluated) e
  let e ← recordHistory e
  let survivors := e.population
  let e ← s.tell e
  return (⟨made, evaluated, survivors⟩, e)

/-- The first generation. -/
def opening (s : Search α σ) (e : Engine α σ) : Except Fault (Batch α × Engine α σ) := do
  let e ← s.populate e
  let e ← s.tell e
  s.judge [] e.population e

/-- A later generation. -/
def turn (s : Search α σ) (e : Engine α σ) : Except Fault (Batch α × Engine α σ) := do
  let parents := e.population
  let (children, e) ←
    s.offspring s.config.populationSize { e with generation := e.generation + 1 }
  s.judge parents children e

/-- Later generations until the run has to stop. -/
def turns (s : Search α σ) :
    Nat → Engine α σ → Except Fault (List (Batch α) × StopReason × Engine α σ)
  | 0, _ => .error .endless
  | fuel + 1, e => do
    let (reason, e) ← s.stopReason? e
    match reason with
    | some reason => return ([], reason, e)
    | none =>
      if e.population.isEmpty then return ([], .cancelled, e)
      let (b, e) ← s.turn e
      let (rest, reason, e) ← s.turns fuel e
      return (b :: rest, reason, e)

/-- A whole run, generation by generation. -/
def chronicle (s : Search α σ) (e : Engine α σ) :
    Except Fault (List (Batch α) × SearchResult α × Engine α σ) := do
  let started := s.tools.clock e.bench.world
  let budget ← s.config.maxEvaluations
  let (b, e) ← s.opening e
  let (rest, reason, e) ← s.turns (budget + 1) e
  return (b :: rest, s.result reason started e, e)

section Runs

variable {s : Search α σ} {e : Engine α σ}

theorem judge_eq (parents made : List (Candidate α)) :
    Prod.snd <$> s.judge parents made e = (do
      let (evaluated, e) ← s.evaluateAll made e
      let e ← s.survive (parents ++ evaluated) e
      let e ← recordHistory e
      s.tell e) := by
  simp only [judge, map_bind, map_pure, bind_pure]

theorem begin_eq : s.begin e = Prod.snd <$> s.opening e := by
  simp only [begin, opening, map_bind, judge_eq]
  rfl

theorem generation_eq : s.generation e = Prod.snd <$> s.turn e := by
  simp only [generation, turn, map_bind, judge_eq]

theorem generations_eq (fuel : Nat) : s.generations fuel e = Prod.snd <$> s.turns fuel e := by
  induction fuel generalizing e with
  | zero => rfl
  | succ fuel ih =>
    simp only [generations, turns, map_bind]
    refine congrArg (s.stopReason? e >>= ·) (funext fun r => ?_)
    obtain ⟨_ | reason, e₁⟩ := r
    · dsimp only
      split
      · rfl
      · simp only [generation_eq, ih, map_bind, bind_map_left, bind_pure_comp, Functor.map_map]
    · rfl

/-- A run is its chronicle without the generations. -/
theorem run_eq : s.run e = Prod.snd <$> s.chronicle e := by
  simp only [run, chronicle, map_bind, map_pure, begin_eq, generations_eq, bind_map_left]

/-- A run that comes to a result has a chronicle. -/
theorem exists_chronicle {r : SearchResult α} {t : Engine α σ} (h : s.run e = .ok (r, t)) :
    ∃ batches, s.chronicle e = .ok (batches, r, t) := by
  rw [run_eq] at h
  obtain ⟨⟨batches, -⟩, hchronicle, rfl⟩ := map_eq_ok_iff.mp h
  exact ⟨batches, hchronicle⟩

end Runs

end Search

end PatchSearch

/-!
What a run only adds to. The records of patches and the histories grow at their ends, every
evaluated candidate counts as one evaluation, and a population is as large as its size and the
candidates before it allow. So the chronicle of a run holds as many evaluated candidates as its
result counts.
-/
namespace PatchSearch

variable {α σ : Type}

/-- A history goes on another one. -/
structure SearchHistory.Prefix (h h' : SearchHistory α) : Prop where
  bestFitness : h.bestFitness <+: h'.bestFitness
  frontSize : h.frontSize <+: h'.frontSize
  meanEdits : h.meanEdits <+: h'.meanEdits
  diversity : h.diversity <+: h'.diversity
  patchesFound : h.patchesFound <+: h'.patchesFound

namespace SearchHistory.Prefix

variable {h h' h'' : SearchHistory α}

theorem refl (h : SearchHistory α) : h.Prefix h :=
  ⟨List.prefix_rfl, List.prefix_rfl, List.prefix_rfl, List.prefix_rfl, List.prefix_rfl⟩

theorem trans (h₁ : h.Prefix h') (h₂ : h'.Prefix h'') : h.Prefix h'' :=
  ⟨h₁.bestFitness.trans h₂.bestFitness, h₁.frontSize.trans h₂.frontSize,
    h₁.meanEdits.trans h₂.meanEdits, h₁.diversity.trans h₂.diversity,
    h₁.patchesFound.trans h₂.patchesFound⟩

end SearchHistory.Prefix

/-- The records and the histories of an engine grow at their ends. -/
structure Engine.Grows (e e' : Engine α σ) : Prop where
  records : e.bench.ledger.patches.records <+: e'.bench.ledger.patches.records
  history : e.history.Prefix e'.history

namespace Engine.Grows

variable {e e' e'' : Engine α σ}

theorem of_eq (hrecords : e'.bench.ledger.patches.records = e.bench.ledger.patches.records)
    (hhistory : e'.history = e.history) : e.Grows e' :=
  ⟨hrecords ▸ List.prefix_rfl, hhistory ▸ .refl _⟩

theorem trans (h : e.Grows e') (h' : e'.Grows e'') : e.Grows e'' :=
  ⟨h.records.trans h'.records, h.history.trans h'.history⟩

end Engine.Grows

section Evaluations

variable [Scalar α]

theorem Ledger.records_accept (l : Ledger) (files : Storage σ) (edits : List AppliedEdit)
    (now : Nat) (world : σ) :
    l.patches.records <+: (l.accept files edits now world).2.1.patches.records := by
  cases hknown : l.patches.contains (Patch.ofEdits (edits.map AppliedEdit.patchEdit)) with
  | true => rw [Ledger.accept_known _ _ _ _ _ hknown]
  | false =>
    rw [Ledger.accept_new _ _ _ _ _ hknown]
    exact List.prefix_append _ _

/-- An evaluation counts once and loses no record. -/
theorem evaluate_adds (s : Setup) (tools : Toolchain σ) (c : Chromosome) (b : Bench σ) :
    let after := (evaluate (α := α) s tools c b).2.ledger
    after.evaluations = b.ledger.evaluations + 1 ∧
      b.ledger.patches.records <+: after.patches.records := by
  have hkeeps : Keeps s tools fun d => d.ledger.evaluations = b.ledger.evaluations + 1 ∧
      b.ledger.patches.records <+: d.ledger.patches.records :=
    { patch := fun _ _ _ h => h
      compile := fun _ _ h => h
      runTests := fun _ _ _ h => h
      draw := fun _ h => h
      insert := fun _ h => h
      accept := fun {d} edits now h =>
        ⟨(Ledger.accept_counts d.ledger tools.files edits now d.world).1.trans h.1,
          h.2.trans (Ledger.records_accept d.ledger tools.files edits now d.world)⟩ }
  exact hkeeps.evaluate ⟨rfl, List.prefix_rfl⟩ c

end Evaluations

theorem Batch.length_trials {b : Batch α} (h : b.evaluated.length ≤ b.made.length) :
    b.trials.length = b.evaluated.length := by
  rw [Batch.trials, List.length_zip, Nat.min_eq_right h]

theorem length_trials_cons (b : Batch α) (bs : List (Batch α)) :
    (trials (b :: bs)).length = b.trials.length + (trials bs).length := by
  rw [trials, List.flatMap_cons, List.length_append, trials]

/-- What a generation adds to a run. -/
structure Engine.Adds (e : Engine α σ) (b : Batch α) (e' : Engine α σ) : Prop where
  grows : e.Grows e'
  evaluations :
    e'.bench.ledger.evaluations = e.bench.ledger.evaluations + b.evaluated.length
  evaluated : b.evaluated.length ≤ b.made.length
  population : e'.population = b.survivors

theorem Engine.Adds.length_trials {e e' : Engine α σ} {b : Batch α} (h : e.Adds b e') :
    e'.bench.ledger.evaluations = e.bench.ledger.evaluations + b.trials.length := by
  rw [h.evaluations, Batch.length_trials h.evaluated]

namespace Search

variable [Scalar α] {s : Search α σ} {e e' : Engine α σ}

omit [Scalar α] in
theorem grows_look (s : Search α σ) (e : Engine α σ) : e.Grows (s.look e).2 :=
  .of_eq rfl rfl

theorem evaluateCandidate_adds {d d' : Candidate α} (h : s.evaluateCandidate d e = .ok (d', e')) :
    e.Grows e' ∧ e'.bench.ledger.evaluations = e.bench.ledger.evaluations + 1 := by
  obtain ⟨evaluation, chromosome, bench, hrun, -, rfl⟩ := evaluateCandidate_engine h
  have hadds := evaluate_adds (α := α) s.setup s.tools d.chromosome e.bench
  rw [hrun] at hadds
  exact ⟨⟨hadds.2, .refl _⟩, hadds.1⟩

/-- Every evaluated candidate counts once. -/
theorem evaluateAll_adds {cs done : List (Candidate α)} (h : s.evaluateAll cs e = .ok (done, e')) :
    e.Grows e' ∧
      e'.bench.ledger.evaluations = e.bench.ledger.evaluations + done.length ∧
      done.length ≤ cs.length := by
  induction cs generalizing e done with
  | nil =>
    cases h
    exact ⟨.of_eq rfl rfl, rfl, Nat.le_refl _⟩
  | cons c cs ih =>
    obtain ⟨⟨reason, e₁⟩, hstop, h⟩ := bind_eq_ok_iff.mp h
    obtain rfl := stopReason?_engine hstop
    cases reason with
    | some reason =>
      cases h
      exact ⟨s.grows_look e, rfl, Nat.zero_le _⟩
    | none =>
      obtain ⟨⟨c', e₂⟩, hc, h⟩ := bind_eq_ok_iff.mp h
      obtain ⟨⟨rest, e₃⟩, hrest, h⟩ := bind_eq_ok_iff.mp h
      cases h
      obtain ⟨hgrows, hcount⟩ := evaluateCandidate_adds hc
      obtain ⟨hgrows', hcount', hle⟩ := ih hrest
      refine ⟨((s.grows_look e).trans hgrows).trans hgrows', ?_, Nat.succ_le_succ hle⟩
      rw [hcount', hcount, List.length_cons]
      change e.bench.ledger.evaluations + 1 + _ = _
      omega

theorem length_survivors {room : Nat} {pool kept : List (Candidate α)}
    (h : survivors room pool = .ok kept) : kept.length = min room pool.length := by
  obtain ⟨cs, hcs, rfl⟩ := survivors_eq_take h
  have hlength : cs.length = pool.length := by
    simpa using congrArg List.length (ranked_unranked hcs)
  rw [List.length_take, List.length_mergeSort, hlength]

theorem recordHistory_grows (h : recordHistory e = .ok e') : e.Grows e' := by
  obtain ⟨spread, -, h⟩ := bind_eq_ok_iff.mp h
  cases h
  exact ⟨List.prefix_rfl, List.prefix_append _ _, List.prefix_append _ _, List.prefix_append _ _,
    List.prefix_append _ _, List.prefix_append _ _⟩

theorem judge_adds {parents made : List (Candidate α)} {b : Batch α}
    (h : s.judge parents made e = .ok (b, e')) :
    b.made = made ∧ e.Adds b e' ∧
      b.survivors.length =
        min s.config.populationSize (parents.length + b.evaluated.length) := by
  obtain ⟨⟨evaluated, e₁⟩, hevaluated, h⟩ := bind_eq_ok_iff.mp h
  obtain ⟨e₂, hsurvive, h⟩ := bind_eq_ok_iff.mp h
  obtain ⟨e₃, hrecord, h⟩ := bind_eq_ok_iff.mp h
  obtain ⟨e₄, htell, h⟩ := bind_eq_ok_iff.mp h
  cases h
  obtain ⟨hgrows, hcount, hle⟩ := evaluateAll_adds hevaluated
  obtain ⟨population, hsurvivors, rfl⟩ := survive_engine hsurvive
  have hrecorded := recordHistory_grows hrecord
  obtain ⟨history, rfl⟩ := recordHistory_engine hrecord
  obtain ⟨world, rfl⟩ := tell_engine htell
  refine ⟨rfl, ⟨?_, hcount, hle, rfl⟩, ?_⟩
  · exact hgrows.trans ⟨hrecorded.records, hrecorded.history⟩
  · rw [← List.length_append]
    exact length_survivors hsurvivors

/-- The first generation is made in full, and what was evaluated of it has survivors. -/
theorem opening_adds {b : Batch α} (h : s.opening e = .ok (b, e')) :
    b.made.length = s.config.populationSize ∧ e.Adds b e' ∧
      b.survivors.length = min s.config.populationSize b.evaluated.length := by
  obtain ⟨e₁, hpopulate, h⟩ := bind_eq_ok_iff.mp h
  obtain ⟨e₂, htell, h⟩ := bind_eq_ok_iff.mp h
  obtain ⟨hmade, hadds, hsurvivors⟩ := judge_adds h
  obtain ⟨⟨population, e₀⟩, hdrawn, hpopulate⟩ := bind_eq_ok_iff.mp hpopulate
  have hids := congrArg List.length (randomCandidates_ids hdrawn).1
  rw [List.length_map, List.length_range'] at hids
  obtain ⟨random, nextId, rfl⟩ := randomCandidates_engine hdrawn
  cases hpopulate
  obtain ⟨world, rfl⟩ := tell_engine htell
  refine ⟨hmade ▸ hids, ⟨⟨hadds.grows.records, hadds.grows.history⟩, hadds.evaluations,
    hadds.evaluated, hadds.population⟩, ?_⟩
  rw [hsurvivors, List.length_nil, Nat.zero_add]

/-- A later generation is made in full, and survivors are chosen from it and from its parents. -/
theorem turn_adds {b : Batch α} (h : s.turn e = .ok (b, e')) :
    b.made.length = s.config.populationSize ∧ e.Adds b e' ∧
      b.survivors.length =
        min s.config.populationSize (e.population.length + b.evaluated.length) := by
  obtain ⟨⟨children, e₁⟩, hbred, h⟩ := bind_eq_ok_iff.mp h
  obtain ⟨hmade, hadds, hsurvivors⟩ := judge_adds h
  have hids := congrArg List.length (offspring_ids hbred).1
  rw [List.length_map, List.length_range'] at hids
  obtain ⟨random, nextId, rfl⟩ := offspring_engine hbred
  exact ⟨hmade ▸ hids, ⟨⟨hadds.grows.records, hadds.grows.history⟩, hadds.evaluations,
    hadds.evaluated, hadds.population⟩, hsurvivors⟩

/-- Later generations add to the books what they evaluate. -/
theorem turns_adds {fuel : Nat} {bs : List (Batch α)} {reason : StopReason}
    (h : s.turns fuel e = .ok (bs, reason, e')) :
    e.Grows e' ∧
      e'.bench.ledger.evaluations = e.bench.ledger.evaluations + (trials bs).length := by
  induction fuel generalizing e bs with
  | zero => cases h
  | succ fuel ih =>
    obtain ⟨⟨found, e₁⟩, hstop, h⟩ := bind_eq_ok_iff.mp h
    obtain rfl := stopReason?_engine hstop
    have hlook := s.grows_look e
    cases found with
    | some found =>
      cases h
      exact ⟨hlook, rfl⟩
    | none =>
      dsimp only at h
      split at h
      · cases h
        exact ⟨hlook, rfl⟩
      · obtain ⟨⟨b, e₂⟩, hturn, h⟩ := bind_eq_ok_iff.mp h
        obtain ⟨⟨rest, reason', e₃⟩, hrest, h⟩ := bind_eq_ok_iff.mp h
        cases h
        obtain ⟨-, hadds, -⟩ := turn_adds hturn
        obtain ⟨hgrows, hcount⟩ := ih hrest
        refine ⟨(hlook.trans hadds.grows).trans hgrows, ?_⟩
        rw [length_trials_cons, ← Nat.add_assoc]
        exact hcount.trans (congrArg (· + (trials rest).length) hadds.length_trials)

/-- The chronicle of a run holds what its result counts. -/
theorem chronicle_adds {bs : List (Batch α)} {r : SearchResult α}
    (h : s.chronicle e = .ok (bs, r, e')) :
    e'.bench.ledger.evaluations = e.bench.ledger.evaluations + (trials bs).length ∧
      r.stats.totalEvaluations = e'.bench.ledger.evaluations ∧
      r.patches = e'.bench.ledger.patches.records ∧ r.history = e'.history := by
  obtain ⟨budget, -, h⟩ := bind_eq_ok_iff.mp h
  obtain ⟨⟨b, e₁⟩, hopening, h⟩ := bind_eq_ok_iff.mp h
  obtain ⟨⟨rest, reason, e₂⟩, hturns, h⟩ := bind_eq_ok_iff.mp h
  cases h
  obtain ⟨-, hadds, -⟩ := opening_adds hopening
  refine ⟨?_, rfl, rfl, rfl⟩
  rw [(turns_adds hturns).2, hadds.length_trials, length_trials_cons, Nat.add_assoc]

end Search

end PatchSearch
