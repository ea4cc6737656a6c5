import PatchSearch.Config.Validate
import PatchSearch.Evaluation.Evaluate
import PatchSearch.Search.Candidate

/-!
The evolutionary search. A run makes a random population, evaluates it, and then goes through
generations: parents win tournaments, their children are crossed and mutated and evaluated, and
the best of parents and children survive. It stops when it is asked to or when its budget of
evaluations is used up; both are looked at before every evaluation.
-/
namespace PatchSearch

/-- What stays the same during a run. -/
structure Search (α σ : Type) where
  config : SearchConfig
  setup : Setup
  tools : Toolchain σ
  /-- Is told the progress of the run. -/
  notify : SearchProgress α → σ → σ

/-- What a run changes. -/
structure Engine (α σ : Type) where
  population : List (Candidate α)
  history : SearchHistory α
  generation : Nat
  bestFitness : α
  nextId : Nat
  random : Random
  bench : Bench σ

namespace Search

variable {α σ : Type}

def bounds (s : Search α σ) : List GeneBounds :=
  s.setup.model.bounds

/-- The rate of mutation: by default one part in as many as there are points. -/
def mutationRate (s : Search α σ) : Float :=
  match s.config.mutationProbability with
  | some p => p
  | none => 1.0 / Float.ofNat (max s.bounds.length 1)

variable [Scalar α]

/-- The engine before its first run. -/
def engine (bench : Bench σ) (seed : UInt64) : Engine α σ where
  population := []
  history := {}
  generation := 0
  bestFitness := Scalar.sentinel
  nextId := 0
  random := Random.ofSeed seed
  bench := bench

/-- A candidate with the next number. It has no rank yet and counts as not evaluated. -/
def newCandidate (s : Search α σ) (e : Engine α σ) (c : Chromosome) (parents : List Nat) :
    Candidate α × Engine α σ :=
  ({ id := e.nextId
     chromosome := c
     objectives := Objectives.sentinel s.setup.objectives
     status := .noActiveEdits
     rank := none
     crowding := Arithmetic.ofNat 0
     generation := e.generation
     parents := parents }, { e with nextId := e.nextId + 1 })

/-- Makes so many random candidates. -/
def randomCandidates (s : Search α σ) :
    Nat → Engine α σ → Except Fault (List (Candidate α) × Engine α σ)
  | 0, e => .ok ([], e)
  | n + 1, e => do
    let (c, random) ← Chromosome.random s.config.initialization s.config.mu s.bounds e.random
    let (candidate, e) := s.newCandidate { e with random } c []
    let (rest, e) ← s.randomCandidates n e
    return (candidate :: rest, e)

/-- Puts a new random population in place of the old one. -/
def populate (s : Search α σ) (e : Engine α σ) : Except Fault (Engine α σ) := do
  let (population, e) ← s.randomCandidates s.config.populationSize { e with generation := 0 }
  return { e with population }

omit [Scalar α] in
/-- Looks whether the run is asked to stop. -/
def look (s : Search α σ) (e : Engine α σ) : Bool × Engine α σ :=
  let (stopped, world) := s.tools.cancelled e.bench.world
  (stopped, { e with bench := { e.bench with world } })

omit [Scalar α] in
/-- Why the run has to stop now, if it has to. -/
def stopReason? (s : Search α σ) (e : Engine α σ) :
    Except Fault (Option StopReason × Engine α σ) := do
  let (stopped, e) := s.look e
  if stopped then return (some .cancelled, e)
  let budget ← s.config.maxEvaluations
  return (if budget ≤ e.bench.ledger.evaluations then some .maxEvaluations else none, e)

/-- Evaluates one candidate. -/
def evaluateCandidate (s : Search α σ) (c : Candidate α) (e : Engine α σ) :
    Except Fault (Candidate α × Engine α σ) := do
  let (result, bench) := evaluate s.setup s.tools c.chromosome e.bench
  let (evaluation, chromosome) ← result
  let bestFitness := match evaluation.fitness with
    | some f => Scalar.lesser e.bestFitness f
    | none => e.bestFitness
  return ({ c with chromosome, objectives := evaluation.objectives, status := evaluation.status },
    { e with bestFitness, bench })

/-- Evaluates candidates in order until the run has to stop; those that were evaluated. -/
def evaluateAll (s : Search α σ) :
    List (Candidate α) → Engine α σ → Except Fault (List (Candidate α) × Engine α σ)
  | [], e => .ok ([], e)
  | c :: cs, e => do
    let (reason, e) ← s.stopReason? e
    match reason with
    | some _ => return ([], e)
    | none =>
      let (c, e) ← s.evaluateCandidate c e
      let (rest, e) ← s.evaluateAll cs e
      return (c :: rest, e)

/-- Two children of two parents that won tournaments, and the numbers of the parents. -/
def mate (s : Search α σ) (e : Engine α σ) :
    Except Fault ((Chromosome × Chromosome) × List Nat × Engine α σ) := do
  let (i, g) ← tournament e.population e.random
  let (j, g) ← tournament e.population g
  let p ← itemAt e.population i
  let q ← itemAt e.population j
  let (crossed, g) ← g.chance (clampUnit s.config.crossoverProbability)
  let ((a, b), g) ←
    if crossed then p.chromosome.crossover q.chromosome g
    else pure ((p.chromosome, q.chromosome), g)
  let (a, g) ← a.mutate s.bounds s.mutationRate g
  let (b, g) ← b.mutate s.bounds s.mutationRate g
  return ((a, b), [p.id, q.id], { e with random := g })

/-- Makes so many children, in pairs; the second child of the last pair may be left out. -/
def offspring (s : Search α σ) :
    Nat → Engine α σ → Except Fault (List (Candidate α) × Engine α σ)
  | 0, e => .ok ([], e)
  | 1, e => do
    let ((a, _), parents, e) ← s.mate e
    let (a, e) := s.newCandidate e a parents
    return ([a], e)
  | n + 2, e => do
    let ((a, b), parents, e) ← s.mate e
    let (a, e) := s.newCandidate e a parents
    let (b, e) := s.newCandidate e b parents
    let (rest, e) ← s.offspring n e
    return (a :: b :: rest, e)

/-- Lets the best of a pool be the population. -/
def survive (s : Search α σ) (pool : List (Candidate α)) (e : Engine α σ) :
    Except Fault (Engine α σ) := do
  let population ← survivors s.config.populationSize pool
  return { e with population }

/-- Writes the present population into the history. -/
def recordHistory (e : Engine α σ) : Except Fault (Engine α σ) := do
  let spread ← diversity e.population
  let h := e.history
  return { e with history := {
    bestFitness := h.bestFitness ++ [e.bestFitness]
    frontSize := h.frontSize ++ [(firstFront e.population).length]
    meanEdits := h.meanEdits ++ [PatchSearch.meanEdits e.population]
    diversity := h.diversity ++ [spread]
    patchesFound := h.patchesFound ++ [e.bench.ledger.patches.length] } }

/-- How far the run is, given whether it is asked to stop. -/
def progressWhen (s : Search α σ) (stopped : Bool) (e : Engine α σ) :
    Except Fault (SearchProgress α) := do
  let budget ← s.config.maxEvaluations
  let evaluations := e.bench.ledger.evaluations
  let phase : SearchPhase :=
    if stopped then .stopped
    else if evaluations = 0 then .initializing
    else if budget ≤ evaluations then .complete
    else .evaluating
  return {
    generation := e.generation
    totalGenerations := s.config.maxGenerations
    evaluations := evaluations
    maxEvaluations := budget
    bestFitness := e.bestFitness
    frontSize := (firstFront e.population).length
    patchesFound := e.bench.ledger.patches.length
    phase := phase }

/-- How far the run is. -/
def progress (s : Search α σ) (e : Engine α σ) : Except Fault (SearchProgress α) :=
  s.progressWhen (s.look e).1 e

/-- Tells the progress of the run. -/
def tell (s : Search α σ) (e : Engine α σ) : Except Fault (Engine α σ) := do
  let (stopped, e) := s.look e
  let p ← s.progressWhen stopped e
  return { e with bench := { e.bench with world := s.notify p e.bench.world } }

/-- Evaluates the first population and sorts it. -/
def begin (s : Search α σ) (e : Engine α σ) : Except Fault (Engine α σ) := do
  let e ← s.populate e
  let e ← s.tell e
  let (evaluated, e) ← s.evaluateAll e.population e
  let e ← s.survive evaluated e
  let e ← recordHistory e
  s.tell e

/-- Goes through one generation. -/
def generation (s : Search α σ) (e : Engine α σ) : Except Fault (Engine α σ) := do
  let parents := e.population
  let (children, e) ←
    s.offspring s.config.populationSize { e with generation := e.generation + 1 }
  let (evaluated, e) ← s.evaluateAll children e
  let e ← s.survive (parents ++ evaluated) e
  let e ← recordHistory e
  s.tell e

/-- Goes through generations until the run has to stop. Each of them makes an evaluation or finds
the run asked to stop, so the budget bounds their number. -/
def generations (s : Search α σ) :
    Nat → Engine α σ → Except Fault (StopReason × Engine α σ)
  | 0, _ => .error .endless
  | fuel + 1, e => do
    let (reason, e) ← s.stopReason? e
    match reason with
    | some reason => return (reason, e)
    | none =>
      if e.population.isEmpty then return (.cancelled, e)
      let e ← s.generation e
      s.generations fuel e

/-- A span of the clock in seconds. -/
def seconds (started now : Nat) : Float :=
  Float.ofNat (now - started) / 1000.0

/-- The result of a run that started at a time of the clock. -/
def result (s : Search α σ) (reason : StopReason) (started : Nat) (e : Engine α σ) :
    SearchResult α :=
  let elapsed := seconds started (s.tools.clock e.bench.world)
  let evaluations := e.bench.ledger.evaluations
  { front := (firstFront e.population).map Candidate.snapshot
    patches := e.bench.ledger.patches.records
    stats := {
      generations := e.generation
      totalEvaluations := evaluations
      bestFitness := e.bestFitness
      elapsedSeconds := elapsed
      evaluationsPerSecond := if 0.0 < elapsed then Float.ofNat evaluations / elapsed else 0.0
      stopReason := reason }
    history := e.history }

/-- Makes a whole run. -/
def run (s : Search α σ) (e : Engine α σ) : Except Fault (SearchResult α × Engine α σ) := do
  let started := s.tools.clock e.bench.world
  let budget ← s.config.maxEvaluations
  let e ← s.begin e
  let (reason, e) ← s.generations (budget + 1) e
  return (s.result reason started e, e)

end Search

end PatchSearch
