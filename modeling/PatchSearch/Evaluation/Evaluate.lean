import PatchSearch.Evaluation.Basic
import PatchSearch.Random
import PatchSearch.Scalar
import PatchSearch.SortedList

/-!
Samples of the positive tests. A sample holds the given share of the tests, rounded down, but at
least one test and at most all of them; it is drawn by a shuffle and put back into order.
-/
namespace PatchSearch

/-- The size of a sample of `count` tests. -/
def sampleSize (α : Type) [Scalar α] (count : Nat) (percentage : Float) : Nat :=
  let share : α := Arithmetic.ofNat count * Scalar.ofFloat percentage
  min (max (Scalar.floor share) 1) count

/-- Draws a sample of the given size. -/
def drawSample (tests : List String) (size : Nat) (g : Random) : List String × Random :=
  let (shuffled, g) := g.shuffle tests
  ((shuffled.take size).mergeSort textLE, g)

/-- The tests to run first: a sample, or all of them if the share is a whole one. -/
def samplePositive (α : Type) [Scalar α] (tests : List String) (percentage : Float)
    (g : Random) : List String × Random :=
  if percentage < 1.0 then drawSample tests (sampleSize α tests.length percentage) g
  else (tests, g)

theorem sampleSize_le (α : Type) [Scalar α] (count : Nat) (percentage : Float) :
    sampleSize α count percentage ≤ count :=
  Nat.min_le_right _ _

theorem samplePositive_of_not_lt (α : Type) [Scalar α] (tests : List String) (percentage : Float)
    (g : Random) (h : ¬ percentage < 1.0) : samplePositive α tests percentage g = (tests, g) := by
  simp [samplePositive, h]

/-!
Scores of test outcomes. The base fitness is the share of failed positive tests, weighted, plus
the share of failed negative ones. The objectives depend on their number and on the novelty mode:

- without novelty: fitness; edits and fitness; or edits and the two shares;
- lightweight: the same, the fitness less a bonus for known behavior; the shares stay as they are;
- full: negated novelty; edits and negated novelty; or edits, negated novelty and fitness.
-/

variable {α : Type} [Scalar α]

/-- The share of failed tests, zero when none was run. -/
def failedShare (failed ran : Nat) : α :=
  if ran = 0 then Arithmetic.ofNat 0 else proportion failed ran

namespace TestOutcome

def positiveShare (o : TestOutcome) : α :=
  failedShare o.failedPositive o.ranPositive

def negativeShare (o : TestOutcome) : α :=
  failedShare o.failedNegative o.ranNegative

/-- The base fitness: zero when nothing failed. -/
def fitness (o : TestOutcome) (weight : Float) : α :=
  Scalar.ofFloat weight * o.positiveShare + o.negativeShare

end TestOutcome

/-- The objectives without regard to novelty. -/
def plainObjectives (count edits : Nat) (o : TestOutcome) (fitness : α) : Objectives α :=
  match count with
  | 1 => Objectives.ofList [fitness]
  | 2 => Objectives.ofList [Arithmetic.ofNat edits, fitness]
  | _ => Objectives.ofList [Arithmetic.ofNat edits, o.positiveShare, o.negativeShare]

/-- The objectives that reward novelty. -/
def novelObjectives (count edits : Nat) (novelty fitness : α) : Objectives α :=
  match count with
  | 1 => Objectives.ofList [-novelty]
  | 2 => Objectives.ofList [Arithmetic.ofNat edits, -novelty]
  | _ => Objectives.ofList [Arithmetic.ofNat edits, -novelty, fitness]

/-- What known behavior takes off the fitness in lightweight mode. -/
def noveltyBonus (novelty : α) (diversityWeight : Float) : α :=
  (Arithmetic.ofNat 1 - novelty) * Scalar.ofFloat diversityWeight

/-- Scores a behavior against the archive and archives it; without a score it is not archived. -/
def scoreBehavior {σ : Type} (s : Setup) (o : TestOutcome) (b : Bench σ) :
    Option α × Bench σ :=
  let d := Descriptor.ofOutcomes s.tests.ordered o.failed
  match b.archive.novelty d s.novelty.neighbors with
  | .ok novelty =>
    let (archive, random) := b.archive.insert d b.random
    (some novelty, { b with archive, random })
  | .error _ => (none, b)

/-- The scores of an outcome. -/
structure Score (α : Type) where
  objectives : Objectives α
  fitness : α
  novelty : Option α

/-- The objectives of an outcome in a novelty mode, given its novelty if there is one. -/
def modeObjectives (s : Setup) (edits : Nat) (o : TestOutcome) (fitness : α)
    (novelty : Option α) : Objectives α :=
  match s.novelty.mode, novelty with
  | .none, _ => plainObjectives s.objectives edits o fitness
  | .lightweight, none => plainObjectives s.objectives edits o fitness
  | .lightweight, some v =>
    plainObjectives s.objectives edits o (fitness - noveltyBonus v s.novelty.diversityWeight)
  | .full, none => Objectives.sentinel s.objectives
  | .full, some v => novelObjectives s.objectives edits v fitness

/-- Scores an outcome. Without novelty nothing is archived. -/
def score {σ : Type} (s : Setup) (edits : Nat) (o : TestOutcome) (b : Bench σ) :
    Score α × Bench σ :=
  let fitness : α := o.fitness s.config.weight
  let (novelty, b) := if s.novelty.mode = .none then (none, b) else scoreBehavior s o b
  (⟨modeObjectives s edits o fitness novelty, fitness, novelty⟩, b)

end PatchSearch

/-!
The evaluation of a candidate: select its edits, write the edited files, build them, test the
build, score the outcome, and accept the patch if nothing failed. Every stage may end the
evaluation; only a fault ends the run, and a patcher that breaks down is one, as it is called
without anything that would hold it. A sample of the positive tests never suffices: when it
passes, the whole suite is run before the candidate counts as adequate.
-/
namespace PatchSearch

variable {α σ : Type} [Scalar α]

/-- Turns selected edits into an edit script, one call per edit, up to the first failure. -/
def scriptOf (tools : Toolchain σ) (points : List Point) :
    List AppliedEdit → σ → Except PatcherError (List Edit) × σ
  | [], world => (.ok [], world)
  | e :: es, world =>
    match points[e.point]? with
    | none => scriptOf tools points es world
    | some p =>
      match tools.patch p e.operator (e.ingredientIndex.bind (p.ingredients[·]?)) world with
      | (.error err, world) => (.error err, world)
      | (.ok edit, world) =>
        match scriptOf tools points es world with
        | (.error err, world) => (.error err, world)
        | (.ok edits, world) => (.ok (edit :: edits), world)

/-- The edited files of selected edits. -/
def editedFiles (s : Setup) (tools : Toolchain σ) (edits : List AppliedEdit) (world : σ) :
    Except PatcherError (TextMap String) × σ :=
  match scriptOf tools s.model.points edits world with
  | (.error err, world) => (.error err, world)
  | (.ok script, world) => ((EditScript.render ⟨script⟩ s.sources).mapError .refused, world)

/-- Tests an artifact: a sample first, if samples are drawn, and the whole suite after a sample
that passed. The outcome that counts, and whether it is a full run that rejects a sample that
passed; nothing if a run did not complete. -/
def testArtifact (α : Type) [Scalar α] (s : Setup) (tools : Toolchain σ) (artifact : Artifact)
    (b : Bench σ) : Option (TestOutcome × Bool) × Bench σ :=
  let (sample, random) := samplePositive α s.tests.positive s.config.percentage b.random
  let sampled := decide (sample.length < s.tests.positive.length)
  let (outcome, world) := tools.execute artifact ⟨sample, s.tests.negative⟩ s.waitTime b.world
  let b := { b with random, world }
  if outcome.exceptional then (none, b)
  else if sampled && outcome.allPassed then
    let (full, world) := tools.execute artifact s.fullRequest s.waitTime b.world
    let b := { b with world }
    if full.exceptional then (none, b) else (some (full, !full.allPassed), b)
  else (some (outcome, false), b)

/-- The status of a scored outcome. -/
def scoredStatus (s : Setup) (o : TestOutcome) (rejected : Bool) (novelty : Option α) :
    EvaluationStatus :=
  if s.novelty.mode = .full ∧ novelty.isNone then .noveltyUnavailable
  else if rejected then .confirmationRejected
  else .evaluated o.allPassed

/-- Accepts the patch of an adequate candidate. -/
def acceptIf (adequate : Bool) (tools : Toolchain σ) (edits : List AppliedEdit) (b : Bench σ) :
    Option Nat × Bench σ :=
  if adequate then
    let (patchId, ledger, world) := b.ledger.accept tools.files edits (tools.clock b.world) b.world
    (patchId, { b with ledger, world })
  else (none, b)

/-- The evaluation of a candidate whose outcome is known. -/
def conclude (s : Setup) (tools : Toolchain σ) (id : Nat) (edits : List AppliedEdit)
    (outcome : TestOutcome × Bool) (b : Bench σ) : Evaluation α × Bench σ :=
  let scored : Score α × Bench σ := score s edits.length outcome.1 b
  let (sc, b) := scored
  let status := scoredStatus s outcome.1 outcome.2 sc.novelty
  let (patchId, b) := acceptIf status.isAdequate tools edits b
  (⟨id, sc.objectives, status, edits.length, some sc.fitness, sc.novelty, patchId⟩, b)

/-- The evaluation of a candidate that could not be scored. -/
def unscored (s : Setup) (id edits : Nat) (status : EvaluationStatus) : Evaluation α :=
  ⟨id, Objectives.sentinel s.objectives, status, edits, none, none, none⟩

/-- Evaluates selected edits. -/
def evaluateEdits (s : Setup) (tools : Toolchain σ) (id : Nat) (edits : List AppliedEdit)
    (b : Bench σ) : Except Fault (Evaluation α) × Bench σ :=
  let ended (status : EvaluationStatus) (b : Bench σ) : Except Fault (Evaluation α) × Bench σ :=
    (.ok (unscored s id edits.length status), b)
  if edits.isEmpty then ended .noActiveEdits b
  else
    match editedFiles s tools edits b.world with
    | (.error .brokeDown, world) => (.error .breakdown, { b with world })
    | (.error (.refused _), world) => ended .patchFailed { b with world }
    | (.ok sources, world) =>
      match tools.build id sources s.compileTimeout world with
      | (.error (.failed _), world) => ended .compileFailed { b with world }
      | (.error (.interrupted _), world) => ended .exceptional { b with world }
      | (.ok artifact, world) =>
        match testArtifact α s tools artifact { b with world } with
        | (none, b) => ended .exceptional b
        | (some outcome, b) =>
          let (evaluation, b) := conclude s tools id edits outcome b
          (.ok evaluation, b)

/-- Evaluates a chromosome; the chromosome as the selection leaves it. The evaluation counts also
when the selection faults. -/
def evaluate (s : Setup) (tools : Toolchain σ) (c : Chromosome) (b : Bench σ) :
    Except Fault (Evaluation α × Chromosome) × Bench σ :=
  let (id, ledger) := b.ledger.begin
  let b := { b with ledger }
  match selectEdits s.model.points s.config.filterRules s.config.maxEdits c with
  | .error fault => (.error fault, b)
  | .ok (edits, c) =>
    let (answer, b) := evaluateEdits s tools id edits b
    (answer.map fun evaluation => (evaluation, c), b)

end PatchSearch
