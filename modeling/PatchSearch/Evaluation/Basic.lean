import PatchSearch.Config.Codec
import PatchSearch.Evaluation.Ledger
import PatchSearch.Novelty
import PatchSearch.Pareto.Fronts
import PatchSearch.Random
import PatchSearch.Toolchain

/-!
What an evaluation needs and what it answers. The setup is fixed for a run; the bench is what
evaluations change: the novelty archive, the random source, the books, and the state of the
collaborators.
-/
namespace PatchSearch

/-- How an evaluation ended. -/
inductive EvaluationStatus where
  | noActiveEdits
  | patchFailed
  | compileFailed
  | exceptional
  | noveltyUnavailable
  | confirmationRejected
  | evaluated (adequate : Bool)
  deriving DecidableEq, Repr, Inhabited

namespace EvaluationStatus

def name : EvaluationStatus → String
  | noActiveEdits => "NoActiveEdits"
  | patchFailed => "PatchFailed"
  | compileFailed => "CompileFailed"
  | exceptional => "Exceptional"
  | noveltyUnavailable => "NoveltyUnavailable"
  | confirmationRejected => "ConfirmationRejected"
  | evaluated true => "Adequate"
  | evaluated false => "Inadequate"

def isAdequate (s : EvaluationStatus) : Bool :=
  s == evaluated true

end EvaluationStatus

structure Evaluation (α : Type) where
  id : Nat
  objectives : Objectives α
  status : EvaluationStatus
  edits : Nat
  fitness : Option α
  novelty : Option α
  patchId : Option Nat

/-- What stays the same over all evaluations of a run. -/
structure Setup where
  model : ProgramModel
  tests : TestSuite
  config : EvaluationConfig
  novelty : NoveltyConfig
  objectives : Nat
  sources : SourceTree

namespace Setup

/-- The setup of a configuration. -/
def ofConfig (model : ProgramModel) (tests : TestSuite) (config : RepairConfig)
    (sources : SourceTree) : Setup :=
  ⟨model, tests, config.evaluation, config.novelty, config.search.objectives, sources⟩

def compileTimeout (s : Setup) : Duration :=
  Duration.ofMillis s.config.compileTimeoutMs

def waitTime (s : Setup) : Duration :=
  Duration.ofMillis s.config.waitTimeMs

/-- The request for the whole suite. -/
def fullRequest (s : Setup) : TestRequest :=
  ⟨s.tests.positive, s.tests.negative⟩

end Setup

/-- What evaluations change. -/
structure Bench (σ : Type) where
  archive : Archive
  random : Random
  ledger : Ledger
  world : σ

namespace Bench

/-- The bench at the start of a run. -/
def start {σ : Type} (archiveSize : Nat) (seed : UInt64) (ledger : Ledger) (world : σ) :
    Bench σ :=
  ⟨Archive.empty archiveSize, Random.ofSeed seed, ledger, world⟩

end Bench

end PatchSearch
