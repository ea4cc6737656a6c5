import PatchSearch.Config.Codec
import PatchSearch.Decimal
import PatchSearch.Fault

/-!
Validation of a configuration. The checks run in a fixed order and the first that fails names the
error. Weights are refused only when they are below zero, so a value that is no number passes;
thresholds, probabilities and the sampling share have to lie in their interval.
-/
namespace PatchSearch

inductive ConfigError where
  | invalidThreshold (value : Float)
  | invalidMaxPoints
  | populationTooSmall
  | invalidGenerations
  | invalidObjectiveCount (count : Nat)
  | invalidProbability (name : String) (value : Float)
  | invalidWeight (name : String) (value : Float)
  | invalidPercentage (value : Float)
  | invalidWaitTime
  | invalidCompileTimeout
  | invalidMaxEdits
  | invalidNovelty

namespace ConfigError

/-- The name of the error. -/
def kind : ConfigError → String
  | invalidThreshold _ => "InvalidThreshold"
  | invalidMaxPoints => "InvalidMaxPoints"
  | populationTooSmall => "PopulationTooSmall"
  | invalidGenerations => "InvalidGenerations"
  | invalidObjectiveCount _ => "InvalidObjectiveCount"
  | invalidProbability _ _ => "InvalidProbability"
  | invalidWeight _ _ => "InvalidWeight"
  | invalidPercentage _ => "InvalidPercentage"
  | invalidWaitTime => "InvalidWaitTime"
  | invalidCompileTimeout => "InvalidCompileTimeout"
  | invalidMaxEdits => "InvalidMaxEdits"
  | invalidNovelty => "InvalidNovelty"

/-- The error in words. -/
def message : ConfigError → String
  | invalidThreshold x =>
    "Suspiciousness threshold " ++ Decimal.plain.render x ++ " must lie in [0, 1]"
  | invalidMaxPoints => "Maximum number of modification points must be non-zero"
  | populationTooSmall => "Population size must be at least 2"
  | invalidGenerations => "Number of generations must be non-zero"
  | invalidObjectiveCount n => "Number of objectives " ++ toString n ++ " must be 1, 2 or 3"
  | invalidProbability name x =>
    "Invalid probability for " ++ name ++ ": " ++ Decimal.plain.render x
  | invalidWeight name x =>
    "Invalid weight for " ++ name ++ ": " ++ Decimal.plain.render x ++ " must be non-negative"
  | invalidPercentage x =>
    "Sampling percentage " ++ Decimal.plain.render x ++ " must lie in (0, 1]"
  | invalidWaitTime => "Wait time must be positive"
  | invalidCompileTimeout => "Compile timeout must be positive"
  | invalidMaxEdits => "Maximum number of edits must be non-zero"
  | invalidNovelty => "Novelty archive size and k must be non-zero"

end ConfigError

/-- Fails with an error unless the condition holds. -/
def require (condition : Bool) (error : ConfigError) : Except ConfigError Unit :=
  if condition then .ok () else .error error

theorem require_eq_ok_iff (condition : Bool) (error : ConfigError) (u : Unit) :
    require condition error = .ok u ↔ condition = true := by
  cases condition <;> simp [require]

def inUnitInterval (x : Float) : Bool :=
  decide (0.0 ≤ x) && decide (x ≤ 1.0)

def isBelowZero (x : Float) : Bool :=
  decide (x < 0.0)

namespace SearchConfig

/-- The evaluation budget of a run. -/
def maxEvaluations (c : SearchConfig) : Except Fault Nat :=
  fitting wordCount (c.populationSize * c.maxGenerations)

def validate (c : SearchConfig) : Except ConfigError Unit := do
  require (2 ≤ c.populationSize) .populationTooSmall
  require (c.maxGenerations != 0) .invalidGenerations
  require (1 ≤ c.objectives && c.objectives ≤ 3) (.invalidObjectiveCount c.objectives)
  require (!isBelowZero c.mu) (.invalidWeight "mu" c.mu)
  require (inUnitInterval c.crossoverProbability)
    (.invalidProbability "crossover" c.crossoverProbability)
  match c.mutationProbability with
  | none => .ok ()
  | some p => require (inUnitInterval p) (.invalidProbability "mutation" p)

end SearchConfig

namespace LocalizationConfig

def validate (c : LocalizationConfig) : Except ConfigError Unit := do
  require (inUnitInterval c.threshold) (.invalidThreshold c.threshold)
  require (c.maxPoints != 0) .invalidMaxPoints

end LocalizationConfig

namespace EvaluationConfig

def validate (c : EvaluationConfig) : Except ConfigError Unit := do
  require (!isBelowZero c.weight) (.invalidWeight "weight" c.weight)
  require (decide (0.0 < c.percentage) && decide (c.percentage ≤ 1.0))
    (.invalidPercentage c.percentage)
  require (c.waitTimeMs != 0) .invalidWaitTime
  require (c.compileTimeoutMs != 0) .invalidCompileTimeout
  require (c.maxEdits != some 0) .invalidMaxEdits

end EvaluationConfig

namespace NoveltyConfig

def validate (c : NoveltyConfig) : Except ConfigError Unit := do
  require (c.neighbors != 0 && c.archiveSize != 0) .invalidNovelty
  require (!isBelowZero c.diversityWeight)
    (.invalidWeight "noveltyDiversityWeight" c.diversityWeight)

end NoveltyConfig

namespace RepairConfig

/-- Checks every section once, before a run starts. -/
def validate (c : RepairConfig) : Except ConfigError Unit := do
  c.localization.validate
  c.search.validate
  c.evaluation.validate
  c.novelty.validate

end RepairConfig

end PatchSearch
