import PatchSearch.Json.Record

/-!
The options of a repair run, in sections. Every option has a default, so a configuration names
only those it changes.
-/
namespace PatchSearch

/-- How the suspiciousness of a location is computed from the tests that execute it. -/
inductive Formula where
  | ochiai
  | tarantula
  deriving DecidableEq, Repr, Inhabited

/-- How the genes of the first population are switched on. -/
inductive Initialization where
  | prior
  | random
  deriving DecidableEq, Repr, Inhabited

/-- Whether and how behavioral novelty enters the objectives. -/
inductive NoveltyMode where
  | none
  | lightweight
  | full
  deriving DecidableEq, Repr, Inhabited

structure LocalizationConfig where
  threshold : Float := 0.1
  formula : Formula := .ochiai
  maxPoints : Nat := 40

structure SearchConfig where
  populationSize : Nat := 40
  maxGenerations : Nat := 50
  objectives : Nat := 2
  initialization : Initialization := .prior
  mu : Float := 0.06
  crossoverProbability : Float := 1.0
  mutationProbability : Option Float := none
  seed : Option Nat := none

structure EvaluationConfig where
  /-- The weight of positive failures against negative ones. -/
  weight : Float := 0.5
  /-- At most this many edits are applied together. -/
  maxEdits : Option Nat := none
  /-- The share of the positive tests that an evaluation runs first. -/
  percentage : Float := 1.0
  waitTimeMs : Nat := 6000
  compileTimeoutMs : Nat := 120000
  filterRules : Bool := true

structure NoveltyConfig where
  mode : NoveltyMode := .none
  neighbors : Nat := 15
  archiveSize : Nat := 200
  diversityWeight : Float := 0.3

structure OutputConfig where
  patchDir : Option String := none

structure RepairConfig where
  localization : LocalizationConfig := {}
  search : SearchConfig := {}
  evaluation : EvaluationConfig := {}
  novelty : NoveltyConfig := {}
  output : OutputConfig := {}

/-- Whether positive tests are sampled first and run in full only when the sample passes. -/
def EvaluationConfig.samplesPositive (c : EvaluationConfig) : Bool :=
  decide (c.percentage < 1.0)

end PatchSearch

/-!
Configurations in JSON. Every field may be missing, and most have a second spelling. What
`RepairConfig.encode` writes names every field by its own name.
-/
namespace PatchSearch

namespace Formula

def name : Formula → String
  | ochiai => "Ochiai"
  | tarantula => "Tarantula"

def decode : Json.Decoder Formula :=
  Json.toName [("Ochiai", ochiai), ("Tarantula", tarantula)]

def encode (f : Formula) : Json :=
  .text f.name

theorem decode_encode (f : Formula) : decode f.encode = some f := by
  cases f <;> rfl

end Formula

namespace Initialization

def name : Initialization → String
  | prior => "Prior"
  | random => "Random"

def decode : Json.Decoder Initialization :=
  Json.toName [("Prior", prior), ("prior", prior), ("PRIOR", prior),
    ("Random", random), ("random", random), ("RANDOM", random)]

def encode (i : Initialization) : Json :=
  .text i.name

theorem decode_encode (i : Initialization) : decode i.encode = some i := by
  cases i <;> rfl

end Initialization

namespace NoveltyMode

def name : NoveltyMode → String
  | none => "none"
  | lightweight => "lightweight"
  | full => "full"

/-- The name at the start of a sentence. -/
def title : NoveltyMode → String
  | none => "None"
  | lightweight => "Lightweight"
  | full => "Full"

def decode : Json.Decoder NoveltyMode :=
  Json.toName [("none", none), ("lightweight", lightweight), ("full", full)]

def encode (m : NoveltyMode) : Json :=
  .text m.name

theorem decode_encode (m : NoveltyMode) : decode m.encode = some m := by
  cases m <;> rfl

end NoveltyMode

namespace LocalizationConfig

def decode : Json.Decoder LocalizationConfig := fun j => do
  let f ← Json.fields? [["threshold", "thr"], ["formula"],
    ["max_modification_points", "maxNumberOfModificationPoints"]] j
  let base : LocalizationConfig := {}
  let threshold ← f.withDefault "threshold" Json.toFloat base.threshold
  let formula ← f.withDefault "formula" Formula.decode base.formula
  let maxPoints ← f.withDefault "max_modification_points" Json.toWord base.maxPoints
  return { threshold, formula, maxPoints }

def encode (c : LocalizationConfig) : Json :=
  .object [("threshold", Json.ofFloat c.threshold), ("formula", c.formula.encode),
    ("max_modification_points", .nat c.maxPoints)]

end LocalizationConfig

namespace SearchConfig

def decode : Json.Decoder SearchConfig := fun j => do
  let f ← Json.fields? [["population_size", "populationSize"],
    ["max_generations", "maxGenerations"], ["number_of_objectives", "numberOfObjectives"],
    ["initialization_strategy", "initializationStrategy"], ["mu"], ["crossover_probability"],
    ["mutation_probability"], ["random_seed"]] j
  let base : SearchConfig := {}
  let populationSize ← f.withDefault "population_size" Json.toWord base.populationSize
  let maxGenerations ← f.withDefault "max_generations" Json.toWord base.maxGenerations
  let objectives ← f.withDefault "number_of_objectives" Json.toWord base.objectives
  let initialization ←
    f.withDefault "initialization_strategy" Initialization.decode base.initialization
  let mu ← f.withDefault "mu" Json.toFloat base.mu
  let crossoverProbability ←
    f.withDefault "crossover_probability" Json.toFloat base.crossoverProbability
  let mutationProbability ←
    f.withDefault "mutation_probability" (Json.toOption Json.toFloat) base.mutationProbability
  let seed ← f.withDefault "random_seed" (Json.toOption Json.toWord) base.seed
  return { populationSize, maxGenerations, objectives, initialization, mu,
           crossoverProbability, mutationProbability, seed }

def encode (c : SearchConfig) : Json :=
  .object [("population_size", .nat c.populationSize), ("max_generations", .nat c.maxGenerations),
    ("number_of_objectives", .nat c.objectives),
    ("initialization_strategy", c.initialization.encode), ("mu", Json.ofFloat c.mu),
    ("crossover_probability", Json.ofFloat c.crossoverProbability),
    ("mutation_probability", Json.ofOption Json.ofFloat c.mutationProbability),
    ("random_seed", Json.ofOption .nat c.seed)]

end SearchConfig

namespace EvaluationConfig

def decode : Json.Decoder EvaluationConfig := fun j => do
  let f ← Json.fields? [["weight"], ["max_edits", "maxNumberOfEdits"], ["percentage"],
    ["wait_time_ms", "waitTime"], ["compile_timeout_ms", "compileTimeout"],
    ["filter_rules", "miFilterRule"]] j
  let base : EvaluationConfig := {}
  let weight ← f.withDefault "weight" Json.toFloat base.weight
  let maxEdits ← f.withDefault "max_edits" (Json.toOption Json.toWord) base.maxEdits
  let percentage ← f.withDefault "percentage" Json.toFloat base.percentage
  let waitTimeMs ← f.withDefault "wait_time_ms" Json.toWord base.waitTimeMs
  let compileTimeoutMs ← f.withDefault "compile_timeout_ms" Json.toWord base.compileTimeoutMs
  let filterRules ← f.withDefault "filter_rules" Json.toBool base.filterRules
  return { weight, maxEdits, percentage, waitTimeMs, compileTimeoutMs, filterRules }

def encode (c : EvaluationConfig) : Json :=
  .object [("weight", Json.ofFloat c.weight), ("max_edits", Json.ofOption .nat c.maxEdits),
    ("percentage", Json.ofFloat c.percentage), ("wait_time_ms", .nat c.waitTimeMs),
    ("compile_timeout_ms", .nat c.compileTimeoutMs), ("filter_rules", .bool c.filterRules)]

end EvaluationConfig

namespace NoveltyConfig

def decode : Json.Decoder NoveltyConfig := fun j => do
  let f ← Json.fields? [["mode", "noveltySearchMode"], ["k_neighbors", "noveltyKNeighbors"],
    ["archive_size", "noveltyArchiveSize"], ["diversity_weight", "noveltyDiversityWeight"]] j
  let base : NoveltyConfig := {}
  let mode ← f.withDefault "mode" NoveltyMode.decode base.mode
  let neighbors ← f.withDefault "k_neighbors" Json.toWord base.neighbors
  let archiveSize ← f.withDefault "archive_size" Json.toWord base.archiveSize
  let diversityWeight ← f.withDefault "diversity_weight" Json.toFloat base.diversityWeight
  return { mode, neighbors, archiveSize, diversityWeight }

def encode (c : NoveltyConfig) : Json :=
  .object [("mode", c.mode.encode), ("k_neighbors", .nat c.neighbors),
    ("archive_size", .nat c.archiveSize), ("diversity_weight", Json.ofFloat c.diversityWeight)]

end NoveltyConfig

namespace OutputConfig

def decode : Json.Decoder OutputConfig := fun j => do
  let f ← Json.fields? [["patch_output_dir", "patchOutputRoot"]] j
  let patchDir ← f.withDefault "patch_output_dir" (Json.toOption Json.toText) none
  return { patchDir }

def encode (c : OutputConfig) : Json :=
  .object [("patch_output_dir", Json.ofOption .text c.patchDir)]

end OutputConfig

namespace RepairConfig

def decode : Json.Decoder RepairConfig := fun j => do
  let f ← Json.fields? [["localization"], ["search"], ["evaluation"], ["novelty"], ["output"]] j
  let localization ← f.withDefault "localization" LocalizationConfig.decode {}
  let search ← f.withDefault "search" SearchConfig.decode {}
  let evaluation ← f.withDefault "evaluation" EvaluationConfig.decode {}
  let novelty ← f.withDefault "novelty" NoveltyConfig.decode {}
  let output ← f.withDefault "output" OutputConfig.decode {}
  return { localization, search, evaluation, novelty, output }

def encode (c : RepairConfig) : Json :=
  .object [("localization", c.localization.encode), ("search", c.search.encode),
    ("evaluation", c.evaluation.encode), ("novelty", c.novelty.encode),
    ("output", c.output.encode)]

end RepairConfig

end PatchSearch
