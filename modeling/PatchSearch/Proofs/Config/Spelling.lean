import PatchSearch.Config.Codec
import PatchSearch.Proofs.Json.Record

/-!
Configurations under every spelling. What is written for a configuration is read as that
configuration, also from its text; and so is whatever it is respelled to, up to the options that are
taken out, which go back to the defaults of their section. An option that is named twice is refused.
-/
namespace PatchSearch

open Json

section Sections

variable {removed : List String} {ms : List (String × Json)}

namespace LocalizationConfig

variable {c : LocalizationConfig}

/-- The spellings of the options, each with its own name first. -/
def spellings : List (List String) :=
  [["threshold", "thr"], ["formula"], ["max_modification_points", "maxNumberOfModificationPoints"]]

/-- Options whose numbers can be written. -/
structure Writable (c : LocalizationConfig) : Prop where
  threshold : c.threshold.isFinite = true
  maxPoints : c.maxPoints < wordCount

/-- The options with some of them put back to their defaults. -/
def without (c : LocalizationConfig) (removed : List String) : LocalizationConfig :=
  let base : LocalizationConfig := {}
  { threshold := keptOr removed "threshold" c.threshold base.threshold
    formula := keptOr removed "formula" c.formula base.formula
    maxPoints := keptOr removed "max_modification_points" c.maxPoints base.maxPoints }

theorem writes (c : LocalizationConfig) : Writes spellings c.encode.members :=
  ⟨by decide, rfl⟩

theorem decode_respelled (hc : c.Writable) (h : Respelled spellings c.encode.members removed ms) :
    decode (.object ms) = some (c.without removed) := by
  have hthreshold := h.withDefault (writes c) 0 rfl rfl (toFloat_ofFloat hc.threshold)
  have hformula := h.withDefault (writes c) 1 rfl rfl (Formula.decode_encode c.formula)
  have hmaxPoints := h.withDefault (writes c) 2 rfl rfl (toWord_nat c.maxPoints hc.maxPoints)
  change fields? spellings (.object ms) >>= _ = _
  rw [h.fields? (writes c)]
  simp only [Option.bind_eq_bind, Option.bind_some, hthreshold, hformula, hmaxPoints]
  rfl

theorem decode_eq_none {j : Json} (h : fields? spellings j = none) : decode j = none := by
  change fields? spellings j >>= _ = none
  rw [h]
  rfl

theorem printable_encode (c : LocalizationConfig) : Printable c.encode := by
  refine .object ?_
  simp [printable_ofFloat, Printable.nat, Formula.encode, Printable.text]

end LocalizationConfig

namespace SearchConfig

variable {c : SearchConfig}

/-- The spellings of the options, each with its own name first. -/
def spellings : List (List String) :=
  [["population_size", "populationSize"], ["max_generations", "maxGenerations"],
    ["number_of_objectives", "numberOfObjectives"],
    ["initialization_strategy", "initializationStrategy"], ["mu"], ["crossover_probability"],
    ["mutation_probability"], ["random_seed"]]

/-- Options whose numbers can be written. -/
structure Writable (c : SearchConfig) : Prop where
  populationSize : c.populationSize < wordCount
  maxGenerations : c.maxGenerations < wordCount
  objectives : c.objectives < wordCount
  mu : c.mu.isFinite = true
  crossoverProbability : c.crossoverProbability.isFinite = true
  mutationProbability : ∀ p ∈ c.mutationProbability, p.isFinite = true
  seed : ∀ n ∈ c.seed, n < wordCount

/-- The options with some of them put back to their defaults. -/
def without (c : SearchConfig) (removed : List String) : SearchConfig :=
  let base : SearchConfig := {}
  { populationSize := keptOr removed "population_size" c.populationSize base.populationSize
    maxGenerations := keptOr removed "max_generations" c.maxGenerations base.maxGenerations
    objectives := keptOr removed "number_of_objectives" c.objectives base.objectives
    initialization :=
      keptOr removed "initialization_strategy" c.initialization base.initialization
    mu := keptOr removed "mu" c.mu base.mu
    crossoverProbability :=
      keptOr removed "crossover_probability" c.crossoverProbability base.crossoverProbability
    mutationProbability :=
      keptOr removed "mutation_probability" c.mutationProbability base.mutationProbability
    seed := keptOr removed "random_seed" c.seed base.seed }

theorem writes (c : SearchConfig) : Writes spellings c.encode.members :=
  ⟨by decide, rfl⟩

theorem decode_respelled (hc : c.Writable) (h : Respelled spellings c.encode.members removed ms) :
    decode (.object ms) = some (c.without removed) := by
  have hpopulationSize :=
    h.withDefault (writes c) 0 rfl rfl (toWord_nat c.populationSize hc.populationSize)
  have hmaxGenerations :=
    h.withDefault (writes c) 1 rfl rfl (toWord_nat c.maxGenerations hc.maxGenerations)
  have hobjectives := h.withDefault (writes c) 2 rfl rfl (toWord_nat c.objectives hc.objectives)
  have hinitialization :=
    h.withDefault (writes c) 3 rfl rfl (Initialization.decode_encode c.initialization)
  have hmu := h.withDefault (writes c) 4 rfl rfl (toFloat_ofFloat hc.mu)
  have hcrossover :=
    h.withDefault (writes c) 5 rfl rfl (toFloat_ofFloat hc.crossoverProbability)
  have hmutation :=
    h.withDefault (writes c) 6 rfl rfl (toOption_ofOption_float hc.mutationProbability)
  have hseed := h.withDefault (writes c) 7 rfl rfl (toOption_ofOption_nat hc.seed)
  change fields? spellings (.object ms) >>= _ = _
  rw [h.fields? (writes c)]
  simp only [Option.bind_eq_bind, Option.bind_some, hpopulationSize, hmaxGenerations,
    hobjectives, hinitialization, hmu, hcrossover, hmutation, hseed]
  rfl

theorem decode_eq_none {j : Json} (h : fields? spellings j = none) : decode j = none := by
  change fields? spellings j >>= _ = none
  rw [h]
  rfl

theorem printable_encode (c : SearchConfig) : Printable c.encode := by
  refine .object ?_
  simp [printable_ofFloat, Printable.nat, Initialization.encode, Printable.text,
    printable_ofOption printable_ofFloat, printable_ofOption Printable.nat]

end SearchConfig

namespace EvaluationConfig

variable {c : EvaluationConfig}

/-- The spellings of the options, each with its own name first. -/
def spellings : List (List String) :=
  [["weight"], ["max_edits", "maxNumberOfEdits"], ["percentage"], ["wait_time_ms", "waitTime"],
    ["compile_timeout_ms", "compileTimeout"], ["filter_rules", "miFilterRule"]]

/-- Options whose numbers can be written. -/
structure Writable (c : EvaluationConfig) : Prop where
  weight : c.weight.isFinite = true
  maxEdits : ∀ n ∈ c.maxEdits, n < wordCount
  percentage : c.percentage.isFinite = true
  waitTimeMs : c.waitTimeMs < wordCount
  compileTimeoutMs : c.compileTimeoutMs < wordCount

/-- The options with some of them put back to their defaults. -/
def without (c : EvaluationConfig) (removed : List String) : EvaluationConfig :=
  let base : EvaluationConfig := {}
  { weight := keptOr removed "weight" c.weight base.weight
    maxEdits := keptOr removed "max_edits" c.maxEdits base.maxEdits
    percentage := keptOr removed "percentage" c.percentage base.percentage
    waitTimeMs := keptOr removed "wait_time_ms" c.waitTimeMs base.waitTimeMs
    compileTimeoutMs :=
      keptOr removed "compile_timeout_ms" c.compileTimeoutMs base.compileTimeoutMs
    filterRules := keptOr removed "filter_rules" c.filterRules base.filterRules }

theorem writes (c : EvaluationConfig) : Writes spellings c.encode.members :=
  ⟨by decide, rfl⟩

theorem decode_respelled (hc : c.Writable) (h : Respelled spellings c.encode.members removed ms) :
    decode (.object ms) = some (c.without removed) := by
  have hweight := h.withDefault (writes c) 0 rfl rfl (toFloat_ofFloat hc.weight)
  have hmaxEdits := h.withDefault (writes c) 1 rfl rfl (toOption_ofOption_nat hc.maxEdits)
  have hpercentage := h.withDefault (writes c) 2 rfl rfl (toFloat_ofFloat hc.percentage)
  have hwaitTime := h.withDefault (writes c) 3 rfl rfl (toWord_nat c.waitTimeMs hc.waitTimeMs)
  have hcompileTimeout :=
    h.withDefault (writes c) 4 rfl rfl (toWord_nat c.compileTimeoutMs hc.compileTimeoutMs)
  have hfilterRules := h.withDefault (writes c) 5 rfl rfl (toBool_bool c.filterRules)
  change fields? spellings (.object ms) >>= _ = _
  rw [h.fields? (writes c)]
  simp only [Option.bind_eq_bind, Option.bind_some, hweight, hmaxEdits, hpercentage, hwaitTime,
    hcompileTimeout, hfilterRules]
  rfl

theorem decode_eq_none {j : Json} (h : fields? spellings j = none) : decode j = none := by
  change fields? spellings j >>= _ = none
  rw [h]
  rfl

theorem printable_encode (c : EvaluationConfig) : Printable c.encode := by
  refine .object ?_
  simp [printable_ofFloat, Printable.nat, Printable.bool, printable_ofOption Printable.nat]

end EvaluationConfig

namespace NoveltyConfig

variable {c : NoveltyConfig}

/-- The spellings of the options, each with its own name first. -/
def spellings : List (List String) :=
  [["mode", "noveltySearchMode"], ["k_neighbors", "noveltyKNeighbors"],
    ["archive_size", "noveltyArchiveSize"], ["diversity_weight", "noveltyDiversityWeight"]]

/-- Options whose numbers can be written. -/
structure Writable (c : NoveltyConfig) : Prop where
  neighbors : c.neighbors < wordCount
  archiveSize : c.archiveSize < wordCount
  diversityWeight : c.diversityWeight.isFinite = true

/-- The options with some of them put back to their defaults. -/
def without (c : NoveltyConfig) (removed : List String) : NoveltyConfig :=
  let base : NoveltyConfig := {}
  { mode := keptOr removed "mode" c.mode base.mode
    neighbors := keptOr removed "k_neighbors" c.neighbors base.neighbors
    archiveSize := keptOr removed "archive_size" c.archiveSize base.archiveSize
    diversityWeight := keptOr removed "diversity_weight" c.diversityWeight base.diversityWeight }

theorem writes (c : NoveltyConfig) : Writes spellings c.encode.members :=
  ⟨by decide, rfl⟩

theorem decode_respelled (hc : c.Writable) (h : Respelled spellings c.encode.members removed ms) :
    decode (.object ms) = some (c.without removed) := by
  have hmode := h.withDefault (writes c) 0 rfl rfl (NoveltyMode.decode_encode c.mode)
  have hneighbors := h.withDefault (writes c) 1 rfl rfl (toWord_nat c.neighbors hc.neighbors)
  have harchiveSize := h.withDefault (writes c) 2 rfl rfl (toWord_nat c.archiveSize hc.archiveSize)
  have hweight := h.withDefault (writes c) 3 rfl rfl (toFloat_ofFloat hc.diversityWeight)
  change fields? spellings (.object ms) >>= _ = _
  rw [h.fields? (writes c)]
  simp only [Option.bind_eq_bind, Option.bind_some, hmode, hneighbors, harchiveSize, hweight]
  rfl

theorem decode_eq_none {j : Json} (h : fields? spellings j = none) : decode j = none := by
  change fields? spellings j >>= _ = none
  rw [h]
  rfl

theorem printable_encode (c : NoveltyConfig) : Printable c.encode := by
  refine .object ?_
  simp [printable_ofFloat, Printable.nat, NoveltyMode.encode, Printable.text]

end NoveltyConfig

namespace OutputConfig

variable {c : OutputConfig}

/-- The spellings of the option, its own name first. -/
def spellings : List (List String) :=
  [["patch_output_dir", "patchOutputRoot"]]

/-- The option, put back to its default when it is removed. -/
def without (c : OutputConfig) (removed : List String) : OutputConfig where
  patchDir := keptOr removed "patch_output_dir" c.patchDir none

theorem writes (c : OutputConfig) : Writes spellings c.encode.members :=
  ⟨by decide, rfl⟩

theorem decode_respelled (h : Respelled spellings c.encode.members removed ms) :
    decode (.object ms) = some (c.without removed) := by
  have hpatchDir := h.withDefault (writes c) 0 rfl rfl (toOption_ofOption_text c.patchDir)
  change fields? spellings (.object ms) >>= _ = _
  rw [h.fields? (writes c)]
  simp only [Option.bind_eq_bind, Option.bind_some, hpatchDir]
  rfl

theorem decode_eq_none {j : Json} (h : fields? spellings j = none) : decode j = none := by
  change fields? spellings j >>= _ = none
  rw [h]
  rfl

theorem printable_encode (c : OutputConfig) : Printable c.encode := by
  refine .object ?_
  simp [printable_ofOption Printable.text]

end OutputConfig

end Sections

namespace RepairConfig

variable {c : RepairConfig}

/-- The sections by name, with the spellings of their options. -/
def sections : List (String × List (List String)) :=
  [("localization", LocalizationConfig.spellings), ("search", SearchConfig.spellings),
    ("evaluation", EvaluationConfig.spellings), ("novelty", NoveltyConfig.spellings),
    ("output", OutputConfig.spellings)]

/-- A section has one name only. -/
def spellings : List (List String) :=
  sections.map fun s => [s.1]

/-- A configuration whose numbers can be written. -/
structure Writable (c : RepairConfig) : Prop where
  localization : c.localization.Writable
  search : c.search.Writable
  evaluation : c.evaluation.Writable
  novelty : c.novelty.Writable

/-- The configuration with some sections put back to their defaults, and some options of the
others. -/
def without (c : RepairConfig) (removed : List String) (options : String → List String) :
    RepairConfig where
  localization :=
    keptOr removed "localization" (c.localization.without (options "localization")) {}
  search := keptOr removed "search" (c.search.without (options "search")) {}
  evaluation := keptOr removed "evaluation" (c.evaluation.without (options "evaluation")) {}
  novelty := keptOr removed "novelty" (c.novelty.without (options "novelty")) {}
  output := keptOr removed "output" (c.output.without (options "output")) {}

/-- The members of the ways in which a configuration may be spelled: every section is respelled, and
so is the object of the sections. Some sections are removed, and some options of each section. -/
inductive Spelled (c : RepairConfig) (removed : List String) (options : String → List String) :
    List (String × Json) → Prop
  | intro {localization search evaluation novelty output ms : List (String × Json)}
      (localizations : Respelled LocalizationConfig.spellings c.localization.encode.members
        (options "localization") localization)
      (searches : Respelled SearchConfig.spellings c.search.encode.members (options "search")
        search)
      (evaluations : Respelled EvaluationConfig.spellings c.evaluation.encode.members
        (options "evaluation") evaluation)
      (novelties : Respelled NoveltyConfig.spellings c.novelty.encode.members (options "novelty")
        novelty)
      (outputs : Respelled OutputConfig.spellings c.output.encode.members (options "output")
        output)
      (sections : Respelled spellings [("localization", .object localization),
        ("search", .object search), ("evaluation", .object evaluation),
        ("novelty", .object novelty), ("output", .object output)] removed ms) :
      Spelled c removed options ms

/-- However a configuration is spelled, it is read with the options that are not removed. -/
theorem decode_spelled {removed : List String} {options : String → List String}
    {ms : List (String × Json)} (hc : c.Writable) (h : c.Spelled removed options ms) :
    decode (.object ms) = some (c.without removed options) := by
  obtain @⟨localization, search, evaluation, novelty, output, ms, localizations, searches,
    evaluations, novelties, outputs, h⟩ := h
  have hw : Writes spellings [("localization", .object localization), ("search", .object search),
      ("evaluation", .object evaluation), ("novelty", .object novelty),
      ("output", .object output)] := ⟨by decide, rfl⟩
  have hlocalization := h.withDefault hw 0 rfl rfl
    (LocalizationConfig.decode_respelled hc.localization localizations)
  have hsearch := h.withDefault hw 1 rfl rfl (SearchConfig.decode_respelled hc.search searches)
  have hevaluation := h.withDefault hw 2 rfl rfl
    (EvaluationConfig.decode_respelled hc.evaluation evaluations)
  have hnovelty := h.withDefault hw 3 rfl rfl (NoveltyConfig.decode_respelled hc.novelty novelties)
  have houtput := h.withDefault hw 4 rfl rfl (OutputConfig.decode_respelled outputs)
  change fields? spellings (.object ms) >>= _ = _
  rw [h.fields? hw]
  simp only [Option.bind_eq_bind, Option.bind_some, hlocalization, hsearch, hevaluation,
    hnovelty, houtput]
  rfl

theorem spelled_encode (c : RepairConfig) : c.Spelled [] (fun _ => []) c.encode.members :=
  ⟨.written, .written, .written, .written, .written, .written⟩

theorem printable_encode (c : RepairConfig) : Printable c.encode := by
  refine .object ?_
  simp [LocalizationConfig.printable_encode, SearchConfig.printable_encode,
    EvaluationConfig.printable_encode, NoveltyConfig.printable_encode,
    OutputConfig.printable_encode]

/-- A section that is refused is not replaced by its defaults. -/
theorem withDefault_of_section {α : Type} {decode : Decoder α} {name : String}
    {members : List (String × Json)} {j : Json}
    (honce : ∀ field ∈ spellings, (membersNamed field members).length ≤ 1)
    (hname : [name] ∈ spellings) (hj : (name, j) ∈ members) (hdecode : decode j = none)
    (default : α) : (found spellings members).withDefault name decode default = none := by
  have hmem : j ∈ membersNamed [name] members :=
    mem_membersNamed.mpr ⟨name, List.mem_singleton_self name, hj⟩
  have hlength := honce [name] hname
  have hvalue : (found spellings members).value? name = some j := by
    rw [value?_found (by decide) hname rfl]
    rcases hvalues : membersNamed [name] members with _ | ⟨j', _ | ⟨j'', js⟩⟩ <;>
      rw [hvalues] at hmem hlength
    · cases hmem
    · rw [List.mem_singleton.mp hmem]
      rfl
    · simp at hlength
  unfold Fields.withDefault
  rw [hvalue]
  exact hdecode

/-- An option that is named twice is refused, in whatever section. -/
theorem decode_of_twice {name key key' : String} {names : List (List String)} {field : List String}
    {members ms : List (String × Json)} {j j' : Json} (hsection : (name, names) ∈ sections)
    (hms : (name, .object ms) ∈ members) (hfield : field ∈ names) (hkey : key ∈ field)
    (hkey' : key' ∈ field) (hne : key ≠ key') (h : (key, j) ∈ ms) (h' : (key', j') ∈ ms) :
    decode (.object members) = none := by
  have hnone := fields?_of_twice hfield hkey hkey' hne h h'
  change fields? spellings (.object members) >>= _ = none
  -- the document is refused as a whole, or the section with the option is the one that is read
  rcases hfields : fields? spellings (.object members) with _ | f
  · rfl
  obtain ⟨honce, rfl⟩ := fields?_eq_some_iff.mp hfields
  have hrefused {α : Type} {decode : Decoder α} (hdecode : decode (.object ms) = none)
      (default : α) : (found spellings members).withDefault name decode default = none :=
    withDefault_of_section honce (List.mem_map_of_mem (f := fun s => [s.1]) hsection) hms hdecode
      default
  simp only [sections, List.mem_cons, List.not_mem_nil, or_false, Prod.mk.injEq] at hsection
  rw [Option.bind_eq_bind, Option.bind_some]
  obtain ⟨rfl, rfl⟩ | ⟨rfl, rfl⟩ | ⟨rfl, rfl⟩ | ⟨rfl, rfl⟩ | ⟨rfl, rfl⟩ := hsection
  · simp [hrefused (LocalizationConfig.decode_eq_none hnone)]
  · simp [hrefused (SearchConfig.decode_eq_none hnone)]
  · simp [hrefused (EvaluationConfig.decode_eq_none hnone)]
  · simp [hrefused (NoveltyConfig.decode_eq_none hnone)]
  · simp [hrefused (OutputConfig.decode_eq_none hnone)]

/-- A document with an option of a section under two of its names. -/
def NamesTwice (members : List (String × Json)) : Prop :=
  ∃ s ∈ sections, ∃ ms, (s.1, .object ms) ∈ members ∧ ∃ field ∈ s.2, ∃ key ∈ field, ∃ key' ∈ field,
    key ≠ key' ∧ key ∈ ms.map Prod.fst ∧ key' ∈ ms.map Prod.fst

theorem without_nil (c : RepairConfig) : c.without [] (fun _ => []) = c :=
  rfl

/-- Configurations survive being written, however they are then spelled: the text of a configuration
is read as that configuration; with other names for options, in another order and among members that
are no options it is read the same; what is removed goes back to its default and nothing else
changes; and a document that names an option twice is refused. -/
theorem survives_spelling (hc : c.Writable) :
    (parse? c.encode.pretty).bind decode = some c ∧
      (∀ members, c.Spelled [] (fun _ => []) members → decode (.object members) = some c) ∧
      (∀ removed options members, c.Spelled removed options members →
        decode (.object members) = some (c.without removed options)) ∧
      ∀ members, NamesTwice members → decode (.object members) = none := by
  have hsame (members : List (String × Json)) (h : c.Spelled [] (fun _ => []) members) :
      decode (.object members) = some c := by
    rw [decode_spelled hc h, without_nil]
  refine ⟨?_, hsame, fun removed options members h => decode_spelled hc h, ?_⟩
  · rw [parse?_pretty c.printable_encode, Option.bind_some]
    exact hsame _ c.spelled_encode
  · rintro members ⟨s, hs, ms, hms, field, hfield, key, hkey, key', hkey', hne, h, h'⟩
    obtain ⟨m, hm, rfl⟩ := List.mem_map.mp h
    obtain ⟨m', hm', rfl⟩ := List.mem_map.mp h'
    exact decode_of_twice hs hms hfield hkey hkey' hne hm hm'

/-- A configuration with options of its own in four sections. -/
def tuned : RepairConfig where
  search := { populationSize := 8, mu := 0.25, mutationProbability := some 0.5, seed := some 7 }
  evaluation := { waitTimeMs := 1500, maxEdits := some 3 }
  novelty := { mode := .full }
  output := { patchDir := some "patches" }

/-- The document of that configuration with an option by its other name, without the scale of the
prior and the section on novelty, and with notes. -/
def tunedMembers : List (String × Json) :=
  [("note", .null), ("localization", tuned.localization.encode),
    ("search", .object [("note", .null), ("populationSize", .nat 8), ("max_generations", .nat 50),
      ("number_of_objectives", .nat 2), ("initialization_strategy", .text "Prior"),
      ("crossover_probability", .real 1.0), ("mutation_probability", .real 0.5),
      ("random_seed", .nat 7)]),
    ("evaluation", tuned.evaluation.encode), ("output", tuned.output.encode)]

theorem survives_spelling_of_tuned :
    tuned.Writable ∧ (parse? tuned.encode.pretty).bind decode = some tuned ∧
      tuned.Spelled ["novelty"] (fun name => if name = "search" then ["mu"] else [])
        tunedMembers ∧
      decode (.object tunedMembers) =
        some { tuned with search := { tuned.search with mu := 0.06 }, novelty := {} } ∧
      decode (.object [("search", .object [("populationSize", .nat 8),
        ("population_size", .nat 8)])]) = none := by
  have hwritable : tuned.Writable := by
    refine ⟨⟨rfl, by decide⟩, ⟨by decide, by decide, by decide, rfl, rfl, ?_, ?_⟩,
      ⟨rfl, ?_, rfl, by decide, by decide⟩, by decide, by decide, rfl⟩
    · rintro p ⟨⟩
      rfl
    · rintro n ⟨⟩
      decide
    · rintro n ⟨⟩
      decide
  have hspelled : tuned.Spelled ["novelty"] (fun name => if name = "search" then ["mu"] else [])
      tunedMembers := by
    have hremove := @Respelled.remove SearchConfig.spellings tuned.search.encode.members []
      (tuned.search.encode.members.take 4) (tuned.search.encode.members.drop 5) ["mu"] "mu" "mu"
      (.real 0.25) (by decide) rfl (by decide) .written
    have hrename := @Respelled.rename SearchConfig.spellings tuned.search.encode.members ["mu"] []
      ((tuned.search.encode.members.drop 1).eraseIdx 3) ["population_size", "populationSize"]
      "population_size" "populationSize" (.nat 8) (by decide) (by decide) (by decide) hremove
    have hadd := @Respelled.add SearchConfig.spellings _ ["mu"] _ "note" (by decide) .null hrename
    refine .intro .written hadd .written .written .written ?_
    exact .add (by decide) .null (@Respelled.remove _ _ _ [_, _, _] [_] ["novelty"] "novelty"
      "novelty" _ (by decide) rfl (by decide) .written)
  obtain ⟨htext, -, hremoved, htwice⟩ := survives_spelling hwritable
  refine ⟨hwritable, htext, hspelled, hremoved _ _ _ hspelled, htwice _ ?_⟩
  exact ⟨("search", SearchConfig.spellings), by decide, _, List.mem_singleton_self _,
    ["population_size", "populationSize"], by decide, "populationSize", by decide,
    "population_size", by decide, by decide, by decide, by decide⟩

end RepairConfig

end PatchSearch
