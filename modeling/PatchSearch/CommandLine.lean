import PatchSearch.Command
import PatchSearch.Manifest
import PatchSearch.Session
import PatchSearch.Shell.Host

/-!
The command line. It takes the path of a run manifest, makes the run that the manifest describes,
prints its progress and a summary, and stores the result. A run that cannot be made ends with
status one and a line on the error output that tells why.
-/
namespace PatchSearch

/-- How a call of the program ended: its status and what it wrote to the error output. What it
printed is in the host. -/
structure CallEnd where
  status : Nat
  complaint : String
  host : Host

namespace CommandLine

/-- How to call the program. -/
def usage (program : String) : String :=
  "Usage: " ++ program ++ " <manifest.json>\n\n" ++
    "Search for patches that make the failing tests pass.\n\n" ++
    "Arguments:\n" ++
    "  manifest.json  Run manifest (configuration, inputs and commands)\n\n" ++
    "An example manifest is printed with the --example flag.\n"

/-- Prints a line. -/
def printLine (line : String) (h : Host) : Host :=
  { h with printed := h.printed ++ line ++ "\n" }

/-- Ends a call that cannot go on. -/
def fail (reason : String) (h : Host) : CallEnd :=
  ⟨1, reason ++ "\n", h⟩

/-- What is printed before a search. -/
def banner (m : RunManifest) : List String :=
  ["evorepair", "=========", "Source root: " ++ m.sourceRoot,
    "Population: " ++ toString m.config.search.populationSize ++ ", generations: " ++
      toString m.config.search.maxGenerations ++ ", objectives: " ++
      toString m.config.search.objectives,
    "Novelty: " ++ m.config.novelty.mode.title, ""]

/-- The line that tells the progress of a search. -/
def progressLine (p : SearchProgress Float) : String :=
  "  Generation " ++ toString p.generation ++ "/" ++ toString p.totalGenerations ++ ": " ++
    toString p.evaluations ++ " evaluations, front=" ++ toString p.frontSize ++ ", best=" ++
    Decimal.fixed 4 p.bestFitness ++ ", patches=" ++ toString p.patchesFound

/-- The line of an edit in the summary. -/
def editLine (e : RecordedEdit) : String :=
  "    " ++ e.operator.name ++ " " ++ e.location.display ++ ": " ++ e.statement ++
    match e.ingredient with
    | some ingredient => " -> " ++ ingredient
    | none => ""

/-- The lines of a patch in the summary. -/
def patchLines (r : PatchRecord) : List String :=
  ("  Patch " ++ toString r.id ++ " (evaluation " ++ toString r.evaluations ++ ", " ++
    toString r.elapsedMs ++ " ms):") :: r.edits.map editLine

/-- What is printed after a search. -/
def summary (r : SearchResult Float) : List String :=
  ["", "Search finished (" ++ r.stats.stopReason.name ++ ")",
    "  " ++ toString r.stats.totalEvaluations ++ " evaluations in " ++
      Decimal.fixed 1 r.stats.elapsedSeconds ++ "s (" ++
      Decimal.fixed 2 r.stats.evaluationsPerSecond ++ "/s)",
    "  Pareto front: " ++ toString r.front.length ++ " candidates",
    "  Test-adequate patches: " ++ toString r.patches.length] ++ r.patches.flatMap patchLines

/-- Stores the result of a search, if the manifest names a place for it. -/
def storeResult (m : RunManifest) (r : SearchResult Float) (h : Host) : CallEnd :=
  match m.result with
  | none => ⟨0, "", h⟩
  | some path =>
    match Host.storage.write path (Text.encode r.encode.pretty) h with
    | (.error e, h) => fail ("Error writing " ++ path ++ ": " ++ e.message) h
    | (.ok (), h) => ⟨0, "", printLine ("Result written to " ++ path) h⟩

/-- The commands of a manifest as a toolchain. -/
def toolchain (m : RunManifest) : Toolchain Host :=
  commandToolchain Host.storage Host.launch Host.clock
    { program := m.compile.program
      args := m.compile.args
      workDir := m.workDir
      limit := Duration.ofMillis m.config.evaluation.compileTimeoutMs }
    { program := m.test.program, args := m.test.args }

/-- The time limit of the build command takes the place of the configured one. -/
def withBuildLimit (m : RunManifest) : RunManifest :=
  match m.compile.timeoutMs with
  | none => m
  | some ms =>
    { m with config := { m.config with
        evaluation := { m.config.evaluation with compileTimeoutMs := ms } } }

/-- Makes the search of a session. -/
def search (m : RunManifest) (session : RepairSession) (entropy : UInt64) (h : Host) : CallEnd :=
  let h := (banner m).foldl (fun h l => printLine l h) h
  let notify (p : SearchProgress Float) (h : Host) : Host := printLine (progressLine p) h
  match session.prepare (toolchain m) notify (.root m.sourceRoot) entropy h with
  | .error e => fail ("Error: " ++ e.message) h
  | .ok (s, engine) =>
    let bench := { engine.bench with world := printLine "Searching..." engine.bench.world }
    match s.run { engine with bench } with
    | .error _ => ⟨101, "The search broke down\n", h⟩
    | .ok (r, engine) =>
      storeResult m r ((summary r).foldl (fun h l => printLine l h) engine.bench.world)

/-- Makes the run of a manifest. -/
def runManifest (path : String) (entropy : UInt64) (h : Host) : CallEnd :=
  match RunManifest.load Host.storage path h with
  | .error e => fail ("Error reading manifest: " ++ e.message) h
  | .ok m =>
    let m := withBuildLimit m
    match readCatalog Host.storage m.catalog h with
    | .error e => fail ("Error loading catalog: " ++ e.message) h
    | .ok catalog =>
      match RepairSession.ofCoverage Host.storage m.config m.coverage catalog h with
      | .error e => fail ("Error: " ++ e.message) h
      | .ok session => search m session entropy h

/-- A call of the program with arguments. Runs without a seed draw from `entropy`. -/
def call (program : String) (args : List String) (entropy : UInt64) (h : Host) : CallEnd :=
  match args with
  | [] => ⟨1, usage program, h⟩
  | "--example" :: _ =>
    ⟨0, "", printLine RunManifest.sample.encode.pretty
      (printLine "Example manifest (manifest.json):" h)⟩
  | path :: _ => runManifest path entropy h

theorem call_nil_status (program : String) (entropy : UInt64) (h : Host) :
    (call program [] entropy h).status = 1 := rfl

end CommandLine

end PatchSearch
