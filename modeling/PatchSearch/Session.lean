import PatchSearch.Random
import PatchSearch.Search.Engine

/-!
Repair sessions. A session holds a validated configuration, the localized fault and a catalog of
points. Preparing it narrows the catalog to the suspicious points, reads the sources and opens
the patch store; one random source gives the trimming its draws and both the evaluation and the
search their seeds.
-/
namespace PatchSearch

inductive RepairError where
  | config (error : ConfigError)
  | model (error : ModelError)
  | io (error : FileError)

namespace RepairError

/-- The error in words. -/
def message : RepairError → String
  | config e => "Invalid configuration: " ++ e.message
  | model e => e.message
  | io e => "I/O error: " ++ e.message

end RepairError

/-- Where the unmodified sources come from. -/
inductive Sources where
  | root (path : String)
  | inMemory (tree : SourceTree)

structure RepairSession where
  config : RepairConfig
  localization : Localization
  catalog : List Point

namespace RepairSession

/-- Opens a session if its configuration is valid. -/
def start (config : RepairConfig) (localization : Localization) (catalog : List Point) :
    Except RepairError RepairSession :=
  match config.validate with
  | .ok () => .ok ⟨config, localization, catalog⟩
  | .error e => .error (.config e)

/-- Opens a session on a stored coverage report. -/
def ofCoverage {σ : Type} (files : Storage σ) (config : RepairConfig) (coverage : String)
    (catalog : List Point) (world : σ) : Except RepairError RepairSession :=
  start config (Localization.ofFile files coverage config.localization.formula world) catalog

/-- Whether the suite can guide a repair: it has a negative test, and no test is on both
sides. -/
def checkSuite (tests : TestSuite) : Except RepairError Unit :=
  if tests.negative.isEmpty then .error (.model .noFailingTests)
  else if tests.overlap.length > 0 then
    .error (.model (.overlappingTests tests.overlap.length))
  else .ok ()

/-- The program model of a session. -/
def model (s : RepairSession) (g : Random) : Except RepairError (ProgramModel × Random) :=
  let scores := s.localization.suspicious s.config.localization.threshold
  let points := suspiciousPoints s.catalog scores
  match ProgramModel.ofCatalog points s.config.localization.maxPoints g with
  | .ok r => .ok r
  | .error e => .error (.model e)

/-- The sources that a model needs. -/
def readSources {σ : Type} (files : Storage σ) (model : ProgramModel) (world : σ) :
    Sources → Except RepairError SourceTree
  | .inMemory tree => .ok tree
  | .root path =>
    match SourceTree.load files path (model.points.map (·.location.file)) world with
    | .ok tree => .ok tree
    | .error e => .error (.io e)

/-- The patch store that a configuration asks for. -/
def openStore {σ : Type} (files : Storage σ) (output : OutputConfig) (world : σ) :
    Except RepairError (PatchStore × σ) :=
  match output.patchDir with
  | none => .ok (PatchStore.empty, world)
  | some dir =>
    match PatchStore.openDir files dir world with
    | (.ok store, world) => .ok (store, world)
    | (.error e, _) => .error (.io e)

variable {α σ : Type} [Scalar α]

/-- Builds the search of a session and its engine. Without a configured seed `entropy` is the
seed. -/
def prepare (s : RepairSession) (tools : Toolchain σ) (notify : SearchProgress α → σ → σ)
    (sources : Sources) (entropy : UInt64) (world : σ) :
    Except RepairError (Search α σ × Engine α σ) := do
  let tests := s.localization.tests
  checkSuite tests
  let seed := match s.config.search.seed with
    | some n => UInt64.ofNat n
    | none => entropy
  let (model, g) ← s.model (Random.ofSeed seed)
  let tree ← readSources tools.files model world sources
  let (store, world) ← openStore tools.files s.config.output world
  let (evaluationSeed, g) := g.doubleWord
  let (searchSeed, _) := g.doubleWord
  let ledger := Ledger.start store (tools.clock world)
  let bench := Bench.start s.config.novelty.archiveSize evaluationSeed ledger world
  let search : Search α σ := {
    config := { s.config.search with seed := some searchSeed.toNat }
    setup := Setup.ofConfig model tests s.config tree
    tools := tools
    notify := notify }
  return (search, Search.engine bench searchSeed)

end RepairSession

end PatchSearch
