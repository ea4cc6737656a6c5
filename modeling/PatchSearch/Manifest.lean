import PatchSearch.Config.Codec
import PatchSearch.Files.Storage

/-!
Run manifests: the configuration of a run, the files it reads and writes, and the commands that
build and test a candidate. Relative paths of a manifest are taken from the directory it lies in.
-/
namespace PatchSearch

/-- A command with placeholders in its arguments. -/
structure CommandSpec where
  program : String
  args : List String := []
  timeoutMs : Option Nat := none

structure RunManifest where
  config : RepairConfig := {}
  coverage : String
  catalog : String
  sourceRoot : String
  workDir : String
  compile : CommandSpec
  test : CommandSpec
  result : Option String := none

/-- The work directory of a manifest that names none. -/
def defaultWorkDir : String :=
  "evorepair-work"

namespace CommandSpec

def decode : Json.Decoder CommandSpec := fun j => do
  let f ← Json.fields? [["program"], ["args"], ["timeout_ms"]] j
  let program ← f.required "program" Json.toText
  let args ← f.withDefault "args" (Json.toArray Json.toText) []
  let timeoutMs ← f.withDefault "timeout_ms" (Json.toOption Json.toWord) none
  return { program, args, timeoutMs }

def encode (c : CommandSpec) : Json :=
  .object [("program", .text c.program), ("args", Json.ofList .text c.args),
    ("timeout_ms", Json.ofOption .nat c.timeoutMs)]

end CommandSpec

namespace RunManifest

def decode : Json.Decoder RunManifest := fun j => do
  let f ← Json.fields? [["config"], ["coverage"], ["catalog"], ["source_root"], ["work_dir"],
    ["compile"], ["test"], ["result"]] j
  let config ← f.withDefault "config" RepairConfig.decode {}
  let coverage ← f.required "coverage" Json.toText
  let catalog ← f.required "catalog" Json.toText
  let sourceRoot ← f.required "source_root" Json.toText
  let workDir ← f.withDefault "work_dir" Json.toText defaultWorkDir
  let compile ← f.required "compile" CommandSpec.decode
  let test ← f.required "test" CommandSpec.decode
  let result ← f.withDefault "result" (Json.toOption Json.toText) none
  return { config, coverage, catalog, sourceRoot, workDir, compile, test, result }

def encode (m : RunManifest) : Json :=
  .object [("config", m.config.encode), ("coverage", .text m.coverage),
    ("catalog", .text m.catalog), ("source_root", .text m.sourceRoot),
    ("work_dir", .text m.workDir), ("compile", m.compile.encode), ("test", m.test.encode),
    ("result", Json.ofOption .text m.result)]

/-- Takes the relative paths of a manifest from a directory. -/
def resolved (m : RunManifest) (base : String) : RunManifest :=
  { m with
    config := { m.config with
      output := { patchDir := m.config.output.patchDir.map (joinPath base) } }
    coverage := joinPath base m.coverage
    catalog := joinPath base m.catalog
    sourceRoot := joinPath base m.sourceRoot
    workDir := joinPath base m.workDir
    result := m.result.map (joinPath base) }

/-- Reads a manifest and takes its paths from the directory it lies in. -/
def load {σ : Type} (files : Storage σ) (path : String) (world : σ) :
    Except FileError RunManifest := do
  let m ← files.readDocument decode path world
  return m.resolved ((parentPath path).getD ".")

/-- A manifest to start from. -/
def sample : RunManifest where
  config := { output := { patchDir := some "patches" } }
  coverage := "coverage.json"
  catalog := "catalog.json"
  sourceRoot := "src/main/java"
  workDir := defaultWorkDir
  compile := {
    program := "javac"
    args := ["-d", "\x7bout\x7d", "-sourcepath", "\x7bsrc\x7d"]
    timeoutMs := some 120000 }
  test := { program := "./run-tests.sh", args := ["\x7bartifact\x7d"] }
  result := some "result.json"

end RunManifest

end PatchSearch
