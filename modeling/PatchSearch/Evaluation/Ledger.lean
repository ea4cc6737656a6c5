import PatchSearch.Files.Storage
import PatchSearch.Json.Basic
import PatchSearch.Program.Patch
import PatchSearch.Evaluation.Select

/-!
The store of accepted patches. It knows every patch that was ever added and keeps the records of
the accepted ones, in memory and, with an output directory, as one document each. A record that
cannot be written is not kept.
-/
namespace PatchSearch

structure PatchStore where
  patches : List Patch
  records : List PatchRecord
  outputDir : Option String
  deriving DecidableEq, Repr, Inhabited

namespace PatchStore

variable {σ : Type}

def empty : PatchStore :=
  ⟨[], [], none⟩

/-- The number of different patches. -/
def length (s : PatchStore) : Nat :=
  s.patches.length

def contains (s : PatchStore) (p : Patch) : Bool :=
  s.patches.contains p

/-- Adds a patch; whether it is new. -/
def add (s : PatchStore) (p : Patch) : Bool × PatchStore :=
  if s.contains p then (false, s) else (true, { s with patches := s.patches ++ [p] })

/-- An empty store with an output directory, which is made. -/
def openDir (files : Storage σ) (dir : String) (world : σ) :
    Except FileError PatchStore × σ :=
  match files.makeDirs dir world with
  | (.ok (), world) => (.ok { empty with outputDir := some dir }, world)
  | (.error e, world) => (.error e, world)

/-- Keeps a record; the path it was written to, if the store has an output directory. -/
def record (s : PatchStore) (files : Storage σ) (r : PatchRecord) (world : σ) :
    Except FileError (Option String) × PatchStore × σ :=
  match s.outputDir with
  | none => (.ok none, { s with records := s.records ++ [r] }, world)
  | some dir =>
    let path := joinPath dir (PatchRecord.fileName r.id)
    match files.write path (Text.encode r.encode.pretty) world with
    | (.ok (), world) => (.ok (some path), { s with records := s.records ++ [r] }, world)
    | (.error e, world) => (.error e, s, world)

/-- Whether a file has the name of a record. -/
def isRecordName (name : String) : Bool :=
  "patch_".toList.isPrefixOf name.toList && ".json".toList.isSuffixOf name.toList

/-- Reads all records of a directory, ascending by number. -/
def loadRecords (files : Storage σ) (dir : String) (world : σ) :
    Except FileError (List PatchRecord) := do
  let names ← files.list dir world
  let records ← (names.filter isRecordName).mapM fun name =>
    files.readDocument PatchRecord.decode (joinPath dir name) world
  return records.mergeSort fun a b => decide (a.id ≤ b.id)

theorem add_eq_of_contains (s : PatchStore) (p : Patch) (h : s.contains p = true) :
    s.add p = (false, s) := by
  simp [add, h]

end PatchStore

end PatchSearch

/-!
The books of a run: how many evaluations have begun, which number the next patch gets, when the
run started, and the patches accepted so far. A patch that was accepted before is not accepted
again; a new one keeps its number even if its record cannot be written.
-/
namespace PatchSearch

structure Ledger where
  evaluations : Nat
  nextPatchId : Nat
  startedAt : Nat
  patches : PatchStore
  deriving DecidableEq, Repr, Inhabited

namespace Ledger

variable {σ : Type}

/-- The books of a run that starts now with the given store. -/
def start (patches : PatchStore) (now : Nat) : Ledger :=
  ⟨0, 0, now, patches⟩

/-- Begins an evaluation and gives it the next number. -/
def begin (l : Ledger) : Nat × Ledger :=
  (l.evaluations, { l with evaluations := l.evaluations + 1 })

/-- The record of the patch that is accepted next. -/
def recordOf (l : Ledger) (edits : List AppliedEdit) (now : Nat) : PatchRecord where
  id := l.nextPatchId
  evaluations := l.evaluations
  elapsedMs := now - l.startedAt
  operators := edits.map (·.operatorIndex)
  locations := edits.map (·.point)
  ingredients := edits.map (·.ingredientIndex)
  edits := edits.map AppliedEdit.recorded

/-- Accepts the patch of some edits, unless it is known; the number it gets. -/
def accept (l : Ledger) (files : Storage σ) (edits : List AppliedEdit) (now : Nat) (world : σ) :
    Option Nat × Ledger × σ :=
  match l.patches.add (Patch.ofEdits (edits.map AppliedEdit.patchEdit)) with
  | (false, _) => (none, l, world)
  | (true, patches) =>
    let (_, patches, world) := patches.record files (l.recordOf edits now) world
    (some l.nextPatchId, { l with nextPatchId := l.nextPatchId + 1, patches }, world)

theorem begin_evaluations (l : Ledger) : l.begin.2.evaluations = l.evaluations + 1 := rfl

end Ledger

end PatchSearch
