import PatchSearch.Files.Storage
import PatchSearch.Program.Point
import PatchSearch.SortedList
import PatchSearch.Text.Basic

/-!
Edits of source files. An edit deletes a line, puts a text in its place or puts a text before it;
what is put in takes the indentation of the line. The edits of a script are applied per file from
the last line upwards, so that the numbers of the lines above stay valid.
-/
namespace PatchSearch

inductive EditKind where
  | delete
  | replace (text : String)
  | insertBefore (text : String)
  deriving DecidableEq, Repr, Inhabited

structure Edit where
  location : Location
  kind : EditKind
  deriving DecidableEq, Repr, Inhabited

inductive PatchError where
  | missingIngredient (operator : Operator) (location : Location)
  | unknownFile (file : String)
  | lineOutOfRange (location : Location) (lines : Nat)
  | conflict (location : Location)
  deriving DecidableEq, Repr

namespace PatchError

/-- The name of the error. -/
def kind : PatchError → String
  | missingIngredient _ _ => "MissingIngredient"
  | unknownFile _ => "UnknownFile"
  | lineOutOfRange _ _ => "LineOutOfRange"
  | conflict _ => "Conflict"

/-- The error in words. -/
def message : PatchError → String
  | missingIngredient o l => o.name ++ " at " ++ l.display ++ " needs an ingredient"
  | unknownFile file => "Unknown source file: " ++ file
  | lineOutOfRange l n =>
    l.display ++ " is outside the file (" ++ toString n ++ " lines)"
  | conflict l => "Conflicting edits at " ++ l.display

end PatchError

/-- The edit of whole lines that an operator makes at a point. -/
def lineEdit (p : Point) (operator : Operator) (ingredient : Option Ingredient) :
    Except PatchError Edit :=
  match operator, ingredient with
  | .delete, _ => .ok ⟨p.location, .delete⟩
  | .replace, some i => .ok ⟨p.location, .replace i.source⟩
  | .insertBefore, some i => .ok ⟨p.location, .insertBefore i.source⟩
  | o, none => .error (.missingIngredient o p.location)

/-- The source files of a program. -/
structure SourceTree where
  root : Option String
  files : TextMap String

namespace SourceTree

def ofFiles (files : List (String × String)) : SourceTree :=
  ⟨none, TextMap.ofEntries files⟩

def file? (t : SourceTree) (file : String) : Option String :=
  t.files.lookup file

/-- Reads files below a root into a map, each of them once. -/
def loadInto {σ : Type} (storage : Storage σ) (root : String) (world : σ) :
    TextMap String → List String → Except FileError (TextMap String)
  | loaded, [] => .ok loaded
  | loaded, file :: rest =>
    if (loaded.lookup file).isSome then loadInto storage root world loaded rest
    else do
      let text ← storage.readText (joinPath root file) world
      loadInto storage root world (TextMap.insertEntry file text loaded) rest

/-- Reads the named files below a root. -/
def load {σ : Type} (storage : Storage σ) (root : String) (files : List String) (world : σ) :
    Except FileError SourceTree := do
  return ⟨some root, ← loadInto storage root world [] files⟩

end SourceTree

/-- Edits of one file, each with its line. -/
abbrev LineEdit := Nat × EditKind

/-- Puts a text before or in place of the line at an index, or takes the line away. -/
def EditKind.apply (kind : EditKind) (i : Nat) (lines : List (List Char)) : List (List Char) :=
  let indent := Text.indent (lines[i]?.getD [])
  match kind with
  | .delete => lines.eraseIdx i
  | .replace text => lines.set i (indent ++ Text.trim text.toList)
  | .insertBefore text => lines.insertIdx i (indent ++ Text.trim text.toList)

/-- The line of the first two neighbours that name the same line. -/
def repeatedLine? : List LineEdit → Option Nat
  | a :: b :: es => if a.1 = b.1 then some a.1 else repeatedLine? (b :: es)
  | _ => none

/-- Applies edits in their order; every line number has to be one of the `count` lines before
any edit. -/
def applyInOrder (file : String) (count : Nat) :
    List LineEdit → List (List Char) → Except PatchError (List (List Char))
  | [], lines => .ok lines
  | (line, kind) :: es, lines =>
    if line = 0 ∨ count < line then .error (.lineOutOfRange ⟨file, line⟩ count)
    else applyInOrder file count es (kind.apply (line - 1) lines)

/-- The text of a file after its edits. -/
def applyEdits (file text : String) (edits : List LineEdit) : Except PatchError String := do
  let chars := text.toList
  let lines := Text.lines chars
  let ordered := edits.mergeSort fun a b => decide (b.1 ≤ a.1)
  match repeatedLine? ordered with
  | some line => .error (.conflict ⟨file, line⟩)
  | none =>
    let edited ← applyInOrder file lines.length ordered lines
    let separator := Text.lineBreak chars
    let body := Text.joinWith separator edited
    return String.ofList (if Text.endsWithBreak chars then body ++ separator else body)

/-- A list of edits in the order they were added. -/
structure EditScript where
  edits : List Edit
  deriving DecidableEq, Repr, Inhabited

namespace EditScript

/-- The files that are edited, ascending. -/
def files (s : EditScript) : List String :=
  textSet (s.edits.map (·.location.file))

/-- The edits of a file. -/
def editsOf (s : EditScript) (file : String) : List LineEdit :=
  (s.edits.filter fun e => e.location.file == file).map fun e => (e.location.line, e.kind)

/-- The text of one edited file. -/
def renderFile (s : EditScript) (tree : SourceTree) (file : String) :
    Except PatchError (String × String) :=
  match tree.file? file with
  | none => .error (.unknownFile file)
  | some text => do return (file, ← applyEdits file text (s.editsOf file))

/-- The texts of the edited files. -/
def render (s : EditScript) (tree : SourceTree) : Except PatchError (TextMap String) :=
  s.files.mapM (s.renderFile tree)

end EditScript

end PatchSearch
