import PatchSearch.Files.Tree
import PatchSearch.Json.Reader
import PatchSearch.Text.Basic

/-!
Access to files, as operations on a state of any kind. `FileTree.storage` is the access to the
files of a tree. A document is a file of UTF-8 text that holds one JSON value.
-/
namespace PatchSearch

structure Storage (σ : Type) where
  read : String → σ → Except FileError ByteArray
  write : String → ByteArray → σ → Except FileError Unit × σ
  makeDirs : String → σ → Except FileError Unit × σ
  list : String → σ → Except FileError (List String)

/-- Access to the files of a tree. -/
def FileTree.storage : Storage FileTree where
  read path t := t.read path
  write path content t :=
    match t.write path content with
    | .ok t => (.ok (), t)
    | .error e => (.error e, t)
  makeDirs path t := t.makeDirs path
  list path t := t.list path

namespace Storage

variable {σ τ : Type}

/-- The same access to a part of a larger state. -/
def within (s : Storage σ) (get : τ → σ) (set : σ → τ → τ) : Storage τ where
  read path t := s.read path (get t)
  write path content t := let (r, a) := s.write path content (get t); (r, set a t)
  makeDirs path t := let (r, a) := s.makeDirs path (get t); (r, set a t)
  list path t := s.list path (get t)

/-- The text of a file. -/
def readText (s : Storage σ) (path : String) (world : σ) : Except FileError String := do
  let bytes ← s.read path world
  match Text.decode? bytes with
  | some text => .ok text
  | none => .error .notText

/-- The value of a document. -/
def readDocument {α : Type} (s : Storage σ) (decode : Json.Decoder α) (path : String)
    (world : σ) : Except FileError α := do
  let text ← s.readText path world
  match (Json.parse? text).bind decode with
  | some a => .ok a
  | none => .error .badData

end Storage

end PatchSearch
