import PatchSearch.Json.Record
import PatchSearch.SortedList
import PatchSearch.Json.Basic

/-!
A location is a source statement, named by its file and its line, counted from 1. Locations are
ordered by file, then by line.
-/
namespace PatchSearch

structure Location where
  file : String
  line : Nat
  deriving DecidableEq, Repr, Inhabited

namespace Location

def display (l : Location) : String :=
  l.file ++ "#" ++ toString l.line

def le (a b : Location) : Bool :=
  decide (a.file < b.file) || (a.file == b.file && decide (a.line ≤ b.line))

theorem le_refl (a : Location) : le a a = true := by
  simp [le]

/-- The members of a list of locations as an ascending list. -/
def setOf (ls : List Location) : List Location :=
  sortedSet le ls

def decode : Json.Decoder Location := fun j => do
  let f ← Json.fields? [["file"], ["line"]] j
  let file ← f.required "file" Json.toText
  let line ← f.required "line" Json.toHalfWord
  return ⟨file, line⟩

def encode (l : Location) : Json :=
  .object [("file", .text l.file), ("line", .nat l.line)]

theorem decode_encode (l : Location) (h : l.line < halfWordCount) : decode l.encode = some l := by
  simp [decode, encode, Json.fields?, Json.slotNamed?, Json.membersNamed, Json.Fields.required,
    Json.Fields.value?, Json.toText, Json.toHalfWord_nat l.line h]

end Location

/-!
The edit operators: a statement is deleted, replaced by an ingredient, or preceded by one.
Operator names are read without regard to the case of ASCII letters.
-/

inductive Operator where
  | delete
  | replace
  | insertBefore
  deriving DecidableEq, Repr, Inhabited

namespace Operator

/-- All operators, in their canonical order. -/
def all : List Operator :=
  [delete, replace, insertBefore]

theorem mem_all (o : Operator) : o ∈ all := by
  cases o <;> simp [all]

def name : Operator → String
  | delete => "Delete"
  | replace => "Replace"
  | insertBefore => "InsertBefore"

def needsIngredient : Operator → Bool
  | delete => false
  | _ => true

/-- The place among all operators. -/
def place (o : Operator) : Nat :=
  all.idxOf o

/-- Equality up to the case of ASCII letters. -/
def sameLetters (a b : String) : Bool :=
  a.toList.map Char.toLower == b.toList.map Char.toLower

def ofName? (s : String) : Option Operator :=
  all.find? fun o => sameLetters o.name s

/-- What is said about a text that names no operator. -/
def unknownMessage (s : String) : String :=
  "unknown operator: " ++ s

def decode : Json.Decoder Operator := fun j => do
  ofName? (← Json.toText j)

def encode (o : Operator) : Json :=
  .text o.name

theorem ofName?_name (o : Operator) : ofName? o.name = some o := by
  cases o <;> decide

end Operator

/-!
Modification points: the statements a search may edit, each with the operators it allows and the
ingredients these may use. `Point.normalize` brings the operators into a canonical form: without
repetitions, without operators that lack an ingredient, and always with deletion.
-/

/-- A statement from elsewhere in the program that may be put in. -/
structure Ingredient where
  id : Nat
  source : String
  deriving DecidableEq, Repr, Inhabited

namespace Ingredient

def decode : Json.Decoder Ingredient := fun j => do
  let f ← Json.fields? [["id"], ["source"]] j
  let id ← f.required "id" Json.toWord
  let source ← f.required "source" Json.toText
  return ⟨id, source⟩

def encode (i : Ingredient) : Json :=
  .object [("id", .nat i.id), ("source", .text i.source)]

end Ingredient

structure Point where
  location : Location
  statement : String
  suspiciousness : Float
  ingredients : List Ingredient
  operators : List Operator

namespace Point

/-- The members of a list that pass `keep`, each at its first occurrence only; those in `seen`
have occurred before. -/
def firstOccurrences (keep : Operator → Bool) (seen : List Operator) :
    List Operator → List Operator
  | [] => []
  | o :: os =>
    if keep o && !seen.contains o then o :: firstOccurrences keep (o :: seen) os
    else firstOccurrences keep seen os

/-- Drops repeated operators and those that need an ingredient where there is none, and adds
deletion at the end if it is not there. -/
def normalize (p : Point) : Point :=
  let kept := firstOccurrences (fun o => !p.ingredients.isEmpty || !o.needsIngredient) []
    p.operators
  { p with operators := if kept.contains .delete then kept else kept ++ [.delete] }

theorem delete_mem_normalize (p : Point) : Operator.delete ∈ p.normalize.operators := by
  simp only [normalize]
  split
  · next h => simpa using h
  · simp

theorem operators_normalize_ne_nil (p : Point) : p.normalize.operators ≠ [] :=
  List.ne_nil_of_mem p.delete_mem_normalize

def withSuspiciousness (p : Point) (score : Float) : Point :=
  { p with suspiciousness := score }

/-- Reads a catalog entry, given how its suspiciousness is read. -/
def decodeWith (score : Json.Decoder Float) : Json.Decoder Point := fun j => do
  let f ← Json.fields?
    [["location"], ["statement"], ["suspiciousness"], ["ingredients"], ["operators"]] j
  let location ← f.required "location" Location.decode
  let statement ← f.withDefault "statement" Json.toText ""
  let suspiciousness ← f.withDefault "suspiciousness" score 0.0
  let ingredients ← f.withDefault "ingredients" (Json.toArray Ingredient.decode) []
  let operators ← f.withDefault "operators" (Json.toArray Operator.decode) Operator.all
  return ⟨location, statement, suspiciousness, ingredients, operators⟩

def decode : Json.Decoder Point :=
  decodeWith Json.toFloat

def encode (p : Point) : Json :=
  .object [("location", p.location.encode), ("statement", .text p.statement),
    ("suspiciousness", Json.ofFloat p.suspiciousness),
    ("ingredients", Json.ofList Ingredient.encode p.ingredients),
    ("operators", Json.ofList Operator.encode p.operators)]

end Point

end PatchSearch
