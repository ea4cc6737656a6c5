import PatchSearch.Program.Point

/-!
Patches and their records. A patch is the set of its edits, kept ascending by operator number,
location and ingredient number with a missing ingredient first, so that patches are equal exactly
when they apply the same edits. A record is the exported form of an accepted patch.
-/
namespace PatchSearch

/-- One edit of a patch, by the numbers that its point gives to operator and ingredient. -/
structure PatchEdit where
  operatorIndex : Nat
  location : Location
  ingredientIndex : Option Nat
  deriving DecidableEq, Repr, Inhabited

namespace PatchEdit

/-- Ingredient numbers in order, a missing one first. -/
def ingredientLE : Option Nat → Option Nat → Bool
  | none, _ => true
  | some _, none => false
  | some i, some j => decide (i ≤ j)

def le (a b : PatchEdit) : Bool :=
  if a.operatorIndex ≠ b.operatorIndex then decide (a.operatorIndex < b.operatorIndex)
  else if a.location ≠ b.location then a.location.le b.location
  else ingredientLE a.ingredientIndex b.ingredientIndex

def decode : Json.Decoder PatchEdit := fun j => do
  let f ← Json.fields? [["operator_index"], ["location"], ["ingredient_index"]] j
  let operatorIndex ← f.required "operator_index" Json.toWord
  let location ← f.required "location" Location.decode
  let ingredientIndex ← f.optional "ingredient_index" Json.toWord
  return ⟨operatorIndex, location, ingredientIndex⟩

def encode (e : PatchEdit) : Json :=
  .object [("operator_index", .nat e.operatorIndex), ("location", e.location.encode),
    ("ingredient_index", Json.ofOption .nat e.ingredientIndex)]

end PatchEdit

structure Patch where
  edits : List PatchEdit
  deriving DecidableEq, Repr, Inhabited

namespace Patch

/-- The patch that applies the given edits. -/
def ofEdits (edits : List PatchEdit) : Patch :=
  ⟨sortedSet PatchEdit.le edits⟩

theorem mem_edits_ofEdits (e : PatchEdit) (edits : List PatchEdit) :
    e ∈ (ofEdits edits).edits ↔ e ∈ edits :=
  mem_sortedSet PatchEdit.le e edits

def decode : Json.Decoder Patch := fun j => do
  let f ← Json.fields? [["edits"]] j
  let edits ← f.required "edits" (Json.toArray PatchEdit.decode)
  return ⟨edits⟩

def encode (p : Patch) : Json :=
  .object [("edits", Json.ofList PatchEdit.encode p.edits)]

end Patch

/-- The readable form of an edit. -/
structure RecordedEdit where
  operator : Operator
  location : Location
  statement : String
  ingredient : Option String
  deriving DecidableEq, Repr, Inhabited

namespace RecordedEdit

def decode : Json.Decoder RecordedEdit := fun j => do
  let f ← Json.fields? [["operator"], ["location"], ["statement"], ["ingredient"]] j
  let operator ← f.required "operator" Operator.decode
  let location ← f.required "location" Location.decode
  let statement ← f.required "statement" Json.toText
  let ingredient ← f.optional "ingredient" Json.toText
  return ⟨operator, location, statement, ingredient⟩

def encode (e : RecordedEdit) : Json :=
  .object [("operator", e.operator.encode), ("location", e.location.encode),
    ("statement", .text e.statement), ("ingredient", Json.ofOption .text e.ingredient)]

end RecordedEdit

/-- The exported form of an accepted patch: how many evaluations and milliseconds the run had
taken, and for each edit the numbers of its operator, point and ingredient and its readable
form. -/
structure PatchRecord where
  id : Nat
  evaluations : Nat
  elapsedMs : Nat
  operators : List Nat
  locations : List Nat
  ingredients : List (Option Nat)
  edits : List RecordedEdit
  deriving DecidableEq, Repr, Inhabited

namespace PatchRecord

def decode : Json.Decoder PatchRecord := fun j => do
  let f ← Json.fields? [["id"], ["evaluations"], ["elapsed_ms"], ["operators"], ["locations"],
    ["ingredients"], ["edits"]] j
  let id ← f.required "id" Json.toWord
  let evaluations ← f.required "evaluations" Json.toWord
  let elapsedMs ← f.required "elapsed_ms" Json.toWord
  let operators ← f.required "operators" (Json.toArray Json.toWord)
  let locations ← f.required "locations" (Json.toArray Json.toWord)
  let ingredients ← f.required "ingredients" (Json.toArray (Json.toOption Json.toWord))
  let edits ← f.required "edits" (Json.toArray RecordedEdit.decode)
  return ⟨id, evaluations, elapsedMs, operators, locations, ingredients, edits⟩

def encode (r : PatchRecord) : Json :=
  .object [("id", .nat r.id), ("evaluations", .nat r.evaluations),
    ("elapsed_ms", .nat r.elapsedMs), ("operators", Json.ofList .nat r.operators),
    ("locations", Json.ofList .nat r.locations),
    ("ingredients", Json.ofList (Json.ofOption .nat) r.ingredients),
    ("edits", Json.ofList RecordedEdit.encode r.edits)]

/-- The file name of a record. -/
def fileName (id : Nat) : String :=
  "patch_" ++ toString id ++ ".json"

end PatchRecord

end PatchSearch
