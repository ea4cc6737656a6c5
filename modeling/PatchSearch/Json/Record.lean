import PatchSearch.Json.Basic

/-!
Records in JSON. A record is an object whose members are found under one of several names, or an
array of its fields in declaration order. In an object, members of other names are ignored and a
field may be named once only, whatever its spelling; in an array, fields may be left off at the
end only if they have a default.
-/
namespace PatchSearch.Json

/-- A field as it was found: its names, the first being its own, and its value. -/
abbrev Slot := List String × Option Json

/-- The fields of a record as found in a JSON value. -/
structure Fields where
  positional : Bool
  slots : List Slot

/-- The values of the members with one of the names. -/
def membersNamed (names : List String) (members : List (String × Json)) : List Json :=
  (members.filter fun m => names.contains m.1).map Prod.snd

/-- The slot of the field with the given names, unless it is named twice. -/
def slotNamed? (members : List (String × Json)) (names : List String) : Option Slot :=
  match membersNamed names members with
  | [] => some (names, none)
  | [j] => some (names, some j)
  | _ => none

/-- Pairs the fields with the items of an array, which may be too short but not too long. -/
def slotsInOrder : List (List String) → List Json → Option (List Slot)
  | [], [] => some []
  | [], _ :: _ => none
  | names :: rest, [] => (slotsInOrder rest []).map ((names, none) :: ·)
  | names :: rest, j :: js => (slotsInOrder rest js).map ((names, some j) :: ·)

/-- Finds the fields of a record, each given by its names. -/
def fields? (names : List (List String)) : Json → Option Fields
  | .object members => (names.mapM (slotNamed? members)).map (⟨false, ·⟩)
  | .array items => (slotsInOrder names items).map (⟨true, ·⟩)
  | _ => none

namespace Fields

/-- What was found for a field, named by its own name. -/
def value? (f : Fields) (name : String) : Option Json :=
  (f.slots.find? fun s => s.1.head? == some name).bind Prod.snd

/-- A field that has to be there. -/
def required {α : Type} (f : Fields) (name : String) (decode : Decoder α) : Option α :=
  (f.value? name).bind decode

/-- A field that takes a default when it is missing. -/
def withDefault {α : Type} (f : Fields) (name : String) (decode : Decoder α) (default : α) :
    Option α :=
  match f.value? name with
  | none => some default
  | some j => decode j

/-- A field without default that may be `null`, and may be missing from an object. -/
def optional {α : Type} (f : Fields) (name : String) (decode : Decoder α) : Option (Option α) :=
  match f.value? name with
  | none => if f.positional then none else some none
  | some j => toOption decode j

end Fields

end PatchSearch.Json
