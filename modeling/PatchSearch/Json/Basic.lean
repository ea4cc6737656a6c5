import PatchSearch.Fault
import PatchSearch.Decimal

/-!
JSON values as they are read and written. An object keeps its members in order, repeated names
included, since a reader has to notice a repeated name. A number without sign, fraction and
exponent is a `nat`, every other number a `real`; a literal too large for a float is an infinite
`real`, which no decoder accepts. A string literal with half of a surrogate pair is well formed
but denotes no text: it is `unpaired`, and so is an object with such a name; that is skipped
where a value is ignored and refused where one is read.
-/
namespace PatchSearch

inductive Json where
  | null
  | bool (value : Bool)
  | nat (value : Nat)
  /-- The number below zero with this magnitude. -/
  | minus (magnitude : Nat)
  | real (value : Float)
  | text (value : String)
  | unpaired
  | array (items : List Json)
  | object (members : List (String × Json))

namespace Json

/-- Reading a value of a type out of a JSON value; `none` when the value does not fit. -/
abbrev Decoder (α : Type) := Json → Option α

def toBool : Decoder Bool
  | .bool b => some b
  | _ => none

/-- A whole number below `bound`. -/
def toNatBelow (bound : Nat) : Decoder Nat
  | .nat n => if n < bound then some n else none
  | _ => none

/-- A whole number of 64 bits. -/
def toWord : Decoder Nat :=
  toNatBelow wordCount

/-- A whole number of 32 bits. -/
def toHalfWord : Decoder Nat :=
  toNatBelow halfWordCount

/-- A number as the nearest float, if that is finite. -/
def toFloat : Decoder Float
  | .nat n => let x := Float.ofNat n; if x.isFinite then some x else none
  | .minus n => let x := -Float.ofNat n; if x.isFinite then some x else none
  | .real x => if x.isFinite then some x else none
  | _ => none

def toText : Decoder String
  | .text s => some s
  | _ => none

def toArray {α : Type} (item : Decoder α) : Decoder (List α)
  | .array items => items.mapM item
  | _ => none

/-- `null`, or a value. -/
def toOption {α : Type} (value : Decoder α) : Decoder (Option α)
  | .null => some none
  | j => (value j).map some

/-- A name out of a list of spellings: as a string, or as an object with that one name and the
value `null`. -/
def toName {α : Type} (spellings : List (String × α)) : Decoder α
  | .text s => spellings.lookup s
  | .object [(s, .null)] => spellings.lookup s
  | _ => none

/-- A float as a number; JSON has no number for the infinities and NaN, so those become `null`. -/
def ofFloat (x : Float) : Json :=
  if x.isFinite then .real x else .null

def ofOption {α : Type} (value : α → Json) : Option α → Json
  | none => .null
  | some a => value a

def ofList {α : Type} (item : α → Json) (items : List α) : Json :=
  .array (items.map item)

theorem toWord_nat (n : Nat) (h : n < wordCount) : toWord (.nat n) = some n :=
  if_pos h

theorem toHalfWord_nat (n : Nat) (h : n < halfWordCount) : toHalfWord (.nat n) = some n :=
  if_pos h

theorem toOption_ofOption {α : Type} (decode : Decoder α) (encode : α → Json)
    (h : ∀ a, decode (encode a) = some a) (hn : ∀ a, encode a ≠ .null) (o : Option α) :
    toOption decode (ofOption encode o) = some o := by
  cases o with
  | none => rfl
  | some a =>
    have := hn a
    simp only [ofOption]
    unfold toOption
    split
    · simp_all
    · simp [h]

end Json

end PatchSearch

/-!
Writing JSON text with two blanks of indentation per level, one member or item a line, and
nothing between the brackets of an empty array or object. A real without finite value is written
`null`.
-/
namespace PatchSearch.Json

def hexDigit (n : Nat) : Char :=
  if n < 10 then Char.ofNat (48 + n) else Char.ofNat (87 + n)

/-- A character inside a string literal. -/
def escapedChar (c : Char) : List Char :=
  if c = '"' then ['\\', '"']
  else if c = '\\' then ['\\', '\\']
  else if c = '\n' then ['\\', 'n']
  else if c = '\r' then ['\\', 'r']
  else if c = '\t' then ['\\', 't']
  else if c = '\x08' then ['\\', 'b']
  else if c = '\x0c' then ['\\', 'f']
  else if c.toNat < 32 then
    ['\\', 'u', '0', '0', hexDigit (c.toNat / 16), hexDigit (c.toNat % 16)]
  else [c]

/-- A text as a string literal. -/
def quoted (s : String) : String :=
  String.ofList ('"' :: (s.toList.flatMap escapedChar ++ ['"']))

/-- A line break and the indentation of a level. -/
def newLine (level : Nat) : String :=
  "\n" ++ String.ofList (List.replicate (2 * level) ' ')

mutual

/-- The text of a value that starts at a level of indentation. -/
def prettyAt (level : Nat) : Json → String
  | .null => "null"
  | .unpaired => "null"
  | .bool b => if b then "true" else "false"
  | .nat n => Decimal.digitText n
  | .minus n => "-" ++ Decimal.digitText n
  | .real x => if x.isFinite then Decimal.numeral.render x else "null"
  | .text s => quoted s
  | .array [] => "[]"
  | .array (j :: js) =>
    "[" ++ newLine (level + 1) ++ prettyAt (level + 1) j ++ prettyItems (level + 1) js ++
      newLine level ++ "]"
  | .object [] => "\x7b\x7d"
  | .object (m :: ms) =>
    "\x7b" ++ newLine (level + 1) ++ quoted m.1 ++ ": " ++ prettyAt (level + 1) m.2 ++
      prettyMembers (level + 1) ms ++ newLine level ++ "\x7d"

/-- The items after the first. -/
def prettyItems (level : Nat) : List Json → String
  | [] => ""
  | j :: js => "," ++ newLine level ++ prettyAt level j ++ prettyItems level js

/-- The members after the first. -/
def prettyMembers (level : Nat) : List (String × Json) → String
  | [] => ""
  | m :: ms =>
    "," ++ newLine level ++ quoted m.1 ++ ": " ++ prettyAt level m.2 ++ prettyMembers level ms

end

def pretty (j : Json) : String :=
  prettyAt 0 j

end PatchSearch.Json
