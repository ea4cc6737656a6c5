import PatchSearch.Json.Basic

/-!
Writing JSON on one line, in ASCII alone and with the members of an object in ascending order of
their names, so that values that differ in the order of members only have one text. A character
beyond ASCII is written by the hexadecimal digits of its UTF-16 units.
-/
namespace PatchSearch.Json

/-- A number in so many hexadecimal digits. -/
def hexText (width n : Nat) : String :=
  String.ofList ((List.range width).reverse.map fun i => hexDigit ((n >>> (4 * i)) % 16))

theorem length_hexText (width n : Nat) : (hexText width n).length = width := by
  simp [hexText]

/-- A character of a string literal, in ASCII. -/
def asciiChar (c : Char) : List Char :=
  let unit (n : Nat) : List Char := '\\' :: 'u' :: (hexText 4 n).toList
  let n := c.toNat
  if n < 0x80 then escapedChar c
  else if n < 0x10000 then unit n
  else unit (0xD7C0 + n / 0x400) ++ unit (0xDC00 + n % 0x400)

/-- A text as a string literal in ASCII. -/
def asciiQuoted (s : String) : String :=
  String.ofList ('"' :: (s.toList.flatMap asciiChar ++ ['"']))

mutual

def compact : Json → String
  | .null => "null"
  | .unpaired => "null"
  | .bool b => if b then "true" else "false"
  | .nat n => Decimal.digitText n
  | .minus n => "-" ++ Decimal.digitText n
  | .real x => if x.isFinite then Decimal.numeral.render x else "null"
  | .text s => asciiQuoted s
  | .array items => "[" ++ String.intercalate "," (compactItems items) ++ "]"
  | .object members =>
    let written := (compactMembers members).mergeSort fun a b => decide (a.1 ≤ b.1)
    "\x7b" ++ String.intercalate "," (written.map Prod.snd) ++ "\x7d"

/-- The texts of items. -/
def compactItems : List Json → List String
  | [] => []
  | j :: js => compact j :: compactItems js

/-- The names of members, and their texts. -/
def compactMembers : List (String × Json) → List (String × String)
  | [] => []
  | m :: ms => (m.1, asciiQuoted m.1 ++ ":" ++ compact m.2) :: compactMembers ms

end

end PatchSearch.Json
