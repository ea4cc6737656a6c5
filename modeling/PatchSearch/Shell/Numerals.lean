import PatchSearch.Shell.Arithmetic
import PatchSearch.Shell.Octets

/-!
Floating point numbers in texts: decimal digits with a point and an exponent, hexadecimal ones,
infinity and no number at all. A number is read as far as its text goes.
-/
namespace PatchSearch.Shell.Numerals

/-- A sign at the start of a text, and the rest. -/
def sign (cs : List Char) : Bool × List Char :=
  match cs with
  | '-' :: cs => (true, cs)
  | '+' :: cs => (false, cs)
  | cs => (false, cs)

/-- The digits of a base with a point among them: their value, how many of them stand behind the
point, and the rest; nothing if there is no digit. -/
def mantissa? (base : Nat) (cs : List Char) : Option (Nat × Nat × List Char) :=
  let isDigit (c : Char) : Bool := Arithmetic.digitValue c < base
  let whole := cs.takeWhile isDigit
  let behind := cs.drop whole.length
  let part := match behind with
    | '.' :: ds => ds.takeWhile isDigit
    | _ => []
  if whole.isEmpty && part.isEmpty then none
  else
    let n := (whole ++ part).foldl (fun n d => base * n + Arithmetic.digitValue d) 0
    some (n, part.length,
      if behind.head? == some '.' then behind.drop (part.length + 1) else behind)

/-- An exponent behind its letter, and the rest; zero if there is none. -/
def exponent (letter : Char) (cs : List Char) : Int × List Char :=
  match cs with
  | c :: ds =>
    let (negative, ds) := sign ds
    let digits := ds.takeWhile Char.isDigit
    if c.toLower != letter || digits.isEmpty then (0, cs)
    else
      let n : Int := digits.foldl (fun n d => 10 * n + (d.toNat - 48 : Int)) 0
      (if negative then -n else n, ds.drop digits.length)
  | [] => (0, [])

def infinity : Float :=
  1.0 / 0.0

/-- A decimal number of digits and an exponent. -/
def ofDecimal (n : Nat) (e : Int) : Float :=
  let size : Int := (toString n).length
  if n = 0 || e + size < -400 then 0.0
  else if 400 < e + size then infinity
  else Float.ofScientific n (e < 0) e.natAbs

/-- A number of hexadecimal digits and an exponent of two. -/
def ofBinary (n : Nat) (e : Int) : Float :=
  let size : Int := n.log2
  if n = 0 || e + size < -1200 then 0.0
  else if 1200 < e + size then infinity
  else Float.scaleB n.toFloat e

/-- Whether a text starts with a word in small or capital letters. -/
def startsWithWord (word : String) (cs : List Char) : Bool :=
  (cs.take word.length).map Char.toLower == word.toList

/-- The number without a sign at the start of a text, and the rest. -/
def magnitude? (cs : List Char) : Option (Float × List Char) :=
  if startsWithWord "infinity" cs then some (infinity, cs.drop 8)
  else if startsWithWord "inf" cs then some (infinity, cs.drop 3)
  else if startsWithWord "nan" cs then some (0.0 / 0.0, cs.drop 3)
  else
    match if startsWithWord "0x" cs then mantissa? 16 (cs.drop 2) else none with
    | some (n, places, rest) =>
      let (e, rest) := exponent 'p' rest
      some (ofBinary n (e - 4 * places), rest)
    | none =>
      (mantissa? 10 cs).map fun (n, places, rest) =>
        let (e, rest) := exponent 'e' rest
        (ofDecimal n (e - places), rest)

/-- The number at the start of a text, behind blanks and perhaps a sign, and the rest. -/
def float? (cs : List Char) : Option (Float × List Char) :=
  let (negative, body) := sign (cs.dropWhile isSpace)
  (magnitude? body).map fun (x, rest) => (if negative then -x else x, rest)

end PatchSearch.Shell.Numerals

/-!
Sizes with units. A size is read as a number and a letter for a power of 1024, or of 1000 if a `B`
stands behind the letter. It is written as it is, in units of a given size, or in the unit that
leaves few digits; what does not fit is rounded up, or to the nearest number where that is asked.
-/
namespace PatchSearch.Shell

/-- What is wrong with the text of a size. -/
inductive SizeFault where
  | notANumber
  | badUnit
  | tooLarge
  deriving DecidableEq

namespace SizeFault

/-- The fault of an option's argument in words. -/
def message (option value : String) : SizeFault → String
  | notANumber => "invalid " ++ option ++ " argument \x27" ++ value ++ "\x27"
  | badUnit => "invalid suffix in " ++ option ++ " argument \x27" ++ value ++ "\x27"
  | tooLarge => option ++ " argument \x27" ++ value ++ "\x27 too large"

end SizeFault

/-- The letters of units from 1024 on, in rising powers. -/
def unitLetters : List Char :=
  "KMGTPEZY".toList

/-- The power that a letter of a unit stands for. -/
def unitPower? (c : Char) : Option Nat :=
  let i := unitLetters.idxOf c.toUpper
  if i < unitLetters.length then some (i + 1) else none

/-- The factor of a unit, and what stands behind it. `mayBeMarked` tells that the unit can have
`B` or `iB` behind its letter. -/
def unitFactor? (mayBeMarked : Bool) : List Char → Option (Nat × List Char)
  | 'b' :: cs => some (512, cs)
  | 'B' :: cs => some (1024, cs)
  | 'c' :: cs => some (1, cs)
  | 'w' :: cs => some (2, cs)
  | c :: cs =>
    (unitPower? c).map fun power =>
      match mayBeMarked, cs with
      | true, 'i' :: 'B' :: cs => (Nat.pow 1024 power, cs)
      | true, 'B' :: cs => (Nat.pow 1000 power, cs)
      | true, 'D' :: cs => (Nat.pow 1000 power, cs)
      | _, cs => (Nat.pow 1024 power, cs)
  | [] => none

/-- A size from its text. `anyBase` tells that octal and hexadecimal digits are read too, and
`units` holds the letters of the units that it can have, with a zero if they can be marked. -/
def readSize (anyBase : Bool) (units : String) (s : String) : Except SizeFault Nat :=
  let cs := s.toList.dropWhile isSpace
  let cs := if cs.head? == some '+' then cs.drop 1 else cs
  let number? := if anyBase then Arithmetic.numeral? cs
    else if cs.head?.any Char.isDigit then
      some ((cs.takeWhile Char.isDigit).foldl (fun n c => 10 * n + (c.toNat - 48)) 0,
        cs.dropWhile Char.isDigit)
    else none
  let isUnit (cs : List Char) : Bool := cs.head?.any fun c => units.toList.contains c && c != '0'
  let read? := number?.or (if isUnit s.toList then some (1, s.toList) else none)
  match read? with
  | none => .error .notANumber
  | some (n, rest) =>
    let checked (n : Nat) (rest : List Char) : Except SizeFault Nat :=
      if !rest.isEmpty then .error .badUnit
      else if 0x10000000000000000 ≤ n then .error .tooLarge
      else .ok n
    if rest.isEmpty then checked n []
    else if !isUnit rest then .error .badUnit
    else
      match unitFactor? (units.toList.contains '0') rest with
      | some (factor, rest) => checked (n * factor) rest
      | none => .error .badUnit

example : (readSize false "kKMG0" "2kB").toOption = some 2000 := by decide +kernel

example : (readSize false "kKMG0" "K").toOption = some 1024 := by decide +kernel

example : (readSize true "kKMG0" "0x10x").toOption = none := by decide +kernel

/-- How sizes are written: in the unit that leaves few digits or in one of a given size, with the
name of the unit or without, and how it is named. -/
structure SizeStyle where
  scales : Bool := false
  isNamed : Bool := false
  byThousands : Bool := false
  /-- Whether `B` stands behind the name of a unit. -/
  isMarked : Bool := false
  isSpaced : Bool := false
  roundsNearest : Bool := false

namespace SizeStyle

/-- Few digits and a letter, in powers of 1024. -/
def short : SizeStyle :=
  { scales := true, isNamed := true }

/-- Few digits and a letter, in powers of 1000. -/
def shortByThousands : SizeStyle :=
  { short with byThousands := true }

def base (s : SizeStyle) : Nat :=
  if s.byThousands then 1000 else 1024

/-- A fraction as a whole number: rounded up, or to the nearest one, of two such to the even. -/
def rounded (s : SizeStyle) (num den : Nat) : Nat :=
  let whole := num / den
  let part := 2 * (num % den)
  if s.roundsNearest then
    if den < part || (part = den && whole % 2 = 1) then whole + 1 else whole
  else if part = 0 then whole else whole + 1

/-- The power of the base that a fraction is shown in: the least that leaves less than the base. -/
def power (s : SizeStyle) (num den : Nat) : Nat :=
  ((List.range 9).find? fun k => num < den * Nat.pow s.base (k + 1)).getD 8

/-- The name of a power of the base. -/
def unitName (s : SizeStyle) (power : Nat) : String :=
  let letter := if power = 0 then "" else
    let c := (unitLetters[power - 1]?).getD 'Y'
    String.singleton (if s.byThousands && power = 1 then 'k' else c)
  let mark := if !s.isMarked then "" else if s.byThousands || power = 0 then "B" else "iB"
  let blank := if s.isSpaced && !(letter ++ mark).isEmpty then " " else ""
  blank ++ letter ++ mark

/-- A number of blocks of one size in units of another one. -/
def text (s : SizeStyle) (count blockSize unit : Nat) : String :=
  let (num, den) := (count * blockSize, max unit 1)
  if s.scales then
    let k := s.power num den
    let den' := den * Nat.pow s.base k
    let tenths := s.rounded (10 * num) den'
    let (digits, k) :=
      if 0 < k && tenths < 100 then
        (toString (tenths / 10) ++ "." ++ toString (tenths % 10), k)
      else
        let whole := s.rounded num den'
        if whole = s.base && k < 8 then ("1.0", k + 1) else (toString whole, k)
    digits ++ if s.isNamed then s.unitName k else ""
  else
    let k := ((List.range 9).find? fun k => unit ≤ Nat.pow s.base k).getD 8
    toString (s.rounded num den) ++ if s.isNamed then s.unitName k else ""

/-- The style and the unit that a text asks for. -/
def read (s : String) : Except SizeFault (SizeStyle × Nat) := do
  let spec := if s.startsWith "\x27" then String.ofList (s.toList.drop 1) else s
  if !spec.isEmpty && "human-readable".startsWith spec then return (short, 1)
  if !spec.isEmpty && "si".startsWith spec then return (shortByThousands, 1)
  let size ← readSize true "eEgGkKmMpPtTyYzZ0" spec
  if size = 0 then throw .notANumber
  if spec.toList.any Char.isDigit then return ({}, size)
  let byThousands := spec.endsWith "B" && !spec.endsWith "iB"
  return ({ isNamed := true, byThousands, isMarked := spec.endsWith "B" }, size)

/-- The style and the unit of blocks that variables ask for: the first that is set of a
variable of its own and two common ones. -/
def ofVariables (own : String) (lookup : String → Option String) : SizeStyle × Nat :=
  let usual : SizeStyle × Nat := ({}, if (lookup "POSIXLY_CORRECT").isSome then 512 else 1024)
  match [own, "BLOCK_SIZE", "BLOCKSIZE"].findSome? lookup with
  | some s =>
    match read s with
    | .ok style => style
    | .error _ => usual
  | none => usual

end SizeStyle

example : SizeStyle.short.text 5000 1 1 = "4.9K" := by decide +kernel

example : SizeStyle.short.text 1048575 1 1 = "1.0M" := by decide +kernel

example : SizeStyle.shortByThousands.text 56 512 1 = "29k" := by decide +kernel

end PatchSearch.Shell
