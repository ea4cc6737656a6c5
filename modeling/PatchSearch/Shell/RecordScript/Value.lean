import PatchSearch.Shell.RecordScript.Basic
import PatchSearch.Shell.Utility.Print
import Std.Data.HashMap

/-!
Dictionaries of a script. A key is a text, and one that is a whole number can also be found as
such. Keys stand in chains, picked by the number itself or by a hash of the text, with the key
that was looked for last at the front of its chain. `keys` goes through the chains of texts, so
the order of keys follows from the order in which they were looked for.
-/
namespace PatchSearch.Shell.RecordScript

/-- The hash of a text: each octet is mixed in and the result multiplied by a prime. -/
def textHash (s : String) : Nat :=
  (s.toList.foldl (fun (h : UInt32) c => (h ^^^ c.toNat.toUInt32) * 16777619) 2166136261).toNat

/-- A key as it is looked for. -/
inductive Key where
  | whole (n : Int)
  | text (s : String)

namespace Key

def spelled : Key → String
  | whole n => toString n
  | text s => s

end Key

structure Dictionary (α : Type) where
  cells : Std.HashMap String α := {}
  /-- The chains of whole numbers, and of texts once these are needed. -/
  wholes : Array (List Int) := #[]
  texts : Array (List String) := #[]
  /-- Whether the keys are the numbers from one on, without any chain. -/
  isRow : Bool := false

namespace Dictionary

variable {α : Type}

/-- How many chains there are at first. -/
def startSize : Nat := 64

/-- How many keys a chain has on average at most. -/
def chainLimit : Nat := 12

def size (d : Dictionary α) : Nat :=
  d.cells.size

/-- The number of chains that so many keys need. -/
def chainsFor : Nat → Nat → Nat → Nat
  | 0, _, chains => chains
  | n + 1, keys, chains =>
    if chains * chainLimit < keys then chainsFor n keys (2 * chains) else chains

/-- A dictionary whose keys are the numbers from one on. -/
def ofRow (values : List α) : Dictionary α :=
  { cells := Std.HashMap.ofList (values.zipIdx 1 |>.map fun (v, i) => (toString i, v))
    isRow := !values.isEmpty }

def wholeChain (d : Dictionary α) (n : Int) : Nat :=
  (n % d.wholes.size).toNat

def textChain (d : Dictionary α) (s : String) : Nat :=
  textHash s % d.texts.size

/-- Puts the numbers of a row into chains. -/
def withWholes (d : Dictionary α) : Dictionary α :=
  if d.isRow then
    let chains := chainsFor 64 d.size startSize
    let empty : Array (List Int) := Array.replicate chains []
    { d with
      isRow := false
      wholes := (List.range d.size).foldl (fun a i => a.modify ((i + 1) % chains)
        (((i : Int) + 1) :: ·)) empty
      texts := #[] }
  else if d.wholes.isEmpty then { d with wholes := Array.replicate startSize [] }
  else d

/-- Puts all keys into chains of texts. -/
def withTexts (d : Dictionary α) : Dictionary α :=
  let d := d.withWholes
  if d.texts.isEmpty then
    let d := { d with texts := Array.replicate d.wholes.size [] }
    d.wholes.foldl (fun d chain => chain.foldl (fun d n =>
      let s := toString n
      { d with texts := d.texts.modify (d.textChain s) (s :: ·) }) d) d
  else d

/-- Doubles the number of chains if there are too many keys; a chain splits in two. -/
def grown (d : Dictionary α) : Dictionary α :=
  let chains := d.wholes.size
  if d.size ≤ chains * chainLimit then d
  else
    let split {κ : Type} (index : κ → Nat) (a : Array (List κ)) : Array (List κ) :=
      a.mapIdx (fun i c => c.filter fun k => index k == i) ++
        a.mapIdx (fun i c => c.filter fun k => index k != i)
    { d with
      wholes := split (fun (n : Int) => (n % (2 * chains : Nat)).toNat) d.wholes
      texts := if d.texts.isEmpty then #[]
        else split (fun s => textHash s % (2 * chains)) d.texts }

/-- Looks for a text; it moves to the front of its chain, and is made if that is asked for. -/
def touchText [Inhabited α] (create : Bool) (s : String) (d : Dictionary α) :
    Bool × Dictionary α :=
  let d := d.withTexts
  let front (d : Dictionary α) : Dictionary α :=
    { d with texts := d.texts.modify (d.textChain s) fun c => s :: c.filter (· != s) }
  if d.cells.contains s then (true, front d)
  else if create then (true, front { d with cells := d.cells.insert s default }.grown)
  else (false, d)

/-- Looks for a whole number in the same way. -/
def touchWhole [Inhabited α] (create : Bool) (n : Int) (d : Dictionary α) :
    Bool × Dictionary α :=
  if d.isRow && 1 ≤ n && n ≤ d.size then (true, d)
  else
    let d := d.withWholes
    let front (d : Dictionary α) : Dictionary α :=
      { d with wholes := d.wholes.modify (d.wholeChain n) fun c => n :: c.filter (· != n) }
    if ((d.wholes[d.wholeChain n]?).getD []).contains n then (true, front d)
    else if !d.texts.isEmpty then
      let (found, d) := d.touchText create (toString n)
      (found, if found then front d else d)
    else if create then
      (true, front { d with cells := d.cells.insert (toString n) default }.grown)
    else (false, d)

/-- Looks for a key; whether it is there. -/
def touch [Inhabited α] (create : Bool) (k : Key) (d : Dictionary α) : Bool × Dictionary α :=
  if d.size = 0 && !create then (false, d)
  else
    match k with
    | .whole n => d.touchWhole create n
    | .text s => d.touchText create s

/-- The value of a key, which is made if it was not there. -/
def get [Inhabited α] (k : Key) (d : Dictionary α) : α × Dictionary α :=
  let (_, d) := d.touch true k
  ((d.cells.get? k.spelled).getD default, d)

def insert [Inhabited α] (k : Key) (v : α) (d : Dictionary α) : Dictionary α :=
  let (_, d) := d.touch true k
  { d with cells := d.cells.insert k.spelled v }

def erase [Inhabited α] (k : Key) (d : Dictionary α) : Dictionary α :=
  let d := match k with
    | .whole _ => d.withWholes
    | .text _ => d
  let (found, d) := d.touch false k
  if !found then d
  else if d.size = 1 then {}
  else
    let s := k.spelled
    { d with
      cells := d.cells.erase s
      wholes :=
        match s.toInt? with
        | some n => d.wholes.modify (d.wholeChain n) fun c => c.filter (· != n)
        | none => d.wholes
      texts := if d.texts.isEmpty then #[]
        else d.texts.modify (d.textChain s) fun c => c.filter (· != s) }

/-- The keys in their order. -/
def keys (d : Dictionary α) : List String × Dictionary α :=
  if d.size = 0 then ([], d)
  else
    let d := d.withTexts
    (d.texts.toList.flatten, d)

end Dictionary

example : textHash "3" % 64 = 2 := by decide +kernel

/-!
Values of a script: numbers, texts, and texts from outside, which count as numbers where they look
like one. What was never set counts as zero and as the empty text.
-/

inductive Value where
  | unset
  | number (x : Float)
  | text (s : String)
  | given (s : String)
  deriving Inhabited

/-- Whether a text from outside looks like a number, and which one. -/
def numeral? (s : String) : Option Float :=
  let isBlank (c : Char) : Bool := c == ' ' || c == '\t' || c == '\x0b' || c == '\x0c' || c == '\r'
    || c == '\n'
  let cs := (s.toList.dropWhile isBlank).reverse.dropWhile isBlank |>.reverse
  let opens := match cs.head? with
    | some c => c.isDigit || c == '+' || c == '-' || c == '.'
    | none => false
  let closes := match cs.getLast? with
    | some c => c.isDigit || c == '.'
    | none => false
  if !(opens && closes) then none
  else
    match Numerals.float? cs with
    | some (x, []) => some x
    | _ => none

/-- The number that a text starts with. -/
def leadingNumber (s : String) : Float :=
  ((Numerals.float? s.toList).map Prod.fst).getD 0

/-- A whole number that a float stands for, if it is one of at most 64 bits. -/
def whole? (x : Float) : Option Int :=
  if !x.isFinite || x.floor != x then none
  else if 18446744073709551616.0 < x then none
  else if x < -9223372036854775808.0 then none
  else if x == 18446744073709551616.0 then some 18446744073709551615
  else
    let n := x.abs.toUInt64.toNat
    some (if x < 0 then -(n : Int) else n)

/-- A whole number for a conversion; what is too large for it becomes the largest one. -/
def clampedWhole (x : Float) : Int :=
  if x.isNaN then -9223372036854775808
  else if 18446744073709551615.0 ≤ x then 18446744073709551615
  else if x < -9223372036854775807.0 then -9223372036854775807
  else
    let n := x.abs.floor.toUInt64.toNat
    if x < 0 then -(n : Int) else n

/-- Pieces of a format: a text as it stands, or a conversion. -/
inductive FormatPiece where
  | plain (s : String)
  | percent
  | conversion (flags : List Char) (width precision : Option (Option Nat)) (letter : Char)
  /-- A percent sign without a letter that could be understood. -/
  | broken
  | unfinished

/-- A number in a format, or a star. -/
def formatNumber (cs : List Char) : Option (Option Nat) × List Char :=
  match cs with
  | '*' :: rest => (some none, rest)
  | _ =>
    let ds := cs.takeWhile Char.isDigit
    if ds.isEmpty then (none, cs)
    else (some (some (ds.foldl (fun n d => 10 * n + (d.toNat - 48)) 0)), cs.drop ds.length)

/-- The conversion behind a percent sign, and the rest. -/
def readConversion (cs : List Char) : FormatPiece × List Char :=
  let flags := cs.takeWhile fun c => ['-', '+', ' ', '#', '0'].contains c
  let (width, rest) := formatNumber (cs.drop flags.length)
  let (precision, rest) : Option (Option Nat) × List Char := match rest with
    | '.' :: rest =>
      let (p, rest) := formatNumber rest
      (some (p.getD (some 0)), rest)
    | rest => (none, rest)
  let sizes := (rest.takeWhile fun c => c == 'l' || c == 'h').take 2
  match rest.drop sizes.length with
  | [] => (.unfinished, [])
  | c :: rest =>
    if ['d', 'i', 'o', 'x', 'X', 'u'].contains c ||
        sizes.isEmpty && ['c', 's', 'e', 'E', 'f', 'F', 'g', 'G', 'a', 'A'].contains c then
      (.conversion flags width precision c, rest)
    else (.broken, rest)

/-- The pieces of a format. The number bounds them. -/
def formatPieces : Nat → List Char → List FormatPiece
  | 0, _ => []
  | _, [] => []
  | n + 1, '%' :: '%' :: cs => .percent :: formatPieces n cs
  | n + 1, '%' :: cs =>
    let (piece, rest) := readConversion cs
    piece :: formatPieces n rest
  | n + 1, c :: cs =>
    let plain := (c :: cs).takeWhile (· != '%')
    .plain (String.ofList plain) :: formatPieces n ((c :: cs).drop plain.length)

/-- The text of a float that is no whole number by a format for numbers. -/
def floatText (format : String) (x : Float) : String :=
  String.join ((formatPieces (format.length + 1) format.toList).map fun piece =>
    match piece with
    | .plain s => s
    | .percent => "%"
    | .conversion flags width precision letter =>
      let c : Conversion := ⟨flags, (width.bind id).getD 0, precision.bind id, letter⟩
      if ['d', 'i', 'o', 'x', 'X', 'u'].contains letter then c.number (clampedWhole x)
      else if x.isNaN then c.text "-nan"
      else c.float x
    | _ => "%")

namespace Value

/-- A value as a number. -/
def toNumber : Value → Float
  | unset => 0
  | number x => x
  | text s => leadingNumber s
  | given s => leadingNumber s

/-- A number as text: a whole one with all its digits, another one by a format. -/
def numberText (format : String) (x : Float) : String :=
  match whole? x with
  | some n => toString n
  | none => if x.isInf then (if x < 0 then "-inf" else "inf") else floatText format x

/-- A value as text. -/
def toText (format : String) : Value → String
  | unset => ""
  | number x => numberText format x
  | text s => s
  | given s => s

/-- Whether a value counts as true. -/
def isTrue : Value → Bool
  | unset => false
  | number x => x != 0
  | text s => !s.isEmpty
  | given s =>
    match numeral? s with
    | some x => x != 0
    | none => !s.isEmpty

/-- A value as a number if it compares as one. -/
def asNumber? : Value → Option Float
  | unset => some 0
  | number x => some x
  | text _ => none
  | given s => numeral? s

/-- A key for a value. -/
def toKey (format : String) : Value → Key
  | number x =>
    match whole? x with
    | some n => .whole n
    | none => .text (numberText format x)
  | v => .text (v.toText format)

/-- A truth value. -/
def ofBool (b : Bool) : Value :=
  number (if b then 1 else 0)

def ofNat (n : Nat) : Value :=
  number n.toFloat

end Value

namespace Comparison

/-- Whether a comparison holds, given those that are smaller, equal and greater. -/
def holds (c : Comparison) (isLess isEqual isGreater : Bool) : Bool :=
  match c with
  | less => isLess
  | atMost => isLess || isEqual
  | equal => isEqual
  | unequal => !isEqual
  | greater => isGreater
  | atLeast => isGreater || isEqual

/-- Compares two values: as numbers if both are, as texts otherwise. -/
def compare (c : Comparison) (format : String) (a b : Value) : Bool :=
  match a.asNumber?, b.asNumber? with
  | some x, some y => c.holds (x < y) (x == y) (y < x)
  | _, _ =>
    let s := a.toText format
    let t := b.toText format
    c.holds (s < t) (s == t) (t < s)

end Comparison

/-- The rest of a division toward zero, exactly. -/
def floatRest (x y : Float) : Float :=
  if x.isNaN || y.isNaN || x.isInf || y == 0 then 0.0 / 0.0
  else if y.isInf then x
  else
    let a := Decimal.Magnitude.ofFloat x
    let b := Decimal.Magnitude.ofFloat y
    let e := min a.exponent b.exponent
    let r := (a.mantissa <<< (a.exponent - e).toNat) % (b.mantissa <<< (b.exponent - e).toNat)
    let z := Float.scaleB r.toFloat e
    if x < 0 then -z else z

namespace Arithmetical

def apply : Arithmetical → Float → Float → Float
  | add, x, y => x + y
  | subtract, x, y => x - y
  | multiply, x, y => x * y
  | divide, x, y => x / y
  | remainder, x, y => floatRest x y
  | power, x, y => x ^ y

end Arithmetical

/-- A value printed by a conversion. -/
def converted (numbers : String) (c : Conversion) (v : Value) : String :=
  if c.letter == 's' then c.text (v.toText numbers)
  else if c.letter == 'c' then
    let code : Char := match v with
      | .number x => Char.ofNat ((clampedWhole x) % 256).toNat
      | v =>
        match numeral? (v.toText numbers), v with
        | some x, .given _ => Char.ofNat ((clampedWhole x) % 256).toNat
        | _, _ => ((v.toText numbers).toList.head?).getD '\x00'
    { c with precision := none }.text (String.singleton code)
  else if ['d', 'i', 'o', 'x', 'X', 'u'].contains c.letter then c.number (clampedWhole v.toNumber)
  else if v.toNumber.isNaN then c.text "-nan"
  else c.float v.toNumber

/-- What is printed of values by a format, and what is wrong if printing stops early: an argument
is missing, or a conversion makes no sense. -/
def formatted (numbers function format : String) (values : List Value) :
    String × Option String :=
  let shown := function ++ "(\"" ++ format ++ "\")"
  let missing := some ("not enough arguments passed to " ++ shown)
  let star (n : Option (Option Nat)) (vs : List Value) : Option (Option Int × List Value) :=
    match n with
    | none => some (none, vs)
    | some (some n) => some (some n, vs)
    | some none =>
      match vs with
      | v :: vs => some (some (clampedWhole v.toNumber), vs)
      | [] => none
  let rec go : List FormatPiece → Nat → List Value → List String → List String × Option String
    | [], _, _, done => (done, none)
    | .plain s :: ps, k, vs, done => go ps k vs (s :: done)
    | .percent :: ps, k, vs, done => go ps k vs ("%" :: done)
    | .conversion flags width precision letter :: ps, k, vs, done =>
      match (star width vs).bind fun (w, vs) => (star precision vs).map (w, ·) with
      | some (w, p, v :: vs) =>
        let flags := if w.any (· < 0) then '-' :: flags else flags
        let c : Conversion := ⟨flags, (w.getD 0).natAbs,
          p.bind (fun p => if p < 0 then none else some p.toNat), letter⟩
        go ps (k + 1) vs (converted numbers c v :: done)
      | _ => (done, missing)
    | .broken :: _, k, vs, done =>
      if vs.isEmpty then (done, missing)
      else (done, some ("improper conversion(number " ++ toString k ++ ") in " ++ shown))
    | .unfinished :: _, _, _, done => (done, missing)
  let (done, problem) := go (formatPieces (format.length + 1) format.toList) 1 values []
  (String.join done.reverse, problem)

theorem Value.isTrue_text (s : String) : (Value.text s).isTrue = !s.isEmpty := rfl

end PatchSearch.Shell.RecordScript
