import PatchSearch.Decimal
import PatchSearch.Shell.Utility.Columns
import PatchSearch.Shell.Utility.Streams

/-!
Numbers with units: `numfmt` reads and writes numbers such as `1.5K` and `2Mi`. A number is an
exact fraction from its text to its rounding.
-/
namespace PatchSearch.Shell

open Run

/-- Which units numbers have: none, powers of a thousand, powers of 1024 with or without another
letter behind theirs, or whichever is found. -/
inductive UnitScale where
  | none
  | auto
  | thousands
  | binary
  | binaryMarked
  deriving DecidableEq

/-- Which way a fraction is rounded. -/
inductive Rounding where
  | up
  | down
  | fromZero
  | towardsZero
  | nearest

/-- What is wrong with the text of a number. -/
inductive UnitFault where
  | invalid
  | badUnit
  | forbidden
  | unmarked
  | excess (text : String)

/-- A fraction; the denominator is above zero. -/
structure Fraction where
  num : Int
  den : Nat

namespace Fraction

def scale (x : Fraction) (num den : Nat) : Fraction :=
  ⟨x.num * num, x.den * max den 1⟩

/-- The whole number that a fraction is rounded to. -/
def round (x : Fraction) (r : Rounding) : Int :=
  let floor := x.num.fdiv x.den
  let ceiling := -((-x.num).fdiv x.den)
  match r with
  | .up => ceiling
  | .down => floor
  | .fromZero => if x.num < 0 then floor else ceiling
  | .towardsZero => if x.num < 0 then ceiling else floor
  | .nearest =>
    if x.num < 0 then -((-2 * x.num + x.den).fdiv (2 * x.den))
    else (2 * x.num + x.den).fdiv (2 * x.den)

example : (round ⟨-3, 2⟩ .fromZero, round ⟨3, 2⟩ .nearest) = (-2, 2) := by decide

/-- Whether the magnitude of a fraction is at least a whole number. -/
def reaches (x : Fraction) (n : Nat) : Bool :=
  n * x.den ≤ x.num.natAbs

end Fraction

/-- Digits as a decimal number with so many places. -/
def decimalText (n : Int) (places : Nat) : String :=
  let ds := Nat.toDigits 10 n.natAbs
  let ds := List.replicate (places + 1 - ds.length) '0' ++ ds
  let point := if places = 0 then [] else '.' :: ds.drop (ds.length - places)
  (if n < 0 then "-" else "") ++ String.ofList (ds.take (ds.length - places) ++ point)

namespace UnitScale

/-- The letters of units, in rising powers. -/
def letters : List Char :=
  "KMGTPEZY".toList

def base : UnitScale → Nat
  | binary => 1024
  | binaryMarked => 1024
  | _ => 1000

/-- The number that a text spells and how many places it has. -/
def read (k : UnitScale) (s : String) : Except UnitFault (Fraction × Nat) := do
  let (negative, cs) := match s.toList with
    | '-' :: cs => (true, cs)
    | cs => (false, cs)
  let whole := cs.takeWhile Char.isDigit
  let behind := cs.drop whole.length
  let part := match behind with
    | '.' :: ds => ds.takeWhile Char.isDigit
    | _ => []
  let hasPoint := behind.head? == some '.'
  if whole.isEmpty && part.isEmpty || hasPoint && part.isEmpty then throw .invalid
  let n : Nat := (whole ++ part).foldl (fun n c => 10 * n + (c.toNat - 48)) 0
  let x : Fraction := ⟨if negative then -n else n, Nat.pow 10 part.length⟩
  let rest := if hasPoint then behind.drop (part.length + 1) else behind
  let rest := rest.dropWhile fun c => c == ' ' || c == '\t'
  match rest with
  | [] => if k == binaryMarked then throw .unmarked else return (x, part.length)
  | c :: rest =>
    if !letters.contains c then throw .badUnit
    if k == none then throw .forbidden
    let power := letters.idxOf c + 1
    let isMarked := rest.head? == some 'i'
    if k == binaryMarked && !isMarked then throw .unmarked
    let takesMark := isMarked && (k == auto || k == binaryMarked)
    let base := if k == auto && isMarked then 1024 else k.base
    let rest := if takesMark then rest.drop 1 else rest
    if !rest.isEmpty then throw (.excess (String.ofList rest))
    return (x.scale (Nat.pow base power) 1, 0)

/-- The power of a base that a fraction is divided by so that less than the base is left. -/
def powerOf (base : Nat) : Nat → Fraction → Nat
  | 0, _ => 0
  | n + 1, x => if x.reaches base then powerOf base n (x.scale 1 base) + 1 else 0

/-- The text of a number with so many places, or with the places that are asked for. -/
def render (k : UnitScale) (r : Rounding) (places : Nat) (asked : Option Nat) (x : Fraction) :
    String :=
  if k == none then decimalText ((x.scale (Nat.pow 10 places) 1).round r) places
  else
    let power := powerOf k.base 20 x
    let y := x.scale 1 (Nat.pow k.base power)
    let adjust := match asked with
      | some p => min (power * 3) p
      | .none => if y.reaches 10 then 0 else 1
    let n := (y.scale (Nat.pow 10 adjust) 1).round r
    let rounded : Fraction := ⟨n, Nat.pow 10 adjust⟩
    let carries := rounded.reaches k.base
    let power := if carries then power + 1 else power
    let rounded := if carries then rounded.scale 1 k.base else rounded
    let places := match asked with
      | some p => p
      | .none => if n != 0 && !rounded.reaches 10 && 0 < power then 1 else 0
    let shown := rounded.scale (Nat.pow 10 places) 1
    let magnitude : Int := Decimal.roundDiv shown.num.natAbs shown.den
    decimalText (if n < 0 then -magnitude else magnitude) places ++
      (if power = 0 then "" else String.singleton ((letters[power - 1]?).getD '?')) ++
      if k == binaryMarked && 0 < power then "i" else ""

end UnitScale

/-- How `numfmt` changes numbers. -/
structure UnitForm where
  source : UnitScale := .none
  target : UnitScale := .none
  sourceUnit : Nat := 1
  targetUnit : Nat := 1
  rounding : Rounding := .fromZero
  /-- What stands behind numbers. -/
  ending : String := ""
  /-- The least width, filled up on the left or the right. -/
  padding : Option (Nat × Bool) := none
  zeros : Nat := 0
  places : Option Nat := none
  front : String := ""
  behind : String := ""
  invalid : String := "abort"
  separator : Option Char := none
  fields : Ranges := [(1, some 1)]

namespace UnitForm

/-- A number in its new form, or what is wrong with it. -/
def convert (f : UnitForm) (isFirst : Bool) (text : String) : Except String String := do
  let bare := if !f.ending.isEmpty && f.ending.length < text.length && text.endsWith f.ending then
      String.ofList (text.toList.take (text.length - f.ending.length)) else text
  let body := String.ofList (bare.toList.dropWhile fun c => c == ' ' || c == '\t')
  let padding := match f.padding with
    | some p => some p
    | none =>
      if f.separator.isNone && (body.length < bare.length || !isFirst) then
        some (bare.length, false) else none
  match f.source.read body with
  | .error .invalid => throw ("invalid number: " ++ cited body)
  | .error .badUnit => throw ("invalid suffix in input: " ++ cited body)
  | .error .forbidden =>
    throw ("rejecting suffix in input: " ++ cited body ++ " (consider using --from)")
  | .error .unmarked =>
    throw ("missing \x27i\x27 suffix in input: " ++ cited body ++ " (e.g Ki/Mi/Gi)")
  | .error (.excess rest) =>
    throw ("invalid suffix in input " ++ cited body ++ ": " ++ cited rest)
  | .ok (x, places) =>
    let x := x.scale f.sourceUnit f.targetUnit
    let places := f.places.getD places
    let digits := (toString (x.num.natAbs / x.den)).length
    if f.target == .none && 18 < digits - 1 + places then
      throw ("value" ++ (if places = 0 then "" else "/precision") ++
        " too large to be printed: \x27" ++ toString (x.num.natAbs / x.den) ++
        (if places = 0 then "" else "/" ++ toString places) ++
        "\x27 (consider using --to)")
    let number := f.target.render f.rounding places f.places x
    let zeros := String.ofList (List.replicate (f.zeros - number.length) '0')
    let number := (if number.startsWith "-" then
        "-" ++ zeros ++ String.ofList (number.toList.drop 1) else zeros ++ number) ++ f.ending
    let filled := match padding with
      | some (width, left) =>
        let blanks := String.ofList (List.replicate (width - number.length) ' ')
        if left then number ++ blanks else blanks ++ number
      | none => number
    return f.front ++ filled ++ f.behind

/-- The fields of a line, with the blanks in front of each if those set them apart. -/
def split (f : UnitForm) (line : String) : List String :=
  match f.separator with
  | some c => line.splitOn (String.singleton c)
  | none =>
    let isGap (c : Char) : Bool := c == ' ' || c == '\t' || c == '\n'
    let rec go : Nat → List Char → List String
      | 0, _ => []
      | n + 1, cs =>
        let gap := cs.takeWhile isGap
        let word := (cs.drop gap.length).takeWhile (!isGap ·)
        let rest := cs.drop (gap.length + word.length)
        String.ofList (gap ++ word) :: if rest.isEmpty then [] else go n (rest.drop 1)
    go (line.length + 1) line.toList

end UnitForm

/-- What `numfmt` understands. -/
def unitOptions : OptionNames :=
  { plain := "zγδη", valued := "dαβφμνπρσιψ"
    long := [("from", 'α'), ("to", 'β'), ("format", 'φ'), ("from-unit", 'μ'), ("to-unit", 'ν'),
      ("padding", 'π'), ("round", 'ρ'), ("suffix", 'σ'), ("invalid", 'ι'), ("field", 'ψ'),
      ("grouping", 'γ'), ("debug", 'δ'), ("header", 'η'), ("delimiter", 'd'),
      ("zero-terminated", 'z')] }

/-- A form with the width, the zeros and the places of a format. -/
def UnitForm.withFormat (f : UnitForm) (s : String) : Except String UnitForm := do
  let rec toPercent : List Char → Option (List Char × List Char)
    | '%' :: '%' :: cs => (toPercent cs).map fun (front, rest) => ('%' :: '%' :: front, rest)
    | '%' :: cs => some ([], cs)
    | c :: cs => (toPercent cs).map fun (front, rest) => (c :: front, rest)
    | [] => none
  match toPercent s.toList with
  | none => throw ("format " ++ cited s ++ " has no % directive")
  | some (front, cs) =>
    let invalid : Except String UnitForm := .error
      ("invalid format " ++ cited s ++ ", directive must be %[0][\x27][-][N][.][N]f")
    let flags := cs.takeWhile fun c => c == '0' || c == '\x27' || c == ' '
    let cs := cs.drop flags.length
    let left := cs.head? == some '-'
    let cs := if left then cs.drop 1 else cs
    let digits := cs.takeWhile Char.isDigit
    let cs := cs.drop digits.length
    let number (ds : List Char) : Nat := ds.foldl (fun n c => 10 * n + (c.toNat - 48)) 0
    let (places, cs) := match cs with
      | '.' :: cs =>
        let ds := cs.takeWhile Char.isDigit
        (some (number ds), cs.drop ds.length)
      | cs => (none, cs)
    match cs with
    | 'f' :: behind =>
      if (toPercent behind).isSome then
        throw ("format " ++ cited s ++ " has too many % directives")
      let hasZeros := flags.contains '0' && !digits.isEmpty
      return { f with
        front := String.ofList front
        behind := String.ofList behind
        places := places.or f.places
        zeros := if hasZeros && !left then number digits else 0
        padding := if digits.isEmpty || hasZeros && !left then f.padding
          else some (number digits, left) }
    | [] => throw ("format " ++ cited s ++ " ends in %")
    | _ => invalid

/-- A size of a unit, such as `1Ki`. -/
def unitSize (s : String) : Run Nat := do
  match UnitScale.auto.read s with
  | .ok (x, 0) =>
    if x.num < 1 || s.toList.contains '.' then fail "numfmt" 1 ("invalid unit size: " ++ cited s)
    return x.num.natAbs / x.den
  | _ => fail "numfmt" 1 ("invalid unit size: " ++ cited s)

/-- The form that options ask for. -/
def unitFormOf (o : Options) : Run UnitForm := do
  let mut f : UnitForm := {}
  for (c, value) in o.flags do
    let word (option : String) (words : List String) : Run String := do
      match wordOf? words value with
      | some w => return w
      | none => invalidWord "numfmt" option value words
    let scale (w : String) : UnitScale :=
      match w with
      | "auto" => .auto
      | "si" => .thousands
      | "iec" => .binary
      | "iec-i" => .binaryMarked
      | _ => .none
    match c with
    | 'α' => f := { f with source := scale (← word "--from" ["none", "auto", "si", "iec", "iec-i"]) }
    | 'β' => f := { f with target := scale (← word "--to" ["none", "si", "iec", "iec-i"]) }
    | 'μ' => f := { f with sourceUnit := ← unitSize value }
    | 'ν' => f := { f with targetUnit := ← unitSize value }
    | 'ρ' =>
      let w ← word "--round" ["up", "down", "from-zero", "towards-zero", "nearest"]
      f := { f with rounding := match w with
        | "up" => .up
        | "down" => .down
        | "from-zero" => .fromZero
        | "towards-zero" => .towardsZero
        | _ => .nearest }
    | 'π' =>
      match integer? value with
      | some n =>
        if n = 0 then fail "numfmt" 1 ("invalid padding value " ++ cited value)
        f := { f with padding := some (n.natAbs, n < 0) }
      | none => fail "numfmt" 1 ("invalid padding value " ++ cited value)
    | 'σ' => f := { f with ending := value }
    | 'ι' => f := { f with invalid := ← word "--invalid" ["abort", "fail", "warn", "ignore"] }
    | 'd' =>
      match value.toList with
      | [c] => f := { f with separator := some c }
      | [] => f := { f with separator := some '\x00' }
      | _ => fail "numfmt" 1 "the delimiter must be a single character"
    | 'ψ' =>
      match Ranges.read (if value == "-" then "1-" else value) with
      | .ok r => f := { f with fields := r }
      | .error e => misuse "numfmt" 1 (e.message true)
    | 'φ' =>
      match f.withFormat value with
      | .ok g => f := g
      | .error text => fail "numfmt" 1 text
    | _ => pure ()
  return f

/-- Changes the numbers of a line. -/
def convertLine (f : UnitForm) (ending : Char) (line : String) : Run Unit := do
  let mut done : List String := []
  for (field, i) in (f.split line).zipIdx 1 do
    if f.fields.contains i then
      match f.convert (i == 1) field with
      | .ok text => done := text :: done
      | .error text =>
        if f.invalid == "abort" then fail "numfmt" 2 text
        if f.invalid != "ignore" then warn "numfmt" text
        if f.invalid == "fail" then setStatus 2
        done := field :: done
    else done := field :: done
  let separator := String.singleton (f.separator.getD ' ')
  emit "numfmt" (separator.intercalate done.reverse ++ String.singleton ending)

/-- `numfmt`. -/
def convertUnits : Utility :=
  withOptions "numfmt" unitOptions fun o => do
    let f ← unitFormOf o
    let header ← match o.value? 'η' with
      | none => pure 0
      | some "" => pure 1
      | some s =>
        match integer? s with
        | some n =>
          if n < 1 then fail "numfmt" 1 ("invalid header value " ++ cited s)
          pure n.toNat
        | none => fail "numfmt" 1 ("invalid header value " ++ cited s)
    let ending := lineEnding (o.has 'z')
    if o.operands.isEmpty then
      match ← readInput "-" with
      | .error cause => fail "numfmt" 1 ("error reading input: " ++ cause)
      | .ok s =>
        let lines := linesEndedBy ending s
        emit "numfmt" (joinEndedBy ending (lines.take header))
        for line in lines.drop header do
          convertLine f ending line
    else
      for line in o.operands do
        convertLine f ending line

end PatchSearch.Shell
