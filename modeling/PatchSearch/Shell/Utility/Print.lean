import PatchSearch.Decimal
import PatchSearch.Shell.Builtin.Basic
import PatchSearch.Shell.Numerals
import PatchSearch.Shell.Utility.Basic
import PatchSearch.Fault

/-!
Printing by formats and with escapes: `echo` and `printf`, as builtins of a shell and as programs.
-/
namespace PatchSearch.Shell

open Run

/-- The value of an octal digit. -/
def octal? (c : Char) : Option Nat :=
  if '0' ≤ c && c ≤ '7' then some (c.toNat - 48) else none

/-- The byte that at most `n` octal digits spell, and the rest. -/
def octalByte : Nat → Nat → List Char → Char × List Char
  | 0, v, cs => (Char.ofNat (v % 256), cs)
  | n + 1, v, c :: cs =>
    match octal? c with
    | some d => octalByte n (8 * v + d) cs
    | none => (Char.ofNat (v % 256), c :: cs)
  | _, v, [] => (Char.ofNat (v % 256), [])

/-- The byte that at most two hexadecimal digits spell, and the rest; nothing without a digit. -/
def hexByte? (cs : List Char) : Option (Char × List Char) :=
  let ds := (cs.take 2).takeWhile (Arithmetic.digitValue · < 16)
  if ds.isEmpty then none
  else some (Char.ofNat (ds.foldl (fun v d => 16 * v + Arithmetic.digitValue d) 0),
    cs.drop ds.length)

/-- The character that a letter after a backslash stands for. -/
def escapedChar? : Char → Option Char
  | 'a' => some '\x07'
  | 'b' => some '\x08'
  | 'e' => some '\x1b'
  | 'f' => some '\x0c'
  | 'n' => some '\n'
  | 'r' => some '\r'
  | 't' => some '\t'
  | 'v' => some '\x0b'
  | '\\' => some '\\'
  | _ => none

/-- An escape after its backslash, as it stands in a format: the character and the rest. What is
no escape is a backslash. `wide` adds the escapes of programs. -/
def formatEscape (wide : Bool) (cs : List Char) : Char × List Char :=
  match cs with
  | [] => ('\\', [])
  | d :: rest =>
    if (octal? d).isSome then octalByte 3 0 cs
    else if wide && d == '"' then ('"', rest)
    else
      match if wide && d == 'x' then hexByte? rest else none with
      | some found => found
      | none =>
        match escapedChar? d with
        | some e => (e, rest)
        | none => ('\\', cs)

/-- A text with its escapes replaced, last character first, and whether an escape stopped all
output. Octal numbers may start with a zero more. -/
def unescapeInto (wide : Bool) : Nat → List Char → List Char → List Char × Bool
  | 0, done, _ => (done, false)
  | _, done, [] => (done, false)
  | n + 1, done, c :: cs =>
    match c, cs with
    | '\\', 'c' :: _ => (done, true)
    | '\\', '0' :: d :: rest =>
      if (octal? d).isSome then
        let (b, rest) := octalByte 3 0 (d :: rest)
        unescapeInto wide n (b :: done) rest
      else unescapeInto wide n ('\x00' :: done) (d :: rest)
    | '\\', cs =>
      let (b, rest) := formatEscape wide cs
      unescapeInto wide n (b :: done) rest
    | c, cs => unescapeInto wide n (c :: done) cs

/-- A text with its escapes replaced, and whether an escape stopped all output. -/
def unescape (wide : Bool) (s : String) : String × Bool :=
  let (done, stop) := unescapeInto wide (s.length + 1) [] s.toList
  (String.ofList done.reverse, stop)

/-- `echo` of a shell: escapes are replaced. -/
def echoEscaped : Builtin := fun args => do
  let (newline, args) := match args with
    | "-n" :: args => (false, args)
    | args => (true, args)
  let (out, stop) := unescape false (String.intercalate " " args)
  answer (out ++ if newline && !stop then "\n" else "") 0

/-- `echo` as a program: escapes stay unless they are asked for. -/
def echoPlain : Utility := fun args => do
  let isOption (s : String) : Bool :=
    match s.toList with
    | '-' :: c :: cs => (c :: cs).all fun c => ['n', 'e', 'E'].contains c
    | _ => false
  let letters := (String.join (args.takeWhile isOption)).toList
  let text := String.intercalate " " (args.dropWhile isOption)
  setStatus 0
  let ending := if letters.contains 'n' then "" else "\n"
  if (letters.reverse.find? fun c => c == 'e' || c == 'E') == some 'e' then
    let (out, stop) := unescape true text
    emit "echo" (out ++ if stop then "" else ending)
  else emit "echo" (text ++ ending)

/-- A text in a field of at least some width. -/
def padded (left : Bool) (width : Nat) (s : String) : String :=
  let blanks := String.ofList (List.replicate (width - s.length) ' ')
  if left then s ++ blanks else blanks ++ s

/-- A conversion of a format: flags, width, precision and its letter. -/
structure Conversion where
  flags : List Char
  width : Nat
  precision : Option Nat
  letter : Char

namespace Conversion

/-- A conversion after its percent sign; a star takes a number from the arguments. -/
def read (cs : List Char) (args : List String) : Option (Conversion × List Char × List String) :=
  let flags := cs.takeWhile fun c => ['-', '+', ' ', '0', '#'].contains c
  let number (cs : List Char) (args : List String) : Option Int × List Char × List String :=
    match cs with
    | '*' :: cs => (some ((integer? (args.headD "0")).getD 0), cs, args.drop 1)
    | cs =>
      let ds := cs.takeWhile Char.isDigit
      (integer? (String.ofList ds), cs.drop ds.length, args)
  let (width, cs, args) := number (cs.drop flags.length) args
  let flags := if width.any (· < 0) then '-' :: flags else flags
  let width := (width.getD 0).natAbs
  let (precision, cs, args) := match cs with
    | '.' :: cs =>
      let (p, cs, args) := number cs args
      (if p.any (· < 0) then none else some (p.getD 0).toNat, cs, args)
    | cs => (none, cs, args)
  match cs with
  | letter :: cs => some (⟨flags, width, precision, letter⟩, cs, args)
  | [] => none

/-- A number in a base, with the digits it has to have. -/
def digits (base : Nat) (c : Conversion) (n : Nat) : String :=
  let ds := if n = 0 && c.precision == some 0 then "" else String.ofList (Nat.toDigits base n)
  match c.precision with
  | some p => String.ofList (List.replicate (p - ds.length) '0') ++ ds
  | none => ds

/-- The sign of a number, or what stands in its place. -/
def sign (c : Conversion) (isNegative : Bool) : String :=
  if isNegative then "-"
  else if c.flags.contains '+' then "+"
  else if c.flags.contains ' ' then " "
  else ""

/-- A number with its sign in a field, perhaps filled with zeros. -/
def filled (c : Conversion) (zeros : Bool) (front body : String) : String :=
  if zeros && c.flags.contains '0' && !c.flags.contains '-' then
    front ++ String.ofList (List.replicate (c.width - front.length - body.length) '0') ++ body
  else padded (c.flags.contains '-') c.width (front ++ body)

/-- A signed or unsigned number in its field. -/
def number (c : Conversion) (n : Int) : String :=
  let signed := c.letter == 'd' || c.letter == 'i'
  let magnitude : Nat := if signed then n.natAbs else (n % wordCount).toNat
  let marked := c.flags.contains '#' && magnitude != 0
  let front := if signed then c.sign (n < 0)
    else if marked && c.letter == 'x' then "0x"
    else if marked && c.letter == 'X' then "0X"
    else ""
  let body := match c.letter with
    | 'o' =>
      let ds := c.digits 8 magnitude
      if c.flags.contains '#' && ds.toList.head? != some '0' then "0" ++ ds else ds
    | 'x' => c.digits 16 magnitude
    | 'X' => String.ofList ((c.digits 16 magnitude).toList.map Char.toUpper)
    | _ => c.digits 10 magnitude
  c.filled c.precision.isNone front body

def text (c : Conversion) (s : String) : String :=
  let s := match c.precision with
    | some p => String.ofList (s.toList.take p)
    | none => s
  padded (c.flags.contains '-') c.width s

/-- Numerator and denominator of the magnitude of a float. -/
def fraction (x : Float) : Nat × Nat :=
  let v := Decimal.Magnitude.ofFloat x
  (v.mantissa <<< v.exponent.toNat, 1 <<< (-v.exponent).toNat)

/-- The magnitude of a float with a given number of places. -/
def positional (places : Nat) (x : Float) : String :=
  let (num, den) := fraction x
  let ds := toString (Decimal.roundDiv (num * Decimal.tenTo places) den)
  let ds := String.ofList (List.replicate (places + 1 - ds.length) '0') ++ ds
  let whole := String.ofList (ds.toList.take (ds.length - places))
  if places = 0 then whole else whole ++ "." ++ String.ofList (ds.toList.drop (ds.length - places))

/-- The exponent of ten of the leading digit after rounding, and the digits, of which there are
some more than `places`. -/
def leading (places : Nat) (x : Float) : Int × String :=
  let (num, den) := fraction x
  if num = 0 then (0, String.ofList (List.replicate (places + 1) '0'))
  else
    let e := (Decimal.Magnitude.ofFloat x).point - 1
    let shift := (places : Int) - e
    let n := Decimal.roundDiv (num * Decimal.tenTo shift.toNat) (den * Decimal.tenTo (-shift).toNat)
    let ds := toString n
    if places + 1 < ds.length then (e + 1, String.ofList (ds.toList.take (places + 1))) else (e, ds)

/-- An exponent of at least two digits. -/
def exponentText (e : Int) : String :=
  let ds := toString e.natAbs
  (if e < 0 then "e-" else "e+") ++ (if ds.length < 2 then "0" else "") ++ ds

/-- The magnitude of a float with one digit in front of the point. -/
def scientific (places : Nat) (x : Float) : String :=
  let (e, ds) := leading places x
  String.ofList (ds.toList.take 1) ++
    (if places = 0 then "" else "." ++ String.ofList (ds.toList.drop 1)) ++ exponentText e

/-- A text without the zeros at the end of its fraction. -/
def withoutZeros (s : String) : String :=
  if s.toList.contains '.' then
    let cs := s.toList.reverse.dropWhile (· == '0')
    String.ofList (if cs.head? == some '.' then cs.drop 1 else cs).reverse
  else s

/-- The magnitude of a float with so many significant digits, in the shorter notation. -/
def general (keepZeros : Bool) (places : Nat) (x : Float) : String :=
  let p := if places = 0 then 1 else places
  let (e, ds) := leading (p - 1) x
  let cut (s : String) : String := if keepZeros then s else withoutZeros s
  if e < -4 || (p : Int) ≤ e then
    cut (String.ofList (ds.toList.take 1) ++ "." ++ String.ofList (ds.toList.drop 1)) ++
      exponentText e
  else cut (positional ((p : Int) - 1 - e).toNat x)

/-- A float in its field. -/
def float (c : Conversion) (x : Float) : String :=
  let places := c.precision.getD 6
  let lower := c.letter.toLower
  let finite := x.isFinite
  let body :=
    if x.isNaN then "nan"
    else if x.isInf then "inf"
    else if lower == 'e' then scientific places x
    else if lower == 'g' then general (c.flags.contains '#') places x
    else positional places x
  let body := if c.letter.isUpper then String.ofList (body.toList.map Char.toUpper) else body
  c.filled finite (c.sign (x < 0 || x.toBits.toNat == 0x8000000000000000)) body

end Conversion

/-- What an argument of a format is as a number, and what is wrong with it. -/
structure Converted (β : Type) where
  value : β
  problem : Option String := none

/-- What is wrong with an argument of which a part could not be read. -/
def conversionProblem (s : String) (rest : List Char) : Option String :=
  if rest.isEmpty then none
  else if rest.length = s.length then some (s ++ ": expected numeric value")
  else some (s ++ ": not completely converted")

/-- The whole number that an argument spells in decimal, octal or hexadecimal notation, or the
code of a character after a quote. -/
def convertInteger (signed : Bool) (s : String) : Converted Int :=
  match s.toList with
  | '\x27' :: rest => ⟨((rest.head?).map fun c => (c.toNat : Int)).getD 0, none⟩
  | '"' :: rest => ⟨((rest.head?).map fun c => (c.toNat : Int)).getD 0, none⟩
  | cs =>
    let body := cs.dropWhile isSpace
    let (negative, digits) := match body with
      | '-' :: ds => (true, ds)
      | '+' :: ds => (false, ds)
      | ds => (false, ds)
    match Arithmetic.numeral? digits with
    | none => ⟨0, conversionProblem s cs⟩
    | some (n, rest) =>
      let v : Int := if negative then -(n : Int) else n
      let clamped := if signed then Arithmetic.clamp v
        else if (wordCount : Int) ≤ n then (wordCount : Int) - 1 else v
      ⟨clamped, if clamped == v then conversionProblem s rest
        else some (s ++ ": Numerical result out of range")⟩

/-- The float that an argument spells, or the code of a character after a quote. -/
def convertFloat (s : String) : Converted Float :=
  let code (rest : List Char) : Converted Float :=
    ⟨((rest.head?.map Char.toNat).getD 0).toFloat, none⟩
  match s.toList with
  | '\x27' :: rest => code rest
  | '"' :: rest => code rest
  | cs =>
    match Numerals.float? cs with
    | some (x, rest) => ⟨x, conversionProblem s rest⟩
    | none => ⟨0.0, conversionProblem s cs⟩

/-- The output of one pass through a format. -/
structure FormatPass where
  /-- What is printed, in pieces, last one first. -/
  out : List String := []
  problems : List String := []
  args : List String
  /-- Whether an escape ended all output. -/
  stop : Bool := false
  /-- What makes the format no format. -/
  fault : Option String := none

namespace FormatPass

def text (p : FormatPass) : String :=
  String.join p.out.reverse

def add (p : FormatPass) (s : String) : FormatPass :=
  { p with out := s :: p.out }

end FormatPass

/-- Goes through a format once. -/
def formatOnce (wide : Bool) : Nat → List Char → FormatPass → FormatPass
  | 0, _, p => p
  | _, [], p => p
  | n + 1, c :: cs, p =>
    let put (s : String) (cs : List Char) (p : FormatPass) : FormatPass :=
      formatOnce wide n cs (p.add s)
    match c, cs with
    | '\\', cs =>
      if wide && cs.head? == some 'c' then { p with stop := true }
      else
        let (b, rest) := formatEscape wide cs
        put (String.ofList [b]) rest p
    | '%', '%' :: rest => put "%" rest p
    | '%', cs =>
      match Conversion.read cs p.args with
      | none => { p with fault := some "missing format character" }
      | some (k, rest, args) =>
        let arg := args.headD ""
        let q := { p with args := args.drop 1 }
        let numeric (s : String) (problem : Option String) : FormatPass :=
          put s rest { q with problems := q.problems ++ problem.toList }
        let l := k.letter
        if l == 's' then put (k.text arg) rest q
        else if l == 'c' then
          put (k.text (String.ofList [arg.toList.headD '\x00'])) rest q
        else if l == 'b' then
          let (s, stop) := unescape wide arg
          if stop then { q.add (k.text s) with stop := true } else put (k.text s) rest q
        else if l == 'd' || l == 'i' then
          let v := convertInteger true arg
          numeric (k.number v.value) v.problem
        else if ['u', 'o', 'x', 'X'].contains l then
          let v := convertInteger false arg
          numeric (k.number v.value) v.problem
        else if ['e', 'E', 'f', 'F', 'g', 'G'].contains l then
          let v := convertFloat arg
          numeric (k.float v.value) v.problem
        else
          { p with fault := some ("%" ++ String.ofList (cs.take (cs.length - rest.length)) ++
              ": invalid directive") }
    | c, cs =>
      let plain := (c :: cs).takeWhile fun d => d != '\\' && d != '%'
      put (String.ofList plain) ((c :: cs).drop plain.length) p

/-- Goes through a format until no arguments are left. -/
def formatAll (wide : Bool) (format : List Char) : Nat → FormatPass → FormatPass
  | 0, p => p
  | n + 1, p =>
    let q := formatOnce wide (format.length + 1) format p
    if q.stop || q.fault.isSome || q.args.isEmpty || q.args.length = p.args.length then q
    else formatAll wide format n q

/-- `printf` of a shell. -/
def printFormatted : Builtin := fun args => do
  let (_, args) ← options [] [] args
  match args with
  | [] => refuse "usage: printf format [arg ...]"
  | format :: args =>
    let p := formatAll false format.toList (args.length + 1) { args }
    for problem in p.problems do
      complain problem
    match p.fault with
    | some text =>
      complain text
      answer p.text 2
    | none => answer p.text (if p.problems.isEmpty then 0 else 1)

/-- `printf` as a program. -/
def printProgram : Utility := fun args => do
  setStatus 0
  match if args.head? == some "--" then args.drop 1 else args with
  | [] => misuse "printf" 1 "missing operand"
  | format :: args =>
    let p := formatAll true format.toList (args.length + 1) { args }
    for problem in p.problems do
      match problem.splitOn ": expected" with
      | [value, _] => lament "printf" (cited value ++ ": expected a numeric value")
      | _ =>
        match problem.splitOn ": not" with
        | [value, _] => lament "printf" (cited value ++ ": value not completely converted")
        | _ => lament "printf" problem
    emit "printf" p.text
    if !args.isEmpty && p.args.length = args.length && p.fault.isNone then
      warn "printf" ("warning: ignoring excess arguments, starting with " ++
        cited (args.headD ""))
    match p.fault with
    | some text => fail "printf" 1 text
    | none => return

end PatchSearch.Shell
