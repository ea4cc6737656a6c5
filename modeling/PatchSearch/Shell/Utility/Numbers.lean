import PatchSearch.Shell.Regex.Reader
import PatchSearch.Shell.Utility.Print
import PatchSearch.Shell.Utility.Streams

/-!
Utilities that compute: `seq` counts from one number to another, and `expr` evaluates an
expression whose operands are words.
-/
namespace PatchSearch.Shell

open Run

/-- A decimal number: its digits as a whole number, how many of them are places, and how many
characters it is written with. -/
structure Fixed where
  digits : Int
  places : Nat
  width : Int := 1

namespace Fixed

/-- How many characters a number takes without its exponent. -/
def widthOf (cs : List Char) : Int :=
  let isMark (c : Char) : Bool := c.toLower == 'e'
  let front := cs.takeWhile (!isMark ·)
  let whole := front.takeWhile (· != '.')
  let part := front.drop (whole.length + 1)
  let point : Int :=
    if whole.length = front.length then 0
    else if part.isEmpty then -1
    else if whole.getLast?.any Char.isDigit then 0 else 1
  let e := (Numerals.exponent 'e' (cs.drop front.length)).1
  let moved : Int :=
    if e < 0 && (whole.length = front.length || part.isEmpty) then 1 + e.natAbs else e.natAbs
  front.length + point + moved

/-- A number from its text. No end of numbers counts as a very large one. -/
def read? (s : String) : Option Fixed :=
  let cs := s.toList.dropWhile fun c => isSpace c || c == '+'
  let (negative, body) := Numerals.sign cs
  let signed (n : Nat) : Int := if negative then -n else n
  if body.map Char.toLower == "inf".toList || body.map Char.toLower == "infinity".toList then
    some ⟨signed (Nat.pow 10 60), 0, 3⟩
  else
    (Numerals.mantissa? 10 body).bind fun (n, places, rest) =>
      let (e, rest) := Numerals.exponent 'e' rest
      if !rest.isEmpty || 1000 < e.natAbs then none
      else
        let shift := (places : Int) - e
        some ⟨signed (n * Nat.pow 10 (-shift).toNat), shift.toNat, widthOf cs⟩

/-- The digits of a number with so many places. -/
def scaled (x : Fixed) (places : Nat) : Int :=
  x.digits * (10 : Int).pow (places - x.places)

/-- The text of digits with so many places, filled up with zeros to a width. -/
def render (n : Int) (places width : Nat) : String :=
  let ds := Nat.toDigits 10 n.natAbs
  let ds := List.replicate (places + 1 - ds.length) '0' ++ ds
  let whole := ds.take (ds.length - places)
  let body := whole ++ if places = 0 then [] else '.' :: ds.drop (ds.length - places)
  let sign := if n < 0 then ['-'] else []
  String.ofList (sign ++ List.replicate (width - sign.length - body.length) '0' ++ body)

example : render (-5) 1 0 = "-0.5" := by cbv

/-- How wide numbers are that are filled up with zeros, the first and the last of them. -/
def fillWidth (first last : Fixed) (places : Nat) : Nat :=
  let width (x : Fixed) : Int := x.width + places - x.places
  let front := width first + if first.places = 0 && places != 0 then 1 else 0
  let behind := width last +
    if last.places != 0 && places = 0 then -1
    else if last.places = 0 && places != 0 then 1 else 0
  (max front behind).toNat

end Fixed

/-- A format of numbers: what stands around a conversion. -/
structure CountFormat where
  front : List Char
  conversion : Conversion
  behind : List Char

namespace CountFormat

/-- What stands in front of the next conversion, and the text from there on behind its percent
sign; nothing if there is none. -/
def toPercent : List Char → Option (List Char × List Char)
  | '%' :: '%' :: cs => (toPercent cs).map fun (front, rest) => ('%' :: front, rest)
  | '%' :: cs => some ([], cs)
  | c :: cs => (toPercent cs).map fun (front, rest) => (c :: front, rest)
  | [] => none

/-- A text in which two percent signs stand for one. -/
def plain : List Char → List Char
  | '%' :: '%' :: cs => '%' :: plain cs
  | c :: cs => c :: plain cs
  | [] => []

/-- A format from its text. -/
def read (s : String) : Except String CountFormat :=
  let fault (text : String) : Except String CountFormat :=
    .error ("format " ++ cited s ++ text)
  match toPercent s.toList with
  | none => fault " has no % directive"
  | some (front, cs) =>
    let flags := cs.takeWhile ("-+#0 \x27".toList.contains ·)
    let cs := cs.drop flags.length
    let width := cs.takeWhile Char.isDigit
    let cs := cs.drop width.length
    let precision := match cs with
      | '.' :: cs => some (cs.takeWhile Char.isDigit)
      | _ => none
    let cs := match precision with
      | some ds => cs.drop (ds.length + 1)
      | none => cs
    let cs := if cs.head? == some 'L' then cs.drop 1 else cs
    let number (ds : List Char) : Nat := ds.foldl (fun n c => 10 * n + (c.toNat - 48)) 0
    match cs with
    | [] => fault " ends in %"
    | letter :: behind =>
      if !("efgaEFGA".toList.contains letter) then
        fault (" has unknown %" ++ String.singleton letter ++ " directive")
      else if (toPercent behind).isSome then fault " has too many % directives"
      else .ok ⟨front, ⟨flags, number width, precision.map number, letter⟩, plain behind⟩

/-- The text of digits with so many places. -/
def render (f : CountFormat) (n : Int) (places : Nat) : String :=
  let x := Numerals.ofDecimal n.natAbs (-places)
  String.ofList f.front ++ f.conversion.float (if n < 0 then -x else x) ++ String.ofList f.behind

end CountFormat

/-- Writes the numbers from one on, at most so many, in pieces. -/
def writeCounted (shown : Int → String) (separator : String) (step : Int) :
    Nat → Int → Nat → Run Unit
  | 0, _, _ => return
  | n + 1, start, count => do
    if count != 0 then
      let size := min count 1000
      let items := (List.range size).map fun i : Nat => shown (start + step * Int.ofNat i)
      emit "seq" (String.intercalate separator items ++ if size < count then separator else "\n")
      pause 20000
      writeCounted shown separator step n (start + step * Int.ofNat size) (count - size)

/-- The options in front of the numbers of `seq`, and the numbers. A number may start with a
minus sign. -/
def countingWords : List String → List String × List String
  | [] => ([], [])
  | "--" :: rest => ([], rest)
  | w :: rest =>
    match w.toList with
    | '-' :: c :: cs =>
      if c.isDigit || c == '.' then ([], w :: rest)
      else if (c == 's' || c == 'f') && cs.isEmpty then
        match rest with
        | value :: rest =>
          let (front, behind) := countingWords rest
          (w :: value :: front, behind)
        | [] => ([w], [])
      else
        let (front, behind) := countingWords rest
        (w :: front, behind)
    | _ => ([], w :: rest)

/-- `seq`. -/
def countUp : Utility := fun args =>
  let (front, numbers) := countingWords args
  withOptions "seq"
    { plain := "w", valued := "sf"
      long := [("equal-width", 'w'), ("separator", 's'), ("format", 'f')] }
    (fun o => do
      let operand (k : Nat) : String := (numbers[k]?).getD ""
      if numbers.isEmpty then misuse "seq" 1 "missing operand"
      if 3 < numbers.length then misuse "seq" 1 ("extra operand " ++ cited (operand 3))
      let format ← match o.value? 'f' with
        | none => pure none
        | some s =>
          match CountFormat.read s with
          | .ok f => pure (some f)
          | .error text => fail "seq" 1 text
      if format.isSome && o.has 'w' then
        misuse "seq" 1 "format string may not be specified when printing equal width strings"
      let number (s : String) : Run Fixed := do
        match Fixed.read? s with
        | some x => return x
        | none =>
          if (Numerals.float? s.toList).any fun (x, rest) => x.isNaN && rest.isEmpty then
            misuse "seq" 1 ("invalid " ++ cited "not-a-number" ++ " argument: " ++ cited s)
          misuse "seq" 1 ("invalid floating point argument: " ++ cited s)
      let one : Fixed := ⟨1, 0, 1⟩
      let (first, step, last) ← match numbers with
        | [_] => do pure (one, one, ← number (operand 0))
        | [_, _] => do pure (← number (operand 0), one, ← number (operand 1))
        | _ => do
          let first ← number (operand 0)
          let step ← number (operand 1)
          if step.digits = 0 then
            misuse "seq" 1 ("invalid Zero increment value: " ++ cited (operand 1))
          pure (first, step, ← number (operand 2))
      let places := max first.places step.places
      let finest := max places last.places
      let (a, s, b) := (first.scaled finest, step.scaled finest, last.scaled finest)
      let count := if 0 < s then (if b < a then 0 else (b - a) / s + 1)
        else (if a < b then 0 else (a - b) / (-s) + 1)
      let (a, s) := (first.scaled places, step.scaled places)
      let width := if o.has 'w' then first.fillWidth last places else 0
      let shown (n : Int) : String :=
        match format with
        | some f => f.render n places
        | none => Fixed.render n places width
      writeCounted shown ((o.value? 's').getD "\n") s (count.toNat + 1) a count.toNat)
    false 1 (front ++ if numbers.isEmpty then [] else "--" :: numbers)

namespace Reckoning

/-- Whether a value counts as nothing. -/
def isNull (s : String) : Bool :=
  s.isEmpty || (integer? s).any (· == 0) && (s.toList.head? != some '+')

/-- A whole number. -/
def whole (s : String) : Except String Int :=
  match if s.startsWith "+" then none else integer? s with
  | some n => .ok n
  | none => .error "non-integer argument"

/-- What a text and a pattern at its start give: the first group or the length of the match. -/
def matched (s pattern : String) : Except String String := do
  let r ← Regex.read (RegexStyle.basic true) pattern
  let grouped := 0 < r.groupCount
  return match r.longestFrom (Regex.lineFront s.toList) with
    | some q =>
      if grouped then String.ofList ((q.groups.lookup 1).getD []) else toString q.position
    | none => if grouped then "" else "0"

/-- Compares two values, as numbers if both are. -/
def compared (op a b : String) : Bool :=
  let o : Ordering := match whole a, whole b with
    | .ok x, .ok y => compare x y
    | _, _ => compare a b
  match op with
  | "<" => o == .lt
  | "<=" => o != .gt
  | "=" => o == .eq
  | "==" => o == .eq
  | "!=" => o != .eq
  | ">=" => o != .lt
  | _ => o == .gt

/-- The value of two operands. -/
def combined (op a b : String) : Except String String := do
  match op with
  | "|" => return if !isNull a then a else if !isNull b then b else "0"
  | "&" => return if isNull a || isNull b then "0" else a
  | ":" => matched a b
  | "+" => return toString ((← whole a) + (← whole b))
  | "-" => return toString ((← whole a) - (← whole b))
  | "*" => return toString ((← whole a) * (← whole b))
  | "/" =>
    let (x, y) := (← whole a, ← whole b)
    if y = 0 then throw "division by zero"
    return toString (x.tdiv y)
  | "%" =>
    let (x, y) := (← whole a, ← whole b)
    if y = 0 then throw "division by zero"
    return toString (x.tmod y)
  | op => return if compared op a b then "1" else "0"

/-- Operators from the loosest to the tightest. -/
def levels : List (List String) :=
  [["|"], ["&"], ["<", "<=", "=", "==", "!=", ">=", ">"], ["+", "-"], ["*", "/", "%"], [":"]]

/-- A value at the start of words, and the words behind it. The last word that was read is told
if one is missing. -/
abbrev Reader := String → List String → Except String (String × List String)

/-- An operand. -/
def operand (enclosed : Reader) : Reader := fun last ws =>
  let missing : Except String (String × List String) :=
    .error ("syntax error: missing argument after " ++ cited last)
  match ws with
  | [] => missing
  | "(" :: rest => do
    let (v, rest) ← enclosed "(" rest
    match rest with
    | ")" :: rest => return (v, rest)
    | [] => throw ("syntax error: expecting \x27)\x27 after " ++ cited v)
    | w :: _ => throw ("syntax error: expecting \x27)\x27 instead of " ++ cited w)
  | ")" :: _ => .error "syntax error: unexpected \x27)\x27"
  | "+" :: w :: rest => .ok (w, rest)
  | "length" :: w :: rest => .ok (toString w.length, rest)
  | "match" :: a :: b :: rest => (matched a b).map (·, rest)
  | "index" :: a :: b :: rest =>
    let cs := a.toList
    let i := cs.findIdx fun c => b.toList.contains c
    .ok (toString (if i < cs.length then i + 1 else 0), rest)
  | "substr" :: s :: i :: n :: rest =>
    match integer? i, integer? n with
    | some i, some n =>
      .ok (if i < 1 || n < 1 then "" else
        String.ofList ((s.toList.drop (i.toNat - 1)).take n.toNat), rest)
    | _, _ => .ok ("", rest)
  | w :: rest => .ok (w, rest)

/-- Operands joined by operators of one level, from the left. -/
def joined (ops : List String) (item : Reader) : Nat → String → List String →
    Except String (String × List String)
  | 0, v, ws => .ok (v, ws)
  | n + 1, v, ws =>
    match ws with
    | op :: rest =>
      if ops.contains op then do
        let (b, rest) ← item op rest
        joined ops item n (← combined op v b) rest
      else .ok (v, ws)
    | [] => .ok (v, [])

/-- An expression of operators from some levels on. -/
def expression (enclosed : Reader) : List (List String) → Reader
  | [] => operand enclosed
  | ops :: tighter => fun last ws => do
    let item := expression enclosed tighter
    let (v, rest) ← item last ws
    joined ops item ws.length v rest

/-- An expression with parentheses up to a depth. -/
def nested : Nat → Reader
  | 0 => fun _ _ => .error "syntax error"
  | n + 1 => expression (nested n) levels

end Reckoning

/-- `expr`. -/
def evaluateWords : Utility := fun args => do
  let args := if args.head? == some "--" then args.drop 1 else args
  if args.isEmpty then misuse "expr" 2 "missing operand"
  match Reckoning.nested (args.length + 1) "" (args.map spell) with
  | .error text => fail "expr" 2 text
  | .ok (_, w :: _) =>
    fail "expr" 2 ("syntax error: unexpected argument " ++ cited (unspell w))
  | .ok (v, []) =>
    setStatus (if Reckoning.isNull v then 1 else 0)
    emit "expr" (unspell v ++ "\n")

/-!
Prime factors: `factor` writes numbers as products. Small factors are found by division; what is
left is split by looking for two members of a sequence that agree in a divisor.
-/

namespace Factors

/-- A power of a number by the rest that a modulus leaves. -/
def powerMod (modulus : Nat) : Nat → Nat → Nat → Nat
  | 0, _, _ => 1 % modulus
  | _, _, 0 => 1 % modulus
  | fuel + 1, base, exponent =>
    let half := powerMod modulus fuel (base * base % modulus) (exponent / 2)
    if exponent % 2 = 1 then half * base % modulus else half

/-- Whether squaring a rest so many times meets minus one. -/
def meetsMinusOne (n : Nat) : Nat → Nat → Bool
  | 0, _ => false
  | k + 1, x => x + 1 = n || meetsMinusOne n k (x * x % n)

/-- How often two divides a number. -/
def twos : Nat → Nat → Nat
  | 0, _ => 0
  | fuel + 1, n => if n % 2 = 0 then twos fuel (n / 2) + 1 else 0

/-- Whether a number above one passes the tests of small bases, which primes do. -/
def isProbablePrime (n : Nat) : Bool :=
  let bases := [2, 3, 5, 7, 11, 13, 17, 19, 23, 29, 31, 37]
  let size := n.log2 + 2
  let k := twos size (n - 1)
  let odd := (n - 1) / Nat.pow 2 k
  bases.all fun b =>
    let x := powerMod n size b odd
    n = b || n % b != 0 && (x = 1 || meetsMinusOne n k x)

/-- The divisor that two walkers on a sequence find, one of which goes twice as fast. -/
def meeting (n step : Nat) : Nat → Nat → Nat → Option Nat
  | 0, _, _ => none
  | fuel + 1, x, y =>
    let next (z : Nat) : Nat := (z * z + step) % n
    let x := next x
    let y := next (next y)
    let d := Nat.gcd (if x < y then y - x else x - y) n
    if d = 1 then meeting n step fuel x y else if d = n then none else some d

/-- A divisor of a number that is no prime. -/
def divisor? (n : Nat) : Option Nat :=
  (List.range 20).findSome? fun i => meeting n (i + 1) 3000000 2 2

/-- The prime factors of a number without small ones. -/
def split : Nat → Nat → List Nat
  | 0, n => [n]
  | fuel + 1, n =>
    if n < 2 then []
    else if isProbablePrime n then [n]
    else
      match divisor? n with
      | some d => split fuel d ++ split fuel (n / d)
      | none => [n]

/-- The factors of a number from a divisor on, and what is left of it. -/
def small : Nat → Nat → Nat → List Nat × Nat
  | 0, _, n => ([], n)
  | fuel + 1, d, n =>
    if n < d * d then ([], n)
    else if n % d = 0 then
      let (ds, rest) := small fuel d (n / d)
      (d :: ds, rest)
    else small fuel (if d = 2 then 3 else d + 2) n

example : small 9 2 84 = ([2, 2, 3], 7) := by decide

/-- The prime factors of a number, ascending. -/
def of (n : Nat) : List Nat :=
  if n < 2 then []
  else
    let (ds, rest) := small 20000 2 n
    ds ++ (split (rest.log2 + 1) rest).mergeSort

/-- A number with its factors; those that repeat are powers if `powers` says so. -/
def text (powers : Bool) (n : Nat) : String :=
  let ds := of n
  let items := if powers then
      (ds.splitBy (· == ·)).map fun g =>
        toString (g.headD 0) ++ if g.length < 2 then "" else "^" ++ toString g.length
    else ds.map toString
  toString n ++ ":" ++ String.join (items.map (" " ++ ·))

end Factors

/-- `factor`. Numbers are written behind all messages. -/
def showFactors : Utility :=
  withOptions "factor" { plain := "h", long := [("exponents", 'h')] } fun o => do
    let input ← if o.operands.isEmpty then readInput "-" else pure (.ok "")
    let read := (input.toOption.getD "").toList.splitBy fun a b => isSpace a == isSpace b
    let words := if o.operands.isEmpty then
        (read.filter fun w => !w.any isSpace).map String.ofList
      else o.operands
    let mut done : List String := []
    for word in words do
      let cs := word.toList.dropWhile isSpace
      let digits := if cs.head? == some '+' then cs.drop 1 else cs
      match if digits.all Char.isDigit then integer? (String.ofList digits) else none with
      | some n => done := Factors.text (o.has 'h') n.toNat :: done
      | none => lament "factor" (cited word ++ " is not a valid positive integer")
    emit "factor" (joinLines done.reverse)

end PatchSearch.Shell
