/-!
The shortest decimal that reads back as a given float. A finite float is a mantissa times a
power of two; the reals that round to it form an interval around it, which holds its ends when
the mantissa is even. `shortest` tries one significant digit, two, and so on: the first decimal
grid with a point in the interval gives the digits, and of two such points the nearer.
-/
namespace PatchSearch.Decimal

/-- What to do when two decimals are equally near. -/
inductive Tie where
  | toEven
  | up
  deriving DecidableEq, Repr

/-- The magnitude `mantissa * 2 ^ exponent` of a finite float. The gap to the float below is
half the gap to the float above when `narrowBelow` holds. -/
structure Magnitude where
  mantissa : Nat
  exponent : Int
  narrowBelow : Bool
  deriving DecidableEq, Repr

/-- The magnitude of a finite float, read off its bits. -/
def Magnitude.ofFloat (x : Float) : Magnitude :=
  let bits := x.toBits.toNat
  let field := (bits >>> 52) % 0x800
  let fraction := bits % 0x10000000000000
  if field = 0 then ⟨fraction, -1074, false⟩
  else ⟨fraction + 0x10000000000000, Int.ofNat field - 1075, fraction == 0 && 1 < field⟩

/-- The decimal `digits * 10 ^ exponent`. -/
structure Digits where
  digits : Nat
  exponent : Int
  deriving DecidableEq, Repr

/-- How many decimal digits a number has; zero has one. -/
def digitCount (n : Nat) : Nat :=
  (Nat.toDigits 10 n).length

/-- Ten to a power. -/
def tenTo (n : Nat) : Nat :=
  Nat.pow 10 n

/-- The place of the leading digit: a positive magnitude lies in `[10 ^ (p - 1), 10 ^ p)`. -/
def Magnitude.point (v : Magnitude) : Int :=
  let scaled := (v.mantissa * tenTo 340) <<< v.exponent.toNat >>> (-v.exponent).toNat
  (digitCount scaled : Int) - 340

/-- Numerator and denominator that turn quarters of `2 ^ q` into steps of `10 ^ g`. -/
def gridScale (q g : Int) : Nat × Nat :=
  (tenTo (-g).toNat <<< (q - 2).toNat, tenTo g.toNat <<< (2 - q).toNat)

/-- The point of the grid of step `10 ^ g` that reads back as `v`, if there is one. -/
def Magnitude.onGrid? (tie : Tie) (v : Magnitude) (g : Int) : Option Nat :=
  let (num, den) := gridScale v.exponent g
  let middle := 4 * v.mantissa * num
  let low := (4 * v.mantissa - if v.narrowBelow then 1 else 2) * num
  let high := (4 * v.mantissa + 2) * num
  let closed := v.mantissa % 2 == 0
  let inside (n : Nat) : Bool :=
    (low < n * den && n * den < high) || (closed && (low == n * den || n * den == high))
  let below := middle / den
  let above := below + 1
  match inside below, inside above with
  | false, false => none
  | true, false => some below
  | false, true => some above
  | true, true =>
    let down := middle - below * den
    let up := above * den - middle
    if down < up then some below
    else if up < down then some above
    else if tie = .toEven && below % 2 == 0 then some below
    else some above

/-- Tries `fuel` grids, from `count` significant digits on. -/
def Magnitude.search (tie : Tie) (v : Magnitude) (point : Int) : Nat → Nat → Digits
  | 0, count => ⟨v.mantissa, point - count⟩
  | fuel + 1, count =>
    match v.onGrid? tie (point - count) with
    | some n => ⟨n, point - count⟩
    | none => v.search tie point fuel (count + 1)

/-- Moves up to `fuel` zeros from the end of the digits into the exponent. -/
def Digits.strip : Nat → Digits → Digits
  | 0, d => d
  | fuel + 1, d =>
    if d.digits ≠ 0 && d.digits % 10 == 0 then Digits.strip fuel ⟨d.digits / 10, d.exponent + 1⟩
    else d

/-- The shortest digits that read back as `v`, the nearest of those. -/
def Magnitude.shortest (tie : Tie) (v : Magnitude) : Digits :=
  if v.mantissa = 0 then ⟨0, 0⟩ else (v.search tie v.point 17 1).strip 20

/-!
Floats as text. A `Notation` says where positional writing ends, whether a whole number keeps a
fraction part and how ties between shortest decimals go. `plain` is the notation of messages and
`numeral` the one of stored documents. `fixed` writes a given number of places, an exact half
going to the even neighbour.
-/

/-- The decisions of a float format. The point position of a decimal is the exponent of ten just
above its leading digit; outside the positional range an exponent is written. -/
structure Notation where
  positionalAbove : Option Int
  positionalTo : Option Int
  keepFraction : Bool
  tie : Tie

/-- Messages write all digits positionally and drop an empty fraction. -/
def plain : Notation :=
  ⟨none, none, false, .up⟩

/-- Documents write `1.0`, go positionally for point positions above -5 up to 16, and write an
exponent elsewhere. -/
def numeral : Notation :=
  ⟨some (-5), some 16, true, .toEven⟩

def digitText (n : Nat) : String :=
  String.ofList (Nat.toDigits 10 n)

def zeros (n : Nat) : String :=
  String.ofList (List.replicate n '0')

/-- A decimal without an exponent. -/
def Digits.positional (keepFraction : Bool) (d : Digits) : String :=
  let text := digitText d.digits
  let point := (text.length : Int) + d.exponent
  if 0 ≤ d.exponent then
    text ++ zeros d.exponent.toNat ++ (if keepFraction then ".0" else "")
  else if 0 < point then
    String.ofList (text.toList.take point.toNat) ++ "." ++
      String.ofList (text.toList.drop point.toNat)
  else "0." ++ zeros (-point).toNat ++ text

/-- A decimal with one digit before the point, and an exponent. -/
def Digits.scientific (d : Digits) : String :=
  let text := digitText d.digits
  let exponent := (text.length : Int) + d.exponent - 1
  let mantissa := match text.toList with
    | c :: c' :: cs => String.ofList (c :: '.' :: c' :: cs)
    | cs => String.ofList cs
  mantissa ++ "e" ++ toString exponent

def isNegative (x : Float) : Bool :=
  x.toBits.toNat >>> 63 == 1

/-- The text of a float in a notation. -/
def Notation.render (f : Notation) (x : Float) : String :=
  if x.isNaN then "NaN"
  else
    let sign := if isNegative x then "-" else ""
    if x.isFinite then
      let d := (Magnitude.ofFloat x).shortest f.tie
      let point := (digitCount d.digits : Int) + d.exponent
      let low := f.positionalAbove.all (· < point)
      let high := f.positionalTo.all (point ≤ ·)
      sign ++ if d.digits = 0 || (low && high) then d.positional f.keepFraction else d.scientific
    else sign ++ "inf"

/-- The quotient rounded to the nearest whole number, a half to the even one. -/
def roundDiv (num den : Nat) : Nat :=
  let below := num / den
  let rest := num % den
  if 2 * rest < den then below
  else if den < 2 * rest then below + 1
  else below + below % 2

/-- The text of a float with exactly `places` digits after the point. -/
def fixed (places : Nat) (x : Float) : String :=
  if x.isNaN then "NaN"
  else
    let sign := if isNegative x then "-" else ""
    if x.isFinite then
      let v := Magnitude.ofFloat x
      let units := roundDiv ((v.mantissa * tenTo places) <<< v.exponent.toNat)
        (1 <<< (-v.exponent).toNat)
      let whole := digitText (units / tenTo places)
      let part := digitText (units % tenTo places)
      sign ++ whole ++ if places = 0 then "" else "." ++ zeros (places - part.length) ++ part
    else sign ++ "inf"

end PatchSearch.Decimal
