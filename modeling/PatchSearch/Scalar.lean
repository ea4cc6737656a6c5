/-!
The numbers that scores, distances and objective values are computed with. A search runs on
floats; its arithmetic is written once, for any type with the operations it needs. `Arithmetic`
has the four operations, `Scalar` adds the orders, the infinite value and the passage from
floats.
-/
namespace PatchSearch

class Arithmetic (α : Type) extends Add α, Sub α, Mul α, Div α, Neg α where
  ofNat : Nat → α

class SquareRoot (α : Type) where
  sqrt : α → α

class Scalar (α : Type) extends Arithmetic α, LE α, LT α, BEq α where
  decidableLE : DecidableLE α
  decidableLT : DecidableLT α
  /-- A total order that agrees with `≤` on numbers and also places all other values. -/
  compareTotal : α → α → Ordering
  ofFloat : Float → α
  infinity : α
  isFinite : α → Bool
  /-- The largest whole number that is not above a value, 0 for values below zero. -/
  floor : α → Nat

attribute [reducible, instance] Scalar.decidableLE Scalar.decidableLT

/-- The place of a float in the total order: by sign, then by magnitude, with the two zeros
apart, infinities beyond all numbers and the value that is no number above everything. -/
def floatPlace (x : Float) : Int :=
  let bits := x.toBits.toNat
  if bits < 0x8000000000000000 then bits else 0x7fffffffffffffff - (bits : Int)

/-- The largest finite float. -/
def largestFloat : Float :=
  1.7976931348623157e308

instance : Arithmetic Float where
  ofNat := Float.ofNat

instance : SquareRoot Float where
  sqrt := Float.sqrt

instance : Scalar Float where
  decidableLE := inferInstance
  decidableLT := inferInstance
  compareTotal x y := compare (floatPlace x) (floatPlace y)
  ofFloat x := x
  infinity := 1.0 / 0.0
  isFinite := Float.isFinite
  floor x := x.toUInt64.toNat

namespace Scalar

variable {α : Type} [Scalar α]

/-- Stands in every objective of a candidate that could not be evaluated: it is worse than any
value of one that could. -/
def sentinel : α :=
  ofFloat largestFloat

/-- `a` comes no later than `b` in the total order. -/
def totalLE (a b : α) : Bool :=
  (compareTotal a b).isLE

/-- The smaller of two values; `best` also wins against a value that is no number. -/
def lesser (best x : α) : α :=
  if x < best then x else best

end Scalar

/-- The sum of a list from left to right. It starts from the negated zero, the neutral element of
floats. -/
def total {α : Type} [Arithmetic α] (xs : List α) : α :=
  xs.foldl (· + ·) (-Arithmetic.ofNat 0)

/-- A proportion of counts. -/
def proportion {α : Type} [Arithmetic α] (part whole : Nat) : α :=
  Arithmetic.ofNat part / Arithmetic.ofNat whole

end PatchSearch
