/-!
Faults: requests that have no answer at all, such as an index outside a list, a probability
outside the unit interval, a loop that comes to no end or a call that breaks down. A fault ends
the computation it occurs in, and what was changed up to then is lost.
-/
namespace PatchSearch

inductive Fault where
  | indexOutOfRange
  | invalidProbability
  | arithmeticOverflow
  | endless
  | breakdown
  deriving DecidableEq, Repr

/-- The member at an index that has to be in range. -/
def itemAt {α : Type} (xs : List α) (i : Nat) : Except Fault α :=
  match xs[i]? with
  | some a => .ok a
  | none => .error .indexOutOfRange

theorem itemAt_of_lt {α : Type} (xs : List α) (i : Nat) (h : i < xs.length) :
    itemAt xs i = .ok xs[i] := by
  simp [itemAt, h]

/-- A whole number that has to lie below a bound. -/
def fitting (bound n : Nat) : Except Fault Nat :=
  if n < bound then .ok n else .error .arithmeticOverflow

end PatchSearch

/-!
Sizes of machine words. Numbers are kept unbounded; where a value has to fit into a word, or wraps
around in one, its size is compared with these.
-/
namespace PatchSearch

/-- How many whole numbers of 64 bits there are. -/
def wordCount : Nat := 0x10000000000000000

/-- How many whole numbers of 32 bits there are. -/
def halfWordCount : Nat := 0x100000000

theorem wordCount_eq_halfWordCount_mul : wordCount = halfWordCount * halfWordCount := rfl

end PatchSearch
