import PatchSearch.Fault
import PatchSearch.Scalar

/-!
Objective vectors: up to three values, all to be minimized. A vector has three slots, of which
the first `size` are in use; the others take part in equality only. A vector dominates another
when it is nowhere worse and somewhere better.
-/
namespace PatchSearch

structure Objectives (α : Type) where
  slots : Vector α 3
  size : Nat
  size_le : size ≤ 3

namespace Objectives

variable {α : Type} [Scalar α]

/-- The vector of the first three of the given values; unused slots hold zero. -/
def ofList (values : List α) : Objectives α :=
  let zero : α := Arithmetic.ofNat 0
  ⟨#v[values[0]?.getD zero, values[1]?.getD zero, values[2]?.getD zero],
    min values.length 3, Nat.min_le_right _ _⟩

/-- The vector of a candidate that could not be evaluated. -/
def sentinel (size : Nat) : Objectives α :=
  ⟨#v[Scalar.sentinel, Scalar.sentinel, Scalar.sentinel], min size 3, Nat.min_le_right _ _⟩

omit [Scalar α] in
/-- The values in use. -/
def toList (v : Objectives α) : List α :=
  v.slots.toList.take v.size

def value (v : Objectives α) (i : Nat) : Except Fault α :=
  itemAt v.toList i

/-- Whether every value in use is the one of candidates that could not be evaluated. -/
def isSentinel (v : Objectives α) : Bool :=
  v.toList.all (· == Scalar.sentinel)

/-- Nowhere worse and somewhere better. -/
def dominates (v w : Objectives α) : Bool :=
  let pairs := v.toList.zip w.toList
  pairs.all (fun (a, b) => decide (a ≤ b)) && pairs.any (fun (a, b) => decide (a < b))

/-- Equality of size and of all slots, used or not. -/
def same (v w : Objectives α) : Bool :=
  v.size == w.size && (v.slots.toList.zip w.slots.toList).all fun (a, b) => a == b

omit [Scalar α] in
theorem length_toList (v : Objectives α) : v.toList.length = v.size := by
  simp [toList, v.size_le]

end Objectives

end PatchSearch

/-!
Sorting by domination. The first front holds the vectors that no other dominates; taking a front
away uncovers the next one. Every vector carries the number of its dominators that have not been
taken away yet, and joins the next front when that number falls to zero.
-/
namespace PatchSearch

variable {α : Type} [Scalar α]

/-- The indices of the vectors that a vector dominates, ascending. -/
def dominatedBy (vs : List (Objectives α)) (v : Objectives α) : List Nat :=
  (vs.zipIdx.filter fun (w, _) => v.dominates w).map Prod.snd

/-- How many vectors dominate a vector. -/
def dominatorCount (vs : List (Objectives α)) (v : Objectives α) : Nat :=
  vs.countP fun w => w.dominates v

/-- Takes one dominator off the count of an index; the index joins `next` when that was its
last. A count that is zero already is a fault. -/
def release (state : Array Nat × List Nat) (q : Nat) : Except Fault (Array Nat × List Nat) :=
  match state.1[q]? with
  | none => .error .indexOutOfRange
  | some 0 => .error .arithmeticOverflow
  | some (n + 1) =>
    .ok (state.1.setIfInBounds q n, if n = 0 then q :: state.2 else state.2)

/-- Takes a front away: its members release the indices they dominate, and those that have no
dominator left form the next front. -/
def nextFront (dominated : Array (List Nat)) (counts : Array Nat) (front : List Nat) :
    Except Fault (Array Nat × List Nat) := do
  let released := front.flatMap fun p => dominated[p]?.getD []
  let (counts, next) ← released.foldlM release (counts, [])
  return (counts, next.reverse)

/-- The fronts from a given one on; `fuel` bounds their number. -/
def frontsFrom (dominated : Array (List Nat)) :
    Nat → Array Nat → List Nat → Except Fault (List (List Nat))
  | 0, _, _ => .ok []
  | fuel + 1, counts, front =>
    if front.isEmpty then .ok []
    else do
      let (counts, next) ← nextFront dominated counts front
      let rest ← frontsFrom dominated fuel counts next
      return front :: rest

/-- The fronts of a list of vectors, as lists of indices. There are at most as many fronts as
vectors. -/
def fronts (vs : List (Objectives α)) : Except Fault (List (List Nat)) :=
  let counts := vs.map (dominatorCount vs)
  let first := (List.range vs.length).filter fun i => counts[i]? == some 0
  frontsFrom (vs.map (dominatedBy vs)).toArray vs.length counts.toArray first

/-!
Crowding distances within a front. Per objective the members are sorted by value; the first and
the last are infinitely far out, and each other member gains the gap between its two neighbours
relative to the whole range. A range that is zero or not finite gives no gains.
-/

/-- The gain of every place between the first and the last of an ascending list of values. -/
def innerGains (range : α) : List α → List α
  | a :: b :: c :: rest => (c - a) / range :: innerGains range (b :: c :: rest)
  | _ => []

/-- The gains along an ascending list of at least two values. -/
def gainsAlong (values : List α) : List α :=
  match values.head?, values.getLast? with
  | some low, some high =>
    let range := high - low
    let flat := decide (range ≤ Arithmetic.ofNat 0) || !Scalar.isFinite range
    let inner :=
      if flat then List.replicate (values.length - 2) (Arithmetic.ofNat 0)
      else innerGains range values
    Scalar.infinity :: inner ++ [Scalar.infinity]
  | _, _ => []

/-- The members' places in ascending order of their values. -/
def valueOrder (values : List α) : List (α × Nat) :=
  values.zipIdx.mergeSort fun a b => Scalar.totalLE a.1 b.1

/-- Adds the gains of one objective to the distances of the members. -/
def addGains (distances : Array α) (values : List α) : Array α :=
  let order := valueOrder values
  let gains := gainsAlong (order.map Prod.fst)
  (order.zip gains).foldl (fun ds (place, gain) => ds.modify place.2 (· + gain)) distances

/-- The values of the members in one objective. -/
def objectiveColumn (members : List (Objectives α)) (k : Nat) : Except Fault (List α) :=
  members.mapM fun v => v.value k

/-- The crowding distances of the members of a front, given as indices of vectors. In a front of
up to two members all are infinite. -/
def crowding (front : List Nat) (vs : List (Objectives α)) : Except Fault (List α) := do
  if front.length ≤ 2 then return front.map fun _ => Scalar.infinity
  let first ← itemAt vs (front.headD 0)
  if first.size = 0 then return front.map fun _ => Arithmetic.ofNat 0
  let members ← front.mapM (itemAt vs)
  let columns ← (List.range first.size).mapM (objectiveColumn members)
  let start := (front.map fun _ => (Arithmetic.ofNat 0 : α)).toArray
  return (columns.foldl addGains start).toList

end PatchSearch
