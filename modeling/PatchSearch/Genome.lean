import PatchSearch.Config.Codec
import PatchSearch.Fault
import PatchSearch.Program.Model
import PatchSearch.Random
import PatchSearch.Scalar

/-!
Chromosomes: for each point of a model a switch, an operator number and an ingredient number,
in three lists. Two chromosomes differ at a point when one of them is switched off there and the
other is not, or when both are on with other numbers; their distance is the share of the points
at which they differ.
-/
namespace PatchSearch

structure Chromosome where
  active : List Bool
  operatorIndex : List Nat
  ingredientIndex : List Nat
  deriving DecidableEq, Repr, Inhabited

namespace Chromosome

/-- All switches off and all numbers zero. -/
def blank (n : Nat) : Chromosome :=
  ⟨List.replicate n false, List.replicate n 0, List.replicate n 0⟩

/-- The number of points, as told by the switches. -/
def length (c : Chromosome) : Nat :=
  c.active.length

def activeCount (c : Chromosome) : Nat :=
  c.active.count true

/-- The indices from `i` on of the switches that are on. -/
def activeFrom (i : Nat) : List Bool → List Nat
  | [] => []
  | a :: rest => if a then i :: activeFrom (i + 1) rest else activeFrom (i + 1) rest

/-- The points that are switched on, ascending. -/
def activePoints (c : Chromosome) : List Nat :=
  activeFrom 0 c.active

/-- Puts a gene in front. -/
def cons (active : Bool) (operator ingredient : Nat) (c : Chromosome) : Chromosome :=
  ⟨active :: c.active, operator :: c.operatorIndex, ingredient :: c.ingredientIndex⟩

def switchOff (c : Chromosome) (i : Nat) : Chromosome :=
  { c with active := c.active.set i false }

def setIngredient (c : Chromosome) (i ingredient : Nat) : Chromosome :=
  { c with ingredientIndex := c.ingredientIndex.set i ingredient }

/-- Whether two chromosomes differ at a point. -/
def differsAt (a b : Chromosome) (i : Nat) : Except Fault Bool := do
  match ← itemAt a.active i, ← itemAt b.active i with
  | false, false => return false
  | true, true =>
    let o ← itemAt a.operatorIndex i
    let o' ← itemAt b.operatorIndex i
    if o ≠ o' then return true
    let k ← itemAt a.ingredientIndex i
    let k' ← itemAt b.ingredientIndex i
    return decide (k ≠ k')
  | _, _ => return true

/-- How many of the given points two chromosomes differ at. -/
def differences (a b : Chromosome) : List Nat → Except Fault Nat
  | [] => .ok 0
  | i :: rest => do
    let d ← a.differsAt b i
    let n ← differences a b rest
    return if d then n + 1 else n

/-- The share of the common points at which two chromosomes differ. -/
def distance {α : Type} [Arithmetic α] (a b : Chromosome) : Except Fault α := do
  let n := min a.length b.length
  if n = 0 then return Arithmetic.ofNat 0
  let d ← a.differences b (List.range n)
  return proportion d n

theorem length_active_switchOff (c : Chromosome) (i : Nat) :
    (c.switchOff i).length = c.length := by
  simp [switchOff, length]

theorem length_setIngredient (c : Chromosome) (i k : Nat) :
    (c.setIngredient i k).length = c.length := rfl

end Chromosome

/-- How far the numbers of a gene reach, and how suspicious its point is. -/
structure GeneBounds where
  operators : Nat
  ingredients : Nat
  suspiciousness : Float

/-- The bounds of a point. -/
def Point.bounds (p : Point) : GeneBounds :=
  ⟨p.operators.length, p.ingredients.length, p.suspiciousness⟩

/-- The bounds of all points of a model. -/
def ProgramModel.bounds (m : ProgramModel) : List GeneBounds :=
  m.points.map Point.bounds

end PatchSearch

/-!
Random chromosomes, crossover and mutation. A random gene is switched on with a probability that
follows the suspiciousness of its point, or with one half. Crossover exchanges the tails of two
chromosomes behind one cut, the same in all three lists. Mutation visits the genes in order and
changes each of their parts with the given rate.
-/
namespace PatchSearch

/-- A number moved into the unit interval; what is no number stays as it is. -/
def clampUnit (x : Float) : Float :=
  if x < 0.0 then 0.0 else if 1.0 < x then 1.0 else x

/-- The probability that a gene starts switched on. -/
def Initialization.activation (strategy : Initialization) (mu : Float) (b : GeneBounds) : Float :=
  match strategy with
  | .prior => clampUnit (b.suspiciousness * mu)
  | .random => 0.5

namespace Chromosome

/-- A random chromosome within bounds. -/
def random (strategy : Initialization) (mu : Float) :
    List GeneBounds → Random → Except Fault (Chromosome × Random)
  | [], g => .ok (blank 0, g)
  | b :: bs, g => do
    let (active, g) ← g.chance (strategy.activation mu b)
    let (operator, g) := g.index b.operators
    let (ingredient, g) := g.index b.ingredients
    let (rest, g) ← random strategy mu bs g
    return (rest.cons active operator ingredient, g)

/-- The head of one list and the tail of another behind a cut. -/
def splice {β : Type} (cut : Nat) (a b : List β) : Except Fault (List β) :=
  if cut ≤ a.length ∧ cut ≤ b.length then .ok (a.take cut ++ b.drop cut)
  else .error .indexOutOfRange

theorem splice_of_le {β : Type} (cut : Nat) (a b : List β) (ha : cut ≤ a.length)
    (hb : cut ≤ b.length) : splice cut a b = .ok (a.take cut ++ b.drop cut) := by
  simp [splice, ha, hb]

/-- The child with one parent before the cut and the other from it on. -/
def child (cut : Nat) (a b : Chromosome) : Except Fault Chromosome := do
  let active ← splice cut a.active b.active
  let operatorIndex ← splice cut a.operatorIndex b.operatorIndex
  let ingredientIndex ← splice cut a.ingredientIndex b.ingredientIndex
  return ⟨active, operatorIndex, ingredientIndex⟩

/-- Exchanges the tails of two chromosomes; with fewer than two common points they stay. -/
def crossover (a b : Chromosome) (g : Random) :
    Except Fault ((Chromosome × Chromosome) × Random) := do
  let n := min a.length b.length
  if n < 2 then return ((a, b), g)
  let (offset, g) := g.below (n - 1)
  let first ← child (offset + 1) a b
  let second ← child (offset + 1) b a
  return ((first, second), g)

/-- Draws a number again with the given rate, where there is more than one to draw. -/
def mutateIndex (rate : Float) (bound : Nat) (old : Option Nat) (g : Random) :
    Except Fault (Option Nat × Random) := do
  if bound ≤ 1 then return (old, g)
  let (hit, g) ← g.chance rate
  if !hit then return (old, g)
  let (new, g) := g.index bound
  match old with
  | some _ => return (some new, g)
  | none => throw .indexOutOfRange

/-- Changes the genes given by their bounds and parts. -/
def mutateGenes (rate : Float) :
    List GeneBounds → List Bool → List Nat → List Nat → Random →
      Except Fault (Chromosome × Random)
  | _, [], os, ks, g => .ok (⟨[], os, ks⟩, g)
  | [], _ :: _, _, _, _ => .error .indexOutOfRange
  | b :: bs, a :: as, os, ks, g => do
    let (flip, g) ← g.chance rate
    let (o, g) ← mutateIndex rate b.operators os.head? g
    let (k, g) ← mutateIndex rate b.ingredients ks.head? g
    let (rest, g) ← mutateGenes rate bs as os.tail ks.tail g
    return (⟨(a ^^ flip) :: rest.active, o.toList ++ rest.operatorIndex,
      k.toList ++ rest.ingredientIndex⟩, g)

/-- Changes each part of each gene with a rate, which is moved into the unit interval. -/
def mutate (c : Chromosome) (bounds : List GeneBounds) (rate : Float) (g : Random) :
    Except Fault (Chromosome × Random) :=
  mutateGenes (clampUnit rate) bounds c.active c.operatorIndex c.ingredientIndex g

end Chromosome

end PatchSearch
