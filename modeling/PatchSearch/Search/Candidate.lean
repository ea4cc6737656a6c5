import PatchSearch.Evaluation.Basic
import PatchSearch.Genome
import PatchSearch.Pareto.Fronts
import PatchSearch.Search.Report

/-!
Candidates and their selection. A pool of candidates is sorted into fronts; each candidate gets
the number of its front as rank and its crowding distance there, and the pool is ordered by rank,
then by descending crowding, its best part surviving. A tournament of two is decided the same way
and by a coin when neither is better.
-/
namespace PatchSearch

structure Candidate (α : Type) where
  id : Nat
  chromosome : Chromosome
  objectives : Objectives α
  status : EvaluationStatus
  /-- The front, once the candidate has been sorted. -/
  rank : Option Nat
  crowding : α
  generation : Nat
  parents : List Nat

/-- Ranks in order; a candidate that has not been sorted comes last. -/
def rankBefore : Option Nat → Option Nat → Bool
  | some r, some s => decide (r < s)
  | some _, none => true
  | none, _ => false

namespace Candidate

variable {α : Type} [Scalar α]

/-- The candidate as it is reported. -/
def snapshot (c : Candidate α) : CandidateSnapshot α where
  id := c.id
  generation := c.generation
  objectives := c.objectives.toList
  rank := c.rank
  activePoints := c.chromosome.activePoints
  parents := c.parents

/-- Whether a candidate comes no later than another in the order of survival. -/
def survivesBefore (a b : Candidate α) : Bool :=
  if a.rank = b.rank then Scalar.totalLE b.crowding a.crowding
  else rankBefore a.rank b.rank

end Candidate

section Pools

variable {α : Type} [Scalar α]

/-- Gives the members of a front their rank and their crowding distances. -/
def rankFront (pool : Array (Candidate α)) (rank : Nat) (front : List Nat)
    (distances : List α) : Array (Candidate α) :=
  (front.zip distances).foldl
    (fun pool (i, d) => pool.modify i fun c => { c with rank := some rank, crowding := d }) pool

/-- Gives the members of the fronts from a rank on their ranks and crowding distances. -/
def rankFronts (vs : List (Objectives α)) :
    Nat → List (List Nat) → Array (Candidate α) → Except Fault (Array (Candidate α))
  | _, [], pool => .ok pool
  | rank, front :: rest, pool => do
    let distances ← crowding front vs
    rankFronts vs (rank + 1) rest (rankFront pool rank front distances)

/-- The pool with ranks and crowding distances. -/
def ranked (pool : List (Candidate α)) : Except Fault (List (Candidate α)) := do
  let vs := pool.map (·.objectives)
  let fs ← fronts vs
  let pool ← rankFronts vs 0 fs pool.toArray
  return pool.toList

/-- The `size` best candidates of a pool, in the order of survival. -/
def survivors (size : Nat) (pool : List (Candidate α)) : Except Fault (List (Candidate α)) := do
  let pool ← ranked pool
  return (pool.mergeSort Candidate.survivesBefore).take size

omit [Scalar α] in
/-- The candidates of the first front. -/
def firstFront (population : List (Candidate α)) : List (Candidate α) :=
  population.filter fun c => c.rank == some 0

/-- The index of the better of two random members of a population. -/
def tournament (population : List (Candidate α)) (g : Random) : Except Fault (Nat × Random) := do
  let (i, g) := g.index population.length
  let (j, g) := g.index population.length
  let a ← itemAt population i
  let b ← itemAt population j
  if a.rank ≠ b.rank then return (if rankBefore a.rank b.rank then i else j, g)
  if b.crowding < a.crowding then return (i, g)
  if a.crowding < b.crowding then return (j, g)
  let (coin, g) ← g.chance 0.5
  return (if coin then i else j, g)

/-- Adds the distances of a chromosome to others to a sum. -/
def addDistances (c : Chromosome) : List Chromosome → α → Except Fault α
  | [], sum => .ok sum
  | d :: ds, sum => do
    let x ← c.distance d
    addDistances c ds (sum + x)

/-- Adds the distances of all pairs to a sum. -/
def addPairDistances : List Chromosome → α → Except Fault α
  | [], sum => .ok sum
  | c :: cs, sum => do
    let sum ← addDistances c cs sum
    addPairDistances cs sum

/-- The mean distance of all pairs of a population; their number has to fit into 31 bits. -/
def diversity (population : List (Candidate α)) : Except Fault α := do
  let n := population.length
  if n < 2 then return Arithmetic.ofNat 0
  let sum ← addPairDistances (population.map (·.chromosome)) (Arithmetic.ofNat 0)
  let pairs ← fitting (halfWordCount / 2) (n * (n - 1) / 2)
  return sum / Arithmetic.ofNat pairs

/-- The mean number of active genes. -/
def meanEdits (population : List (Candidate α)) : α :=
  total (population.map fun c => (Arithmetic.ofNat c.chromosome.activeCount : α)) /
    Arithmetic.ofNat (max population.length 1)

end Pools

end PatchSearch
