import PatchSearch.Scalar
import PatchSearch.Random

/-!
Behavior descriptors: one bit per test of the suite, set when the test passed, packed into words
of 64 bits, the first test in the lowest bit of the first word. The distance of two descriptors
is the share of the tests at which they differ.
-/
namespace PatchSearch

inductive NoveltyError where
  | lengthMismatch (expected found : Nat)
  | emptyDescriptor
  deriving DecidableEq, Repr

namespace NoveltyError

/-- The name of the error. -/
def kind : NoveltyError → String
  | lengthMismatch _ _ => "LengthMismatch"
  | emptyDescriptor => "EmptyDescriptor"

/-- The error in words. -/
def message : NoveltyError → String
  | lengthMismatch expected found =>
    "Descriptor length mismatch: expected " ++ toString expected ++ ", found " ++ toString found
  | emptyDescriptor => "Empty behavior descriptor"

end NoveltyError

structure Descriptor where
  words : List (BitVec 64)
  length : Nat
  deriving DecidableEq, Repr

namespace Descriptor

/-- The word with the given bits, the first one lowest. -/
def packWord (bits : List Bool) : BitVec 64 :=
  BitVec.ofNat 64 (bits.foldr (fun b n => 2 * n + b.toNat) 0)

/-- Packs bits into words; `fuel` bounds the number of words. -/
def packWords : Nat → List Bool → List (BitVec 64)
  | 0, _ => []
  | _ + 1, [] => []
  | fuel + 1, b :: bs => packWord ((b :: bs).take 64) :: packWords fuel ((b :: bs).drop 64)

/-- The descriptor of a list of outcomes, `true` for a test that passed. -/
def ofPassed (passed : List Bool) : Descriptor :=
  ⟨packWords passed.length passed, passed.length⟩

/-- The descriptor of a run of ordered tests; a test that is not among the failed ones counts as
passed, even if it was not run. -/
def ofOutcomes (ordered failed : List String) : Descriptor :=
  ofPassed (ordered.map fun t => !failed.contains t)

def isEmpty (d : Descriptor) : Bool :=
  d.length == 0

/-- Whether test `i` passed; no test beyond the last one did. -/
def passed (d : Descriptor) (i : Nat) : Bool :=
  decide (i < d.length) && (d.words[i / 64]?.getD 0).getLsbD (i % 64)

/-- The outcomes of all tests. -/
def toList (d : Descriptor) : List Bool :=
  (List.range d.length).map d.passed

/-- How many bits of a word are set. -/
def popCount (w : BitVec 64) : Nat :=
  (List.range 64).countP fun i => w.getLsbD i

/-- At how many tests two descriptors differ. -/
def hamming (a b : Descriptor) : Nat :=
  (a.words.zip b.words).foldr (fun (v, w) n => popCount (v ^^^ w) + n) 0

/-- The share of the tests at which two descriptors differ. -/
def distance {α : Type} [Arithmetic α] (a b : Descriptor) : Except NoveltyError α :=
  if a.length ≠ b.length then .error (.lengthMismatch a.length b.length)
  else if a.length = 0 then .error .emptyDescriptor
  else .ok (proportion (a.hamming b) a.length)

theorem length_ofPassed (passed : List Bool) : (ofPassed passed).length = passed.length := rfl

end Descriptor

/-!
A bounded archive of behavior descriptors. Below its capacity it grows; at capacity each new
descriptor takes the place of a random one. The novelty of a descriptor is its mean distance to
the nearest archived ones.
-/

structure Archive where
  entries : List Descriptor
  capacity : Nat
  deriving DecidableEq, Repr

namespace Archive

def empty (capacity : Nat) : Archive :=
  ⟨[], capacity⟩

def insert (a : Archive) (d : Descriptor) (g : Random) : Archive × Random :=
  if a.capacity = 0 then (a, g)
  else if a.entries.length < a.capacity then ({ a with entries := a.entries ++ [d] }, g)
  else
    let (slot, g) := g.below a.entries.length
    ({ a with entries := a.entries.set slot d }, g)

variable {α : Type} [Scalar α]

/-- The mean of the `k` smallest distances, with `k` moved between 1 and their number. -/
def nearestMean (k : Nat) (distances : List α) : α :=
  let k := max 1 (min k distances.length)
  total ((distances.mergeSort Scalar.totalLE).take k) / Arithmetic.ofNat k

/-- The novelty of a descriptor; against an empty archive it is 1. -/
def novelty (a : Archive) (d : Descriptor) (k : Nat) : Except NoveltyError α := do
  if d.isEmpty then throw .emptyDescriptor
  if a.entries.isEmpty then return Arithmetic.ofNat 1
  let distances ← a.entries.mapM d.distance
  return nearestMean k distances

theorem insert_below_capacity (a : Archive) (d : Descriptor) (g : Random)
    (h : a.entries.length < a.capacity) :
    a.insert d g = ({ a with entries := a.entries ++ [d] }, g) := by
  have : a.capacity ≠ 0 := by omega
  simp [insert, h, this]

/-- An insertion brings nothing else than the descriptor into an archive. -/
theorem mem_entries_insert {a : Archive} {d e : Descriptor} {g : Random}
    (h : e ∈ (a.insert d g).1.entries) : e ∈ a.entries ∨ e = d := by
  unfold insert at h
  split at h
  · exact Or.inl h
  · split at h
    · exact (List.mem_append.mp h).imp_right List.mem_singleton.mp
    · exact List.mem_or_eq_of_mem_set h

end Archive

end PatchSearch
