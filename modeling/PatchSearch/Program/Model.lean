import PatchSearch.Program.Point
import PatchSearch.Program.Suspicion
import PatchSearch.Random
import PatchSearch.Text.Basic

/-!
The program model: the points of a catalog that the search edits. A catalog is narrowed to the
suspicious points, trimmed to the most suspicious ones if there are more than fit, and the
operators of each point are normalized. The filter at the end recognises edits that would put a
statement in its own place.
-/
namespace PatchSearch

inductive ModelError where
  | noFailingTests
  | overlappingTests (count : Nat)
  | noModificationPoints
  deriving DecidableEq, Repr

namespace ModelError

/-- The name of the error. -/
def kind : ModelError → String
  | noFailingTests => "NoFailingTests"
  | overlappingTests _ => "OverlappingTests"
  | noModificationPoints => "NoModificationPoints"

/-- The error in words. -/
def message : ModelError → String
  | noFailingTests => "No failing tests: there is no fault signal to repair against"
  | overlappingTests n => "Positive and negative test sets overlap in " ++ toString n ++ " tests"
  | noModificationPoints => "No editable locations found"

end ModelError

/-- The points of a catalog that have a score, with that score. -/
def suspiciousPoints (catalog : List Point) (scores : ScoreMap) : List Point :=
  catalog.filterMap fun p => (scores.score? p.location).map p.withSuspiciousness

/-- Reads a stored catalog. -/
def readCatalog {σ : Type} (files : Storage σ) (path : String) (world : σ) :
    Except FileError (List Point) :=
  files.readDocument (Json.toArray Point.decode) path world

/-- Whether a point is at least as suspicious as another. -/
def Point.suspicionGE (a b : Point) : Bool :=
  Scalar.totalLE b.suspiciousness a.suspiciousness

/-- Keeps the `budget` most suspicious points in a random order; among equal scores earlier
points are kept first. Points that all fit are left alone. -/
def trim (points : List Point) (budget : Nat) (g : Random) : List Point × Random :=
  if points.length ≤ budget then (points, g)
  else g.shuffle ((points.mergeSort Point.suspicionGE).take budget)

theorem trim_of_length_le (points : List Point) (budget : Nat) (g : Random)
    (h : points.length ≤ budget) : trim points budget g = (points, g) := by
  simp [trim, h]

structure ProgramModel where
  points : List Point

namespace ProgramModel

/-- The model of a catalog with at most `maxPoints` points. -/
def ofCatalog (catalog : List Point) (maxPoints : Nat) (g : Random) :
    Except ModelError (ProgramModel × Random) :=
  if catalog.isEmpty then .error .noModificationPoints
  else
    let (points, g) := trim catalog maxPoints g
    .ok (⟨points.map Point.normalize⟩, g)

end ProgramModel

/-- The verdict of a filter on an edit: it stands, it takes another ingredient of its point, or
it is dropped. -/
inductive Verdict where
  | accept
  | redirect (ingredient : Nat)
  | reject
  deriving DecidableEq, Repr

/-- Whether two statements are equal up to the blanks around them. -/
def sameStatement (a b : String) : Bool :=
  Text.trim a.toList == Text.trim b.toList

/-- Redirects an ingredient that repeats the statement to the first one that does not, and
rejects the edit if there is none. -/
def redundancyVerdict (operator : Operator) (p : Point) (ingredient : Option Ingredient) :
    Verdict :=
  if !operator.needsIngredient then .accept
  else
    match ingredient with
    | none => .reject
    | some i =>
      if !sameStatement i.source p.statement then .accept
      else
        match p.ingredients.findIdx? fun i => !sameStatement i.source p.statement with
        | some j => .redirect j
        | none => .reject

end PatchSearch
