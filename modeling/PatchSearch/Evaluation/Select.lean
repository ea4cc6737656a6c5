import PatchSearch.Genome
import PatchSearch.Program.Patch

/-!
From a chromosome to the edits it stands for. Gene numbers are taken modulo what their point has
to offer. A gene that stands for no edit is switched off, an ingredient that the filter redirects
is written back, and with an edit limit the least suspicious edits beyond it are switched off, so
that afterwards the active genes are exactly the selected edits.
-/
namespace PatchSearch

/-- An edit chosen at a point of the model, by number and in readable form. -/
structure AppliedEdit where
  point : Nat
  operatorIndex : Nat
  operator : Operator
  ingredientIndex : Option Nat
  location : Location
  statement : String
  ingredient : Option String
  deriving DecidableEq, Repr, Inhabited

namespace AppliedEdit

def decode : Json.Decoder AppliedEdit := fun j => do
  let f ← Json.fields? [["point"], ["operator_index"], ["operator"], ["ingredient_index"],
    ["location"], ["statement"], ["ingredient"]] j
  let point ← f.required "point" Json.toWord
  let operatorIndex ← f.required "operator_index" Json.toWord
  let operator ← f.required "operator" Operator.decode
  let ingredientIndex ← f.optional "ingredient_index" Json.toWord
  let location ← f.required "location" Location.decode
  let statement ← f.required "statement" Json.toText
  let ingredient ← f.optional "ingredient" Json.toText
  return { point, operatorIndex, operator, ingredientIndex, location, statement, ingredient }

def patchEdit (e : AppliedEdit) : PatchEdit :=
  ⟨e.operatorIndex, e.location, e.ingredientIndex⟩

def recorded (e : AppliedEdit) : RecordedEdit :=
  ⟨e.operator, e.location, e.statement, e.ingredient⟩

end AppliedEdit

/-- The edit at a point with given numbers. -/
def appliedEdit (i : Nat) (p : Point) (operatorIndex : Nat) (operator : Operator)
    (ingredientIndex : Option Nat) : AppliedEdit where
  point := i
  operatorIndex := operatorIndex
  operator := operator
  ingredientIndex := ingredientIndex
  location := p.location
  statement := p.statement
  ingredient := (ingredientIndex.bind (p.ingredients[·]?)).map (·.source)

/-- Lets the filter rule on an edit. -/
def filterEdit (c : Chromosome) (i : Nat) (p : Point) (operatorIndex : Nat)
    (operator : Operator) (ingredientIndex : Option Nat) : Option AppliedEdit × Chromosome :=
  match redundancyVerdict operator p (ingredientIndex.bind (p.ingredients[·]?)) with
  | .accept => (some (appliedEdit i p operatorIndex operator ingredientIndex), c)
  | .redirect j => (some (appliedEdit i p operatorIndex operator (some j)), c.setIngredient i j)
  | .reject => (none, c.switchOff i)

/-- The edit that the active gene `i` stands for at its point. -/
def decodeGene (filter : Bool) (c : Chromosome) (i : Nat) (p : Point) :
    Except Fault (Option AppliedEdit × Chromosome) := do
  if p.operators.isEmpty then return (none, c.switchOff i)
  let number ← itemAt c.operatorIndex i
  let operatorIndex := number % p.operators.length
  let operator ← itemAt p.operators operatorIndex
  if operator.needsIngredient && p.ingredients.isEmpty then return (none, c.switchOff i)
  let ingredientIndex ←
    if operator.needsIngredient then do
      let k ← itemAt c.ingredientIndex i
      pure (some (k % p.ingredients.length))
    else pure none
  if filter then return filterEdit c i p operatorIndex operator ingredientIndex
  return (some (appliedEdit i p operatorIndex operator ingredientIndex), c)

/-- The edits of the active genes from gene `i` on, for the points from there on. -/
def decodeFrom (filter : Bool) :
    Nat → List Point → Chromosome → Except Fault (List AppliedEdit × Chromosome)
  | _, [], c => .ok ([], c)
  | i, p :: ps, c =>
    match c.active[i]? with
    | none => .ok ([], c)
    | some false => decodeFrom filter (i + 1) ps c
    | some true => do
      let (edit, c) ← decodeGene filter c i p
      let (edits, c) ← decodeFrom filter (i + 1) ps c
      return (edit.toList ++ edits, c)

/-- The score of the point that an edit is made at. -/
def editSuspicion (points : List Point) (e : AppliedEdit) : Float :=
  match points[e.point]? with
  | some p => p.suspiciousness
  | none => 0.0

/-- Whether an edit is kept rather than another: by descending score, then by point. -/
def keptBefore (points : List Point) (a b : AppliedEdit) : Bool :=
  match Scalar.compareTotal (editSuspicion points b) (editSuspicion points a) with
  | .lt => true
  | .eq => decide (a.point ≤ b.point)
  | .gt => false

/-- Keeps the `limit` most suspicious edits, in the order of their points, and switches the genes
of the others off. -/
def limitEdits (points : List Point) (limit : Nat) (edits : List AppliedEdit) (c : Chromosome) :
    List AppliedEdit × Chromosome :=
  if edits.length ≤ limit then (edits, c)
  else
    let sorted := edits.mergeSort (keptBefore points)
    let kept := (sorted.take limit).mergeSort fun a b => decide (a.point ≤ b.point)
    (kept, (sorted.drop limit).foldl (fun c e => c.switchOff e.point) c)

/-- The edits that a chromosome stands for, and the chromosome that says exactly that. -/
def selectEdits (points : List Point) (filter : Bool) (limit : Option Nat) (c : Chromosome) :
    Except Fault (List AppliedEdit × Chromosome) := do
  let (edits, c) ← decodeFrom filter 0 points c
  match limit with
  | none => return (edits, c)
  | some limit => return limitEdits points limit edits c

theorem limitEdits_of_length_le (points : List Point) (limit : Nat) (edits : List AppliedEdit)
    (c : Chromosome) (h : edits.length ≤ limit) : limitEdits points limit edits c = (edits, c) := by
  simp [limitEdits, h]

end PatchSearch
