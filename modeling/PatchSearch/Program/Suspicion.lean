import PatchSearch.Config.Codec
import PatchSearch.Files.Storage
import PatchSearch.Json.Record
import PatchSearch.Program.Point
import PatchSearch.Scalar
import PatchSearch.SortedList

/-!
A test suite splits the tests of a program into positive ones, which pass before the repair, and
negative ones, which fail. Both are ascending lists of names.
-/
namespace PatchSearch

structure TestSuite where
  positive : List String
  negative : List String
  deriving DecidableEq, Repr, Inhabited

namespace TestSuite

/-- Tests on both sides. -/
def overlap (s : TestSuite) : List String :=
  s.positive.filter s.negative.contains

/-- All tests in ascending order, each once. -/
def ordered (s : TestSuite) : List String :=
  textSet (s.positive ++ s.negative)

def total (s : TestSuite) : Nat :=
  s.positive.length + s.negative.length

def decode : Json.Decoder TestSuite := fun j => do
  let f ← Json.fields? [["positive"], ["negative"]] j
  let positive ← f.required "positive" (Json.toArray Json.toText)
  let negative ← f.required "negative" (Json.toArray Json.toText)
  return ⟨textSet positive, textSet negative⟩

def encode (s : TestSuite) : Json :=
  .object [("positive", Json.ofList .text s.positive), ("negative", Json.ofList .text s.negative)]

theorem mem_ordered (s : TestSuite) (t : String) :
    t ∈ s.ordered ↔ t ∈ s.positive ∨ t ∈ s.negative := by
  simp [ordered, mem_textSet]

theorem length_ordered_le (s : TestSuite) : s.ordered.length ≤ s.total := by
  have hle := length_textSet_le (s.positive ++ s.negative)
  rwa [List.length_append] at hle

end TestSuite

/-!
Coverage reports: for each test of the unmodified program its outcome and the locations that it
executed. A test may be reported in several entries.
-/

structure TestCoverage where
  test : String
  passed : Bool
  covered : List Location
  deriving DecidableEq, Repr, Inhabited

structure CoverageReport where
  tests : List TestCoverage
  deriving DecidableEq, Repr, Inhabited

namespace TestCoverage

def decode : Json.Decoder TestCoverage := fun j => do
  let f ← Json.fields? [["test"], ["passed"], ["covered"]] j
  let test ← f.required "test" Json.toText
  let passed ← f.required "passed" Json.toBool
  let covered ← f.withDefault "covered" (Json.toArray Location.decode) []
  return ⟨test, passed, covered⟩

def encode (t : TestCoverage) : Json :=
  .object [("test", .text t.test), ("passed", .bool t.passed),
    ("covered", Json.ofList Location.encode t.covered)]

end TestCoverage

namespace CoverageReport

/-- The report without entries. -/
def empty : CoverageReport :=
  ⟨[]⟩

def failing (r : CoverageReport) : List TestCoverage :=
  r.tests.filter fun t => !t.passed

def passing (r : CoverageReport) : List TestCoverage :=
  r.tests.filter (·.passed)

def decode : Json.Decoder CoverageReport := fun j => do
  let f ← Json.fields? [["tests"]] j
  let tests ← f.required "tests" (Json.toArray TestCoverage.decode)
  return ⟨tests⟩

def encode (r : CoverageReport) : Json :=
  .object [("tests", Json.ofList TestCoverage.encode r.tests)]

end CoverageReport

end PatchSearch

/-!
Fault localization from coverage. A test counts as negative as soon as one of its entries failed.
The spectrum of a location counts the negative and the positive tests with an entry that covers
it, each test once, and a formula turns the spectrum into a score. Locations of score zero are
not suspicious at all.
-/
namespace PatchSearch

/-- How many failing and how many passing tests execute a location. -/
structure Spectrum where
  failing : Nat
  passing : Nat
  deriving DecidableEq, Repr, Inhabited

section Formulas

variable {α : Type} [Arithmetic α]

/-- `ef / sqrt ((ef + ep) * (ef + nf))` for `ef` failing and `ep` passing tests that execute a
location and `nf` failing tests that do not. -/
def ochiai [SquareRoot α] (ef ep nf : Nat) : α :=
  if ef = 0 then Arithmetic.ofNat 0
  else
    let e : α := Arithmetic.ofNat ef
    e / SquareRoot.sqrt ((e + Arithmetic.ofNat ep) * (e + Arithmetic.ofNat nf))

/-- The share of the failing tests that execute a location, against that share and the share of
the passing tests together. -/
def tarantula (ef ep totalFailed totalPassed : Nat) : α :=
  if ef = 0 ∨ totalFailed = 0 then Arithmetic.ofNat 0
  else
    let failRatio : α := proportion ef totalFailed
    let passRatio : α := if 0 < totalPassed then proportion ep totalPassed else Arithmetic.ofNat 0
    failRatio / (failRatio + passRatio)

/-- The score of a spectrum within a suite of so many failing and passing tests. -/
def Formula.score [SquareRoot α] (f : Formula) (totalFailed totalPassed : Nat) (s : Spectrum) :
    α :=
  match f with
  | .ochiai => PatchSearch.ochiai s.failing s.passing (totalFailed - s.failing)
  | .tarantula => PatchSearch.tarantula s.failing s.passing totalFailed totalPassed

end Formulas

/-- Scores by location, ascending by location. -/
abbrev ScoreMap := List (Location × Float)

namespace ScoreMap

/-- The map of a list of entries, of which later ones win. -/
def ofEntries (entries : List (Location × Float)) : ScoreMap :=
  (Location.setOf (entries.map Prod.fst)).filterMap fun l =>
    (entries.reverse.lookup l).map (l, ·)

/-- The score of a location, if it has one. -/
def score? (m : ScoreMap) (l : Location) : Option Float :=
  m.lookup l

/-- Whether an entry comes no later than another by descending score, then by location. -/
def rankLE (a b : Location × Float) : Bool :=
  match Scalar.compareTotal b.2 a.2 with
  | .lt => true
  | .eq => a.1.le b.1
  | .gt => false

/-- The entries, the most suspicious first. -/
def ranked (m : ScoreMap) : List (Location × Float) :=
  m.mergeSort rankLE

/-- The entries with at least the given score. -/
def atLeast (m : ScoreMap) (threshold : Float) : ScoreMap :=
  m.filter fun e => decide (threshold ≤ e.2)

end ScoreMap

namespace CoverageReport

/-- Tests with at least one failing entry. -/
def negativeTests (r : CoverageReport) : List String :=
  textSet (r.failing.map (·.test))

/-- Tests all of whose entries passed. -/
def positiveTests (r : CoverageReport) : List String :=
  (textSet (r.passing.map (·.test))).filter fun t => !r.negativeTests.contains t

def suite (r : CoverageReport) : TestSuite :=
  ⟨r.positiveTests, r.negativeTests⟩

/-- Tests with an entry that covers a location, each once. -/
def testsCovering (r : CoverageReport) (l : Location) : List String :=
  textSet ((r.tests.filter fun t => t.covered.contains l).map (·.test))

def spectrum (r : CoverageReport) (l : Location) : Spectrum :=
  let tests := r.testsCovering l
  let negative := r.negativeTests
  ⟨(tests.filter negative.contains).length,
    (tests.filter fun t => !negative.contains t).length⟩

/-- All locations that some entry covers, ascending. -/
def locations (r : CoverageReport) : List Location :=
  Location.setOf (r.tests.flatMap (·.covered))

end CoverageReport

/-- A scored coverage report: the tests it classifies and the scores above zero. -/
structure Localization where
  formula : Formula
  tests : TestSuite
  scores : ScoreMap

namespace Localization

def ofReport (r : CoverageReport) (formula : Formula) : Localization :=
  let tests := r.suite
  let failed := tests.negative.length
  let passed := tests.positive.length
  let scores := r.locations.map fun l => (l, formula.score failed passed (r.spectrum l))
  ⟨formula, tests, if failed = 0 then [] else scores.filter fun e => decide (0.0 < e.2)⟩

/-- Scores a stored report. A report that cannot be read counts as an empty one. -/
def ofFile {σ : Type} (files : Storage σ) (path : String) (formula : Formula) (world : σ) :
    Localization :=
  match files.readDocument CoverageReport.decode path world with
  | .ok r => ofReport r formula
  | .error _ => ofReport CoverageReport.empty formula

/-- The score of a location, zero if no failing test executes it. -/
def score (l : Localization) (location : Location) : Float :=
  (l.scores.score? location).getD 0.0

/-- Exactly the locations whose score is at least the threshold. -/
def suspicious (l : Localization) (threshold : Float) : ScoreMap :=
  l.scores.atLeast threshold

end Localization

end PatchSearch
