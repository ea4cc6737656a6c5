import PatchSearch.Decimal
import PatchSearch.Files.Storage
import PatchSearch.Program.Edit
import PatchSearch.SortedList

/-!
Durations and their text. A duration is a number of nanoseconds; its text has whole units of
seconds, milliseconds, microseconds or nanoseconds, the largest that is not zero, and the exact
fraction of such a unit without trailing zeros.
-/
namespace PatchSearch

structure Duration where
  nanos : Nat
  deriving DecidableEq, Repr, Inhabited

namespace Duration

def ofMicros (n : Nat) : Duration :=
  ⟨n * 1000⟩

def ofMillis (n : Nat) : Duration :=
  ⟨n * 1000000⟩

def ofSeconds (n : Nat) : Duration :=
  ⟨n * 1000000000⟩

/-- `n` units of ten to the `places`, with what is left of a unit as a fraction. -/
def inUnits (n places : Nat) : String :=
  let part := n % Decimal.tenTo places
  let digits := (Decimal.zeros (places - (Decimal.digitText part).length) ++
    Decimal.digitText part).toList
  let shown := (digits.reverse.dropWhile (· == '0')).reverse
  Decimal.digitText (n / Decimal.tenTo places) ++
    if part = 0 then "" else "." ++ String.ofList shown

/-- The text of a duration. -/
def render (d : Duration) : String :=
  if 1000000000 ≤ d.nanos then inUnits d.nanos 9 ++ "s"
  else if 1000000 ≤ d.nanos then inUnits d.nanos 6 ++ "ms"
  else if 1000 ≤ d.nanos then inUnits d.nanos 3 ++ "µs"
  else inUnits d.nanos 0 ++ "ns"

instance : LE Duration := ⟨fun a b => a.nanos ≤ b.nanos⟩

instance (a b : Duration) : Decidable (a ≤ b) :=
  inferInstanceAs (Decidable (a.nanos ≤ b.nanos))

end Duration

end PatchSearch

/-!
Work under a deadline. Seen from outside, a piece of work takes a time and returns a value or
breaks down without one. Work that takes longer than its deadline is given up, whatever it would
have returned.
-/
namespace PatchSearch

/-- Work that takes a time and returns a value, or breaks down. -/
structure Work (β : Type) where
  duration : Duration
  result : Option β

namespace Work

variable {β : Type}

/-- Work that returns a value in no time. -/
def done (value : β) : Work β :=
  ⟨⟨0⟩, some value⟩

/-- The same work with another view of its value. -/
def map {γ : Type} (f : β → γ) (w : Work β) : Work γ :=
  ⟨w.duration, w.result.map f⟩

end Work

inductive SandboxError where
  | timeout (limit : Duration)
  | brokeDown
  deriving DecidableEq, Repr

namespace SandboxError

/-- The name of the error. -/
def kind : SandboxError → String
  | timeout _ => "Timeout"
  | brokeDown => "WorkerPanicked"

/-- The error in words. -/
def message : SandboxError → String
  | timeout limit => "Deadline of " ++ limit.render ++ " exceeded"
  | brokeDown => "Worker panicked"

end SandboxError

namespace Work

variable {β : Type}

/-- What work returns within a deadline. -/
def within (limit : Duration) (w : Work β) : Except SandboxError β :=
  if w.duration ≤ limit then
    match w.result with
    | some value => .ok value
    | none => .error .brokeDown
  else .error (.timeout limit)

theorem within_eq_ok_iff (limit : Duration) (w : Work β) (value : β) :
    w.within limit = .ok value ↔ w.duration ≤ limit ∧ w.result = some value := by
  unfold within
  split
  · next h => cases w.result <;> simp [h]
  · next h => simp [h]

end Work

end PatchSearch

/-!
The collaborators of a search: what turns a choice into an edit, what builds a candidate, what
runs its tests, where files are kept, and who may ask the search to stop. They act on a state
that the search passes along and never looks into, so any behavior at all is some toolchain.
-/
namespace PatchSearch

/-- What a build leaves behind. -/
structure Artifact where
  id : Nat
  path : String
  deriving DecidableEq, Repr, Inhabited

structure CompileFailure where
  diagnostics : List String
  deriving DecidableEq, Repr

/-- The failure in words. -/
def CompileFailure.message (f : CompileFailure) : String :=
  "Compilation failed with " ++ toString f.diagnostics.length ++ " diagnostics"

inductive HarnessError where
  | noTests
  | spawn (program : String) (cause : FileError)
  | io (cause : FileError)
  | timeout (limit : Duration)
  | exitStatus (code : Option Nat)
  | malformedOutput (detail : String)
  deriving DecidableEq, Repr

namespace HarnessError

/-- The name of the error. -/
def kind : HarnessError → String
  | noTests => "NoTests"
  | spawn _ _ => "Spawn"
  | io _ => "Io"
  | timeout _ => "Timeout"
  | exitStatus _ => "ExitStatus"
  | malformedOutput _ => "MalformedOutput"

/-- The error in words. -/
def message : HarnessError → String
  | noTests => "No tests requested"
  | spawn program cause => "Failed to spawn " ++ program ++ ": " ++ cause.message
  | io cause => "I/O error: " ++ cause.message
  | timeout limit => "Test run exceeded " ++ limit.render
  | exitStatus (some code) => "Test command exited with " ++ toString code
  | exitStatus none => "Test command exited with signal"
  | malformedOutput detail => "Malformed harness output: " ++ detail

end HarnessError

/-- Why a choice was not turned into an edit. -/
inductive PatcherError where
  | refused (cause : PatchError)
  | brokeDown
  deriving DecidableEq, Repr

theorem PatcherError.mapError_refused_ne {β : Type} (x : Except PatchError β) :
    x.mapError refused ≠ .error brokeDown := by
  intro h
  cases x <;> cases h

structure Toolchain (σ : Type) where
  patch : Point → Operator → Option Ingredient → σ → Except PatcherError Edit × σ
  compile : Nat → TextMap String → σ → Work (Except CompileFailure Artifact) × σ
  runTests : Artifact → List String → Duration → σ → Work (Except HarnessError (List String)) × σ
  files : Storage σ
  /-- Milliseconds on a clock that runs forward. -/
  clock : σ → Nat
  /-- One look at whether the search is asked to stop; the request may come between any two
  looks. -/
  cancelled : σ → Bool × σ

/-- The edits of whole lines, as a collaborator that leaves the state alone. -/
def linePatcher {σ : Type} (p : Point) (o : Operator) (i : Option Ingredient) (world : σ) :
    Except PatcherError Edit × σ :=
  ((lineEdit p o i).mapError .refused, world)

/-!
Builds and test runs under a deadline. A test run asks for positive and negative tests and counts
the failures of either kind; failures of tests that were not asked for are kept but not counted.
A run that fails, breaks down or overruns its deadline is exceptional.
-/

inductive BuildError where
  | failed (failure : CompileFailure)
  | interrupted (cause : SandboxError)
  deriving DecidableEq, Repr

namespace BuildError

/-- The name of the error. -/
def kind : BuildError → String
  | failed _ => "Failed"
  | interrupted _ => "Interrupted"

/-- The error in words. -/
def message : BuildError → String
  | failed failure => failure.message
  | interrupted cause => "Compiler did not finish: " ++ cause.message

end BuildError

/-- The artifact of a build, if it is made in time. -/
def buildResult (limit : Duration) (w : Work (Except CompileFailure Artifact)) :
    Except BuildError Artifact :=
  match w.within limit with
  | .error cause => .error (.interrupted cause)
  | .ok (.error failure) => .error (.failed failure)
  | .ok (.ok artifact) => .ok artifact

structure TestRequest where
  positive : List String
  negative : List String
  deriving DecidableEq, Repr, Inhabited

namespace TestRequest

/-- The tests in the order in which they are asked for. -/
def all (r : TestRequest) : List String :=
  r.positive ++ r.negative

def length (r : TestRequest) : Nat :=
  r.positive.length + r.negative.length

def isEmpty (r : TestRequest) : Bool :=
  r.positive.isEmpty && r.negative.isEmpty

theorem length_all (r : TestRequest) : r.all.length = r.length := by
  simp [all, length]

end TestRequest

structure TestOutcome where
  failed : List String
  failedPositive : Nat
  failedNegative : Nat
  ranPositive : Nat
  ranNegative : Nat
  exceptional : Bool
  deriving DecidableEq, Repr, Inhabited

namespace TestOutcome

/-- The outcome of a run that did not complete. -/
def incomplete (r : TestRequest) : TestOutcome :=
  ⟨[], 0, 0, r.positive.length, r.negative.length, true⟩

/-- The outcome of a run with the given failed tests. -/
def ofFailed (r : TestRequest) (failed : List String) : TestOutcome :=
  ⟨textSet failed, r.positive.countP failed.contains, r.negative.countP failed.contains,
    r.positive.length, r.negative.length, false⟩

def allPassed (o : TestOutcome) : Bool :=
  !o.exceptional && o.failedPositive == 0 && o.failedNegative == 0

/-- The outcome of a run within a deadline. -/
def ofRun (r : TestRequest) (limit : Duration)
    (w : Work (Except HarnessError (List String))) : TestOutcome :=
  match w.within limit with
  | .ok (.ok failed) => ofFailed r failed
  | _ => incomplete r

theorem allPassed_ofFailed_iff (r : TestRequest) (failed : List String) :
    (ofFailed r failed).allPassed = true ↔ ∀ t ∈ r.all, t ∉ failed := by
  simp [allPassed, ofFailed, TestRequest.all, or_imp, forall_and]

theorem allPassed_incomplete (r : TestRequest) : (incomplete r).allPassed = false := rfl

end TestOutcome

namespace Toolchain

variable {σ : Type}

/-- Builds edited sources under a deadline. -/
def build (tools : Toolchain σ) (id : Nat) (sources : TextMap String) (limit : Duration)
    (world : σ) : Except BuildError Artifact × σ :=
  let (work, world) := tools.compile id sources world
  (buildResult limit work, world)

/-- Runs the requested tests of an artifact under a deadline. -/
def execute (tools : Toolchain σ) (artifact : Artifact) (r : TestRequest) (limit : Duration)
    (world : σ) : TestOutcome × σ :=
  let (work, world) := tools.runTests artifact r.all limit world
  (TestOutcome.ofRun r limit work, world)

end Toolchain

end PatchSearch
