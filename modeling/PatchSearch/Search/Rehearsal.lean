import PatchSearch.Command
import PatchSearch.Search.Engine

/-!
Rehearsals: a toolchain that acts out a script instead of running commands. Rules say, by the
edited sources and the requested tests, which builds fail and which tests do, and who breaks down
or stalls on the way. The stage remembers what was called and what was told.
-/
namespace PatchSearch

/-- A condition on the edited sources of a candidate and the tests requested of it. -/
inductive Condition where
  | const (b : Bool)
  | hasText (file text : String)
  | lacksText (file text : String)
  | edited (file : String)
  | minTests (n : Nat)
  | candidate (id : Nat)
  | negation (c : Condition)
  | all (cs : List Condition)
  | any (cs : List Condition)

/-- What conditions look at. -/
structure Situation where
  unedited : TextMap String
  edited : TextMap String
  tests : Nat
  id : Nat

namespace Situation

/-- The present text of a file; empty if there is none. -/
def text (s : Situation) (file : String) : List Char :=
  match s.edited.lookup file with
  | some t => t.toList
  | none => ((s.unedited.lookup file).getD "").toList

end Situation

/-- Whether a text holds another one somewhere. -/
def holdsText (wanted : List Char) : List Char → Bool
  | [] => wanted.isEmpty
  | c :: cs => wanted.isPrefixOf (c :: cs) || holdsText wanted cs

namespace Condition

mutual

def holds (s : Situation) : Condition → Bool
  | .const b => b
  | .hasText file t => holdsText t.toList (s.text file)
  | .lacksText file t => !holdsText t.toList (s.text file)
  | .edited file => (s.edited.lookup file).isSome
  | .minTests n => n ≤ s.tests
  | .candidate id => id == s.id
  | .negation c => !holds s c
  | .all cs => allHold s cs
  | .any cs => someHolds s cs

def allHold (s : Situation) : List Condition → Bool
  | [] => true
  | c :: cs => holds s c && allHold s cs

def someHolds (s : Situation) : List Condition → Bool
  | [] => false
  | c :: cs => holds s c || someHolds s cs

end

mutual

/-- A condition as a truth value or an object with the one name of its kind. -/
def decode : Json → Option Condition
  | .bool b => some (.const b)
  | .object ms => decodeMember ms
  | _ => none

def decodeMember : List (String × Json) → Option Condition
  | [("has", .array [.text file, .text t])] => some (.hasText file t)
  | [("lacks", .array [.text file, .text t])] => some (.lacksText file t)
  | [("edited", .text file)] => some (.edited file)
  | [("min_tests", .nat n)] => some (.minTests n)
  | [("id", .nat n)] => some (.candidate n)
  | [("not", c)] => (decode c).map .negation
  | [("all", .array cs)] => (decodeAll cs).map .all
  | [("any", .array cs)] => (decodeAll cs).map .any
  | _ => none

def decodeAll : List Json → Option (List Condition)
  | [] => some []
  | c :: cs => do
    let c ← decode c
    let cs ← decodeAll cs
    return c :: cs

end

end Condition

/-- What happens in place of the usual course. -/
inductive Incident where
  | failure
  | noTests
  | breakdown
  | stall
  deriving DecidableEq, Repr

structure Rehearsal where
  unedited : TextMap String := []
  builds : List (Condition × Incident) := []
  runs : List (Condition × Incident) := []
  /-- Tests with the conditions under which they fail. -/
  failures : List (String × Condition) := []
  /-- Tests that are reported as failed whatever was requested. -/
  extra : List String := []
  /-- The candidate whose build asks the search to stop. -/
  cancelAtBuild : Option Nat := none

inductive StageCall where
  | build (id : Nat) (sources : TextMap String)
  | run (id : Nat) (tests : List String)

/-- The state of a rehearsal, latest calls and reports first. -/
structure Stage where
  files : FileTree
  calls : List StageCall := []
  built : List (Nat × TextMap String) := []
  cancelled : Bool := false
  heard : List (SearchProgress Float) := []

namespace Incident

def decode : Json.Decoder Incident :=
  Json.toName [("fail", failure), ("error", failure), ("no_tests", noTests),
    ("panic", breakdown), ("sleep", stall)]

/-- How long a stall takes. -/
def stallTime : Duration := Duration.ofMillis 400

/-- The first incident whose condition holds. -/
def first (rules : List (Condition × Incident)) (s : Situation) : Option Incident :=
  (rules.find? fun r => r.1.holds s).map Prod.snd

/-- Work that returns a value unless it breaks down or stalls. -/
def work {β : Type} (i : Option Incident) (value : β) : Work β :=
  match i with
  | some breakdown => ⟨⟨0⟩, none⟩
  | some stall => ⟨stallTime, some value⟩
  | _ => Work.done value

end Incident

namespace Rehearsal

/-- The rules of a rehearsal; every list may be left out. -/
def decode : Json.Decoder Rehearsal := fun j =>
  match j with
  | .object ms => do
    let list {β : Type} (name : String) (item : Json.Decoder β) : Option (List β) :=
      match (ms.lookup name).getD .null with
      | .null => some []
      | v => Json.toArray item v
    let pair {β γ : Type} (a : String) (f : Json.Decoder β) (b : String) (g : Json.Decoder γ) :
        Json.Decoder (β × γ) := fun j =>
      match j with
      | .object ms => do
        return (← f ((ms.lookup a).getD .null), ← g ((ms.lookup b).getD .null))
      | _ => none
    let builds ← list "compile" (pair "when" Condition.decode "do" Incident.decode)
    let runs ← list "harness" (pair "when" Condition.decode "do" Incident.decode)
    let failures ← list "tests" (pair "test" Json.toText "fails" Condition.decode)
    let extra ← list "extra" Json.toText
    let cancelAtBuild ← Json.toOption Json.toWord ((ms.lookup "cancel_at_compile").getD .null)
    return { builds, runs, failures, extra, cancelAtBuild }
  | .null => some {}
  | _ => none

def build (r : Rehearsal) (id : Nat) (sources : TextMap String) (w : Stage) :
    Work (Except CompileFailure Artifact) × Stage :=
  let incident := Incident.first r.builds ⟨r.unedited, sources, 0, id⟩
  let result : Except CompileFailure Artifact :=
    if incident = some .failure then .error ⟨["failed"]⟩ else .ok ⟨id, "bin_" ++ toString id⟩
  (Incident.work incident result, { w with
    calls := .build id sources :: w.calls
    built := (id, sources) :: w.built
    cancelled := w.cancelled || r.cancelAtBuild == some id })

/-- The requested tests that fail, and those that are reported anyway. -/
def failed (r : Rehearsal) (s : Situation) (tests : List String) : List String :=
  (tests.filter fun t => r.failures.any fun f => f.1 == t && f.2.holds s) ++ r.extra

def run (r : Rehearsal) (artifact : Artifact) (tests : List String) (w : Stage) :
    Work (Except HarnessError (List String)) × Stage :=
  let s : Situation :=
    ⟨r.unedited, (w.built.lookup artifact.id).getD [], tests.length, artifact.id⟩
  let incident := Incident.first r.runs s
  let result : Except HarnessError (List String) :=
    if incident = some .failure then .error (.exitStatus (some 1))
    else if incident = some .noTests then .error .noTests
    else .ok (r.failed s tests)
  (Incident.work incident result, { w with calls := .run artifact.id tests :: w.calls })

/-- The toolchain that acts out a rehearsal. Its clock stands still. -/
def toolchain (r : Rehearsal) : Toolchain Stage where
  patch := linePatcher
  compile id sources w := r.build id sources w
  runTests artifact tests _ w := r.run artifact tests w
  files := FileTree.storage.within Stage.files fun files w => { w with files }
  clock _ := 0
  cancelled w := (w.cancelled, w)

end Rehearsal

/-- Keeps what is told, and asks the search to stop when so many reports were made. -/
def Stage.hear (cancelAfter : Option Nat) (p : SearchProgress Float) (w : Stage) : Stage :=
  { w with
    heard := p :: w.heard
    cancelled := w.cancelled || cancelAfter == some (w.heard.length + 1) }

theorem Stage.length_heard_hear (cancelAfter : Option Nat) (p : SearchProgress Float) (w : Stage) :
    (w.hear cancelAfter p).heard.length = w.heard.length + 1 := rfl

end PatchSearch
