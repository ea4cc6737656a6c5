import PatchSearch.Text.Substitution
import PatchSearch.Toolchain
import PatchSearch.Text.Basic
import PatchSearch.SortedList

/-!
External commands. A command ends with a status and leaves two streams of bytes. What starts
commands is a `Launcher`, a function on a state of any kind; a command that does not end within
its limit is stopped and leaves no output. Arguments may hold placeholders, which are
substituted one after the other.
-/
namespace PatchSearch

/-- How a command ended: by itself with a code, or by a signal. -/
inductive ExitStatus where
  | code (n : Nat)
  | signal (n : Nat)
  deriving DecidableEq, Repr, Inhabited

namespace ExitStatus

def success (s : ExitStatus) : Bool :=
  s == .code 0

/-- The code of a command that ended by itself. -/
def code? : ExitStatus → Option Nat
  | code n => some n
  | signal _ => none

/-- The names of the signals, from number one on. -/
def signalNames : List String :=
  ["HUP", "INT", "QUIT", "ILL", "TRAP", "ABRT", "BUS", "FPE", "KILL", "USR1", "SEGV", "USR2",
    "PIPE", "ALRM", "TERM", "STKFLT", "CHLD", "CONT", "STOP", "TSTP", "TTIN", "TTOU", "URG",
    "XCPU", "XFSZ", "VTALRM", "PROF", "WINCH", "IO", "PWR", "SYS"]

/-- The status in words. -/
def message : ExitStatus → String
  | code n => "exit status: " ++ toString n
  | signal n =>
    "signal: " ++ toString n ++
      match signalNames[n - 1]? with
      | some name => " (SIG" ++ name ++ ")"
      | none => ""

theorem success_iff (s : ExitStatus) : s.success = true ↔ s = .code 0 := by
  simp [success]

end ExitStatus

structure CommandOutput where
  status : ExitStatus
  stdout : ByteArray
  stderr : ByteArray

/-- The text of a stream. A stream that is not UTF-8 throughout reads as empty. -/
def streamText (bytes : ByteArray) : String :=
  (Text.decode? bytes).getD ""

/-- A command to start: the program, its arguments, the directory to start it in, and the time
after which it is stopped. -/
structure CommandCall where
  program : String
  args : List String
  directory : String
  limit : Duration

abbrev Launcher (σ : Type) :=
  CommandCall → σ → Work (Except HarnessError CommandOutput) × σ

/-- Arguments with values for placeholders, in the given order; a value that holds a later
placeholder has it substituted too. -/
def fillPlaceholders (args : List String) (values : List (String × String)) : List String :=
  args.map fun arg => values.foldl (fun text v => Text.substituteString v.1 v.2 text) arg

theorem length_fillPlaceholders (args : List String) (values : List (String × String)) :
    (fillPlaceholders args values).length = args.length := by
  simp [fillPlaceholders]

/-!
Builds by a command. The edited files of a candidate are written below a directory of its own,
the command runs in that directory, and its output directory is the artifact. What a failing
command wrote is the diagnosis, standard error first.
-/

variable {σ : Type}

/-- A build command, the directory that candidates are built below, and the time a build may
take. -/
structure BuildCommand where
  program : String
  args : List String
  workDir : String
  limit : Duration

namespace BuildCommand

/-- The directory a candidate is built in. -/
def directory (c : BuildCommand) (id : Nat) : String :=
  joinPath c.workDir ("bin_" ++ toString id)

/-- Writes files below a directory, up to the first failure. -/
def writeSources (files : Storage σ) (directory : String) :
    TextMap String → σ → Except FileError Unit × σ
  | [], world => (.ok (), world)
  | (name, content) :: rest, world =>
    let path := joinPath directory name
    let (made, world) := match parentPath path with
      | some parent => files.makeDirs parent world
      | none => (.ok (), world)
    match made with
    | .error e => (.error e, world)
    | .ok () =>
      match files.write path (Text.encode content) world with
      | (.error e, world) => (.error e, world)
      | (.ok (), world) => writeSources files directory rest world

/-- Makes the directories of a candidate and writes its sources. -/
def prepare (files : Storage σ) (directory : String) (sources : TextMap String) (world : σ) :
    Except FileError Unit × σ :=
  match writeSources files (joinPath directory "src") sources world with
  | (.error e, world) => (.error e, world)
  | (.ok (), world) =>
    match files.makeDirs (joinPath directory "src") world with
    | (.error e, world) => (.error e, world)
    | (.ok (), world) => files.makeDirs (joinPath directory "out") world

/-- The lines of a text without the blanks around them; blank lines are left out. -/
def trimmedLines (text : String) : List String :=
  ((Text.stringLines text).map Text.trimString).filter (!·.isEmpty)

/-- What a failing command tells about its failure. -/
def diagnostics (o : CommandOutput) : List String :=
  let told := trimmedLines (streamText o.stderr) ++ trimmedLines (streamText o.stdout)
  if told.isEmpty then ["build command exited with " ++ o.status.message] else told

/-- The result of a command that was started, or could not be. -/
def resultOf (artifact : Artifact) :
    Except HarnessError CommandOutput → Except CompileFailure Artifact
  | .error e => .error ⟨[e.message]⟩
  | .ok o => if o.status.success then .ok artifact else .error ⟨diagnostics o⟩

/-- Builds a candidate. -/
def compile (files : Storage σ) (launch : Launcher σ) (c : BuildCommand) (id : Nat)
    (sources : TextMap String) (world : σ) : Work (Except CompileFailure Artifact) × σ :=
  let directory := c.directory id
  match prepare files directory sources world with
  | (.error e, world) =>
    (Work.done (.error ⟨["failed to prepare sources: " ++ e.message]⟩), world)
  | (.ok (), world) =>
    let out := joinPath directory "out"
    let args := fillPlaceholders c.args
      [("\x7bsrc\x7d", joinPath directory "src"), ("\x7bout\x7d", out), ("\x7bid\x7d", toString id)]
    let (work, world) := launch ⟨c.program, args, directory, c.limit⟩ world
    (work.map (resultOf ⟨id, out⟩), world)

theorem diagnostics_ne_nil (o : CommandOutput) : diagnostics o ≠ [] := by
  simp only [diagnostics]
  split
  · simp
  · next h => intro h'; simp_all

end BuildCommand

end PatchSearch

/-!
Test runs by a command. The tests are the last arguments of the command; when there are many, one
argument names a file that lists them. The command reports a failed test on a line of its own
that starts with `FailedTest:`, and ends with status zero whatever the tests do.
-/
namespace PatchSearch

variable {σ : Type}

structure TestCommand where
  program : String
  args : List String
  deriving Inhabited

namespace TestCommand

/-- The most tests that are passed as arguments. -/
def maxInlineTests : Nat := 300

/-- What a line that reports a failed test starts with. -/
def failureMark : String :=
  "FailedTest:"

/-- The test that a line reports as failed; the text is blank if the line names none. -/
def reportedTest? (line : List Char) : Option String :=
  let line := Text.trim line
  if failureMark.toList.isPrefixOf line then
    some (String.ofList (Text.trim (line.drop failureMark.length)))
  else none

/-- The failed tests that an output reports. -/
def failedTests (stdout : String) : Except HarnessError (List String) :=
  let reported := (Text.lines stdout.toList).filterMap reportedTest?
  if reported.contains "" then
    .error (.malformedOutput (failureMark ++ " line without a test id"))
  else .ok (textSet reported)

/-- The result of a command that was started, or could not be. -/
def resultOf : Except HarnessError CommandOutput → Except HarnessError (List String)
  | .error e => .error e
  | .ok o =>
    if o.status.success then failedTests (streamText o.stdout)
    else .error (.exitStatus o.status.code?)

/-- Writes the list of tests into the artifact's directory; the path of the list. -/
def writeList (files : Storage σ) (artifact : Artifact) (tests : List String) (world : σ) :
    Except FileError String × σ :=
  match files.makeDirs artifact.path world with
  | (.error e, world) => (.error e, world)
  | (.ok (), world) =>
    let path := joinPath artifact.path "tests.txt"
    match files.write path (Text.encode (String.intercalate "\n" tests)) world with
    | (.error e, world) => (.error e, world)
    | (.ok (), world) => (.ok path, world)

/-- The arguments of a run. -/
def arguments (files : Storage σ) (c : TestCommand) (artifact : Artifact) (tests : List String)
    (world : σ) : Except FileError (List String) × σ :=
  let args := fillPlaceholders c.args
    [("\x7bartifact\x7d", artifact.path), ("\x7bid\x7d", toString artifact.id)]
  if maxInlineTests < tests.length then
    match writeList files artifact tests world with
    | (.error e, world) => (.error e, world)
    | (.ok path, world) => (.ok (args ++ ["@" ++ path]), world)
  else (.ok (args ++ tests), world)

/-- Where a run takes place: in the artifact, if it is a directory. -/
def directory (files : Storage σ) (artifact : Artifact) (world : σ) : String :=
  match files.list artifact.path world with
  | .ok _ => artifact.path
  | .error _ => "."

/-- Runs tests of an artifact. -/
def runTests (files : Storage σ) (launch : Launcher σ) (c : TestCommand) (artifact : Artifact)
    (tests : List String) (limit : Duration) (world : σ) :
    Work (Except HarnessError (List String)) × σ :=
  if tests.isEmpty then (Work.done (.error .noTests), world)
  else
    match arguments files c artifact tests world with
    | (.error e, world) => (Work.done (.error (.io e)), world)
    | (.ok args, world) =>
      let (work, world) :=
        launch ⟨c.program, args, directory files artifact world, limit⟩ world
      (work.map resultOf, world)

theorem failedTests_ne_blank (stdout : String) (failed : List String)
    (h : failedTests stdout = .ok failed) :
    ((Text.lines stdout.toList).filterMap reportedTest?).contains "" = false := by
  unfold failedTests at h
  simp only at h
  split at h
  · cases h
  · next hc => exact Bool.eq_false_iff.mpr hc

end TestCommand

end PatchSearch

/-!
The toolchain of two commands, one that builds candidates and one that tests them.
-/
namespace PatchSearch

variable {σ : Type}

/-- A toolchain that edits whole lines, builds and tests by commands, and is never asked to
stop. -/
def commandToolchain (files : Storage σ) (launch : Launcher σ) (clock : σ → Nat)
    (build : BuildCommand) (test : TestCommand) : Toolchain σ where
  patch := linePatcher
  compile id sources world := build.compile files launch id sources world
  runTests artifact tests limit world := test.runTests files launch artifact tests limit world
  files := files
  clock := clock
  cancelled world := (false, world)

end PatchSearch
