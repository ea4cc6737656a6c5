import PatchSearch.Shell.Interpreter

/-!
Hosts: a file tree, a clock, and what was printed. A host starts commands: it finds the program,
runs it on the files, and looks at it at regular times, first soon after the start. A command
that has ended by then tells its status; one that has not and is past its limit is stopped.
-/
namespace PatchSearch

structure Host where
  files : FileTree
  /-- The time in nanoseconds. -/
  now : Nat := 0
  printed : String := ""

namespace Host

open Shell

/-- What the calendar says when the clock is at zero: the start of a year, in nanoseconds from the
start of the year 1970. -/
def epoch : Nat := 1767225600000000000

/-- Access to the files of a host. -/
def storage : Storage Host :=
  FileTree.storage.within (fun h => { h.files with now := epoch + h.now })
    fun files h => { h with files }

/-- Milliseconds on the clock of a host. -/
def clock (h : Host) : Nat :=
  h.now / 1000000

/-- When a started command is looked at first, and how much later each time after that. -/
def firstLook : Nat := 50000

def lookInterval : Nat := 10000000

/-- The first look at or after a time. -/
def lookAt (t : Nat) : Nat :=
  if t ≤ firstLook then firstLook
  else firstLook + (t - firstLook + lookInterval - 1) / lookInterval * lookInterval

theorem le_lookAt (t : Nat) : t ≤ lookAt t := by
  unfold lookAt
  split
  · assumption
  · next h =>
    have hd := Nat.div_add_mod (t - firstLook + lookInterval - 1) lookInterval
    have hm : (t - firstLook + lookInterval - 1) % lookInterval < lookInterval :=
      Nat.mod_lt _ (by decide)
    rw [Nat.mul_comm] at hd
    omega

/-- How long a command takes to start. -/
def startTime : Nat := 1000000

/-- The number of a started program. -/
def firstId : Nat := 4711

/-- The numbers of system files start here. -/
def firstSystemNumber : Nat := 1000000000

/-- Files and directories of the system: devices, and a file for each program. -/
def systemFiles : List (Position × Item) :=
  let directories : List Position :=
    [["bin"], ["dev"], ["etc"], ["root"], ["tmp"], ["usr"], ["usr", "bin"], ["usr", "lib"],
      ["var"], ["var", "tmp"]]
  let names := ["dash", "bash", "sh"] ++ utilities.map Prod.fst ++ launchingUtilities.map Prod.fst
  let program (name : String) : Entry := .file (octetBytes (programSign ++ name))
  let entries := directories.map (fun p => (p, if p == ["bin"] then .link "usr/bin" else .directory)) ++
    names.map fun name => (["usr", "bin", name], program name)
  entries.zipIdx.map fun ((p, e), i) => (p, ⟨e, firstSystemNumber + i, 493, 0⟩)

/-- Files with those of the system beside them. -/
def withSystem (t : FileTree) : FileTree :=
  if t.isDirectoryAt ["usr", "bin"] then t
  else { t with items := t.items ++ systemFiles.filter fun x => (t.item? x.1).isNone }

/-- The environment of a command. -/
def environment (here : Position) : List Variable :=
  let exported (name value : String) : Variable := { name, value := some value, exported := true }
  [exported "PATH" "/usr/local/sbin:/usr/local/bin:/usr/sbin:/usr/bin:/sbin:/bin",
    exported "HOME" "/root", exported "PWD" (octets (FileTree.positionText here))]

/-- Checks that a command can be started: its program has to run by itself. -/
def checkProgram (memory : Memory) (w : World) (c : CommandCall) : Except FileError Unit := do
  let t := { w.files with here := memory.here }
  let name := octets c.program
  if name.isEmpty then throw .notFound
  let searched := (memory.value? "PATH").getD plainSearchPath
  match ← firstRunnable t (candidatePaths searched name) .notFound with
  | (_, .system _) => return
  | (_, .script) => throw .notRunnable
  | (_, .interpreted words) => discard (runnableAt t (words.headD ""))

/-- What a command needs to run: the memory and the files it starts with. -/
def prepare (files : FileTree) (began : Nat) (c : CommandCall) : Except FileError (Memory × World) := do
  if (c.program :: c.args).any fun s => s.toList.contains '\x00' then throw .badArgument
  let here ← match files.find c.directory with
    | .ok (p, .directory) => pure p
    | .ok _ => throw .notADirectory
    | .error e => throw e
  let memory : Memory :=
    { id := firstId, here, shell := firstId, starter := firstId - 1, bindings := environment here }
  let start : Program :=
    { id := firstId, parent := firstId - 1
      channels := [(0, .nowhere), (1, .printed false), (2, .printed true)] }
  let world : World :=
    { files, now := startTime, began, programs := [start], nextId := firstId + 1 }
  checkProgram memory world c
  return (memory, world)

/-- The most steps of a run. -/
def maxSteps : Nat := 100000000

/-- What was printed as output or as errors. -/
def printedText (w : World) (isError : Bool) : ByteArray :=
  octetBytes (String.join ((w.printed.filter (·.1 == isError)).reverse.map Prod.snd))

/-- Starts a command. -/
def launch : Launcher Host := fun c h =>
  let files := withSystem h.files
  match prepare files (epoch + h.now) c with
  | .error e => (Work.done (.error (.spawn c.program e)), h)
  | .ok (memory, world) =>
    let words := (c.program :: c.args).map octets
    let deadline := lookAt c.limit.nanos
    let finish := Schedule.run firstId deadline maxSteps none
      [⟨firstId, startTime, Run.toProcess (runProgram words) memory⟩] world
    let files := { finish.world.files with
      here := h.files.here, mask := h.files.mask, nameless := [] }
    let timeout : Work (Except HarnessError CommandOutput) × Host :=
      (⟨⟨deadline⟩, some (.error (.timeout c.limit))⟩, { h with files, now := h.now + deadline })
    match finish.result with
    | none => timeout
    | some (status, ended) =>
      if deadline < ended then timeout
      else
        let taken := max (lookAt ended) finish.silentAt
        (⟨⟨taken⟩, some (.ok ⟨status, printedText finish.world false,
            printedText finish.world true⟩)⟩,
          { h with files, now := h.now + taken })

end Host

end PatchSearch
