import PatchSearch.Files.Tree
import PatchSearch.Shell.Process
import PatchSearch.Shell.Script

/-!
What a program keeps to itself: its directory, and for a shell its variables, functions, options,
arguments, traps and jobs. A program that is started gets a copy, so nothing it changes there
comes back.
-/
namespace PatchSearch.Shell

structure Variable where
  name : String
  /-- The value; a name can be marked without having one. -/
  value : Option String
  exported : Bool := false
  /-- Whether the value can no longer change. -/
  fixed : Bool := false

/-- Commands left to run on their own: the number of the job, its programs, and those of them
whose ends were noticed. -/
structure Job where
  number : Nat
  members : List Nat
  noticed : List Nat

structure Memory where
  /-- The number of the program itself. -/
  id : Nat
  here : Position
  /-- The text of the directory as it was reached; its position gives the text otherwise. -/
  place : Option String := none
  /-- The number of the shell that a program belongs to, and of the one that started it. -/
  shell : Nat
  starter : Nat
  name : String := "sh"
  args : List String := []
  bindings : List Variable := []
  /-- Functions with the lines that their definitions start on. -/
  functions : List (String × Nat × Command) := []
  aliases : List (String × String) := []
  /-- The letters of the options that are on. -/
  options : List Char := []
  /-- Actions for signals; number zero stands for the end of the shell. -/
  traps : List (Nat × String) := []
  /-- The actions of the shell that this one was started by, which are only shown. -/
  shownTraps : List (Nat × String) := []
  /-- Signals that the program ignores from its start on. -/
  deaf : List Nat := []
  status : Nat := 0
  /-- The status from before the action of a trap that is running. -/
  statusBefore : Option Nat := none
  /-- The status of the last substitution in a command. -/
  innerStatus : Nat := 0
  line : Nat := 1
  /-- The builtin that is running. -/
  running : Option String := none
  documents : List (Nat × Word) := []
  nextDocument : Nat := 0
  jobs : List Job := []
  background : Option Nat := none
  /-- How many loops and how many functions are running. -/
  loops : Nat := 0
  depth : Nat := 0
  /-- The variables to restore at the end of each running function, as they were before. -/
  locals : List (List (String × Option Variable)) := []
  /-- The argument that the next option is read from, and where its letter stands there. -/
  optionIndex : Nat := 1
  letter : Nat := 0
  /-- Programs that were looked up, with their paths. -/
  looked : List (String × String) := []
  mask : Nat := 18
  /-- How many descriptors are kept for later. -/
  keeping : Nat := 0

namespace Memory

def findVariable? (m : Memory) (name : String) : Option Variable :=
  m.bindings.find? (·.name == name)

def value? (m : Memory) (name : String) : Option String :=
  (m.findVariable? name).bind (·.value)

/-- Puts a variable in place of an earlier one of its name. -/
def putVariable (m : Memory) (v : Variable) : Memory :=
  if m.bindings.any (·.name == v.name) then
    { m with bindings := m.bindings.map fun u => if u.name == v.name then v else u }
  else { m with bindings := m.bindings ++ [v] }

/-- Takes a variable away, or puts it back as it was. -/
def restoreVariable (m : Memory) (name : String) : Option Variable → Memory
  | some v => m.putVariable v
  | none => { m with bindings := m.bindings.filter (·.name != name) }

/-- Gives a value to a variable, which keeps its marks. -/
def assign (m : Memory) (name value : String) (exported : Bool) : Memory :=
  let exported := exported || m.options.contains 'a'
  match m.findVariable? name with
  | some v => m.putVariable { v with value := some value, exported := v.exported || exported }
  | none => m.putVariable { name, value := some value, exported }

/-- Whether an option is on. -/
def has (m : Memory) (option : Char) : Bool :=
  m.options.contains option

/-- The variables that started programs see. -/
def environment (m : Memory) : List (String × String) :=
  m.bindings.filterMap fun v =>
    if v.exported then v.value.map fun s => (v.name, s) else none

theorem environment_exported (m : Memory) (x : String × String) (h : x ∈ m.environment) :
    ∃ v ∈ m.bindings, v.exported = true ∧ v.name = x.1 ∧ v.value = some x.2 := by
  obtain ⟨v, hv, hx⟩ := List.mem_filterMap.1 h
  split at hx
  · next he =>
    obtain ⟨s, hs, rfl⟩ := Option.map_eq_some_iff.1 hx
    exact ⟨v, hv, he, rfl, hs⟩
  · cases hx

end Memory

end PatchSearch.Shell

/-!
Computations of a program. A computation works on the program's memory, takes steps among the
other programs, and ends with a value or stops early. It is a function of what comes after it, so
that its steps are a `Process` once the end of the program is known.
-/
namespace PatchSearch.Shell

/-- Why a computation stops before its end. -/
inductive Stop where
  /-- The shell ends. -/
  | exit
  /-- A fault that ends the shell unless a builtin meets it. -/
  | failed
  /-- A function or a script that is read in is left. -/
  | returned
  | breaks (n : Nat)
  | continues (n : Nat)
  deriving DecidableEq

def Run (α : Type) : Type :=
  Memory → (Except Stop α → Memory → Process) → Process

namespace Run

variable {α β : Type}

instance : Monad Run where
  pure a := fun m k => k (.ok a) m
  bind x f := fun m k => x m fun r m =>
    match r with
    | .ok a => f a m k
    | .error e => k (.error e) m

instance : MonadExceptOf Stop Run where
  throw e := fun m k => k (.error e) m
  tryCatch x f := fun m k => x m fun r m =>
    match r with
    | .ok a => k (.ok a) m
    | .error e => f e m k

instance : MonadStateOf Memory Run where
  get := fun m k => k (.ok m) m
  set m := fun _ k => k (.ok ()) m
  modifyGet f := fun m k => let (a, m) := f m; k (.ok a) m

instance : Inhabited (Run α) :=
  ⟨fun _ _ => .ended⟩

theorem pure_bind (a : α) (f : α → Run β) : (pure a >>= f) = f a :=
  rfl

/-- A step on what all programs share. -/
def act (f : World → α × World) : Run α := fun m k =>
  .act fun w => let (a, w) := f w; (w, k (.ok a) m)

/-- Looks at what all programs share. -/
def look (f : World → α) : Run α :=
  act fun w => (f w, w)

def change (f : World → World) : Run Unit :=
  act fun w => ((), f w)

/-- Lets time go by. -/
def pause (nanos : Nat) : Run Unit := fun m k =>
  .pause nanos (k (.ok ()) m)

/-- Waits until something holds. -/
def await (ready : World → Bool) : Run Unit := fun m k =>
  .await ready (k (.ok ()) m)

/-- Never goes on. -/
def forever : Run α := fun _ _ =>
  .await (fun _ => false) .ended

/-- The end of a program with the status in its memory, of which eight bits count. -/
def finish (m : Memory) : Process :=
  .act fun w => (w.leave m.id (.code (m.status % 256)), .ended)

/-- Ends the program at once. -/
def halt : Run α := fun m _ =>
  finish m

/-- The steps of a computation as a whole program. -/
def toProcess (x : Run Unit) (m : Memory) : Process :=
  x m fun _ m => finish m

/-- Starts a program on a copy of the memory; its number. -/
def start (channels : List (Nat × Channel) → List (Nat × Channel)) (child : Run Unit) : Run Nat :=
  fun m k =>
    .start channels (fun id => toProcess child { m with id }) (fun id => k (.ok id) m)

/-- Runs one computation after another one, however that ends. -/
def ensuring (x : Run α) (after : Run Unit) : Run α := do
  let a ← try x
    catch e =>
      after
      throw e
  after
  return a

def status : Run Nat := do
  return (← get).status

def setStatus (n : Nat) : Run Unit :=
  modify fun m => { m with status := n }

/-- Ends the shell with a status. -/
def exitWith (n : Nat) : Run α := do
  setStatus n
  throw .exit

/-- The files, seen from the program's directory. -/
def files : Run FileTree := do
  let m ← get
  look fun w => w.view m.here m.mask

/-- Works on the files, seen from the program's directory. -/
def onFiles (f : FileTree → α × FileTree) : Run α := do
  let m ← get
  act fun w =>
    let (a, files) := f (w.view m.here m.mask)
    (a, { w with files })

def setFiles (files : FileTree) : Run Unit :=
  change fun w => { w with files }

/-- Sends a signal. -/
def sendSignal (id signal : Nat) : Run Unit :=
  change fun w => w.signal id signal

/-- Takes the signals that have arrived. -/
def takeSignals : Run (List Nat) := do
  let id := (← get).id
  act fun w =>
    match w.program? id with
    | some p =>
      if p.pending.isEmpty then ([], w)
      else (p.pending, w.changeProgram id fun p => { p with pending := [] })
    | none => ([], w)

def channels : Run (List (Nat × Channel)) := do
  let id := (← get).id
  look fun w => ((w.program? id).map (·.channels)).getD []

def channel? (descriptor : Nat) : Run (Option Channel) := do
  return (← channels).lookup descriptor

/-- Lets a descriptor lead somewhere, or nowhere at all. -/
def setChannel (descriptor : Nat) (c : Option Channel) : Run Unit := do
  let id := (← get).id
  change fun w => w.changeProgram id fun p =>
    let others := p.channels.filter (·.1 != descriptor)
    { p with channels := match c with
        | some c => (descriptor, c) :: others
        | none => others }

/-- Descriptors from this number on keep channels for later and are not passed on to programs. -/
def keptFrom : Nat := 1000

/-- Why octets cannot be written or read. -/
inductive ChannelFault where
  | closed
  | broken
  | noRoom
  | isADirectory
  deriving DecidableEq

namespace ChannelFault

/-- The fault in words. -/
def message : ChannelFault → String
  | closed => "Bad file descriptor"
  | broken => "Broken pipe"
  | noRoom => "No space left on device"
  | isADirectory => "Is a directory"

end ChannelFault

/-- Puts octets into a pipe, piece by piece as there is room. -/
def writePipe (i : Nat) : Nat → String → Run (Except ChannelFault Unit)
  | 0, _ => return .ok ()
  | n + 1, text => do
    let need := min text.length Pipe.batch
    await fun w => (w.pipe i).size + need ≤ Pipe.capacity || !w.isReadable i
    let id := (← get).id
    let rest ← act fun w =>
      if !w.isReadable i then (none, w.signal id 13)
      else
        let room := Pipe.capacity - (w.pipe i).size
        if text.length ≤ room then (some "", w.changePipe i (·.push text))
        else
          let cs := text.toList
          (some (String.ofList (cs.drop room)),
            w.changePipe i (·.push (String.ofList (cs.take room))))
    match rest with
    | none => return .error .broken
    | some rest => if rest.isEmpty then return .ok () else writePipe i n rest

/-- Writes octets to a channel, or to a closed descriptor. -/
def writeTo (c : Option Channel) (text : String) : Run (Except ChannelFault Unit) := do
  match c with
  | none => return .error .closed
  | some (.source _) => return .error .closed
  | some .nowhere => return .ok ()
  | some (.zeros hasRoom) => return if hasRoom || text.isEmpty then .ok () else .error .noRoom
  | some (.printed isError) =>
    if !text.isEmpty then change fun w => { w with printed := (isError, text) :: w.printed }
    return .ok ()
  | some (.file i) =>
    act fun w =>
      match w.opened[i]? with
      | some o => if o.canWrite then (.ok (), w.store i text) else (.error .closed, w)
      | none => (.error .closed, w)
  | some (.sink i) =>
    if text.isEmpty then return .ok () else writePipe i (text.length + 1) text

/-- Writes octets to a descriptor. -/
def write (descriptor : Nat) (text : String) : Run (Except ChannelFault Unit) := do
  writeTo (← channel? descriptor) text

/-- Takes octets from a channel up to one that `stop` holds for; no octets at the end. -/
def fetch (c : Channel) (stop : Char → Bool) (most : Nat) :
    Run (Except ChannelFault (List Char)) := do
  match c with
  | .printed _ => return .error .closed
  | .sink _ => return .error .closed
  | .nowhere => return .ok []
  | .zeros _ => do
    pause 20000
    return .ok (List.replicate (min most 4096) '\x00')
  | .file i =>
    act fun w =>
      match w.opened[i]? with
      | some o =>
        if !o.canRead then (.error .closed, w)
        else if (w.files.numbered? o.number).any (·.entry.isDirectory) then
          (.error .isADirectory, w)
        else
          let (cs, w) := w.fetch i stop most
          (.ok cs, w)
      | none => (.error .closed, w)
  | .source i =>
    await fun w => !(w.pipe i).isEmpty || !w.isWritable i
    act fun w =>
      let (cs, p) := (w.pipe i).takeUntil stop most
      (.ok cs, w.changePipe i fun _ => p)

/-- Takes a piece of what a descriptor leads to. -/
def readPiece (descriptor : Nat) : Run (Except ChannelFault String) := do
  match ← channel? descriptor with
  | none => return .error .closed
  | some c => return (← fetch c (fun _ => false) 65536).map String.ofList

/-- All octets left on a channel, in pieces, newest first. -/
def readPieces (c : Channel) : Nat → List (List Char) → Run (Except ChannelFault (List (List Char)))
  | 0, _ => forever
  | n + 1, done => do
    match ← fetch c (fun _ => false) 65536 with
    | .error e => return .error e
    | .ok [] => return .ok done
    | .ok cs =>
      pause 1000
      readPieces c n (cs :: done)

/-- The most pieces that are read from one channel. -/
def maxPieces : Nat := 100000

/-- All octets left on a channel. -/
def readAll (c : Channel) : Run (Except ChannelFault String) := do
  return (← readPieces c maxPieces []).map fun ps => String.ofList ps.reverse.flatten

/-- The next line on a channel, with its line feed if it has one. -/
def readLineFrom (c : Channel) : Nat → List Char → Run (Except ChannelFault String)
  | 0, _ => forever
  | n + 1, done => do
    match ← fetch c (· == '\n') 65536 with
    | .error e => return .error e
    | .ok cs =>
      let line := done ++ cs
      if cs.isEmpty || cs.getLast? == some '\n' then return .ok (String.ofList line)
      else readLineFrom c n line

def readLine (descriptor : Nat) : Run (Except ChannelFault String) := do
  match ← channel? descriptor with
  | none => return .error .closed
  | some c => readLineFrom c maxPieces []

/-- Makes a pipe that holds a text. -/
def newPipe (text : String) : Run Nat :=
  act fun w =>
    (w.pipes.size, { w with pipes := w.pipes.push (Pipe.push {} text) })

/-- Opens a file that stands at a position. -/
def newOpened (o : OpenedFile) : Run Channel :=
  act fun w => (.file w.opened.size, { w with opened := w.opened.push o })

/-- Writes to the standard output; the status of a program that could not is one. -/
def say (text : String) : Run Unit :=
  discard (write 1 text)

/-- Writes to the standard error. -/
def tell (text : String) : Run Unit :=
  discard (write 2 text)

end Run

end PatchSearch.Shell
