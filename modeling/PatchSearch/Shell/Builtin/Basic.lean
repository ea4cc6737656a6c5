import PatchSearch.Shell.Reader.Script
import PatchSearch.Shell.Redirect

/-!
Running texts as scripts, the actions that traps set, and shells of their own. A script is read
and run command by command. A shell that ends, for whatever reason but a signal, runs the action
for its end first.
-/
namespace PatchSearch.Shell

/-- The most commands of one text. -/
def maxCommands : Nat := 10000000

namespace Run

/-- Runs what is left of a script. `ran` tells whether any command was run before. -/
def runSource (e : Engine) (st : Stage) : Nat → Bool → Source → Run Unit
  | 0, _, _ => forever
  | n + 1, ran, source => do
    let m ← get
    match { source with aliases := m.aliases, nextDocument := m.nextDocument }.next? with
    | .error fault =>
      modify fun m => { m with line := fault.line }
      refuse ("Syntax error: " ++ fault.message)
    | .ok (none, _) => if !ran then setStatus 0
    | .ok (some c, rest) =>
      modify fun m => { m with
        documents := rest.documents ++ m.documents, nextDocument := rest.nextDocument }
      let atEnd := match rest.pushed with
        | some .ended => true
        | _ => false
      if !c.isNothing then e.run { st with last := st.last && atEnd } c
      runSource e st n (ran || !c.isNothing) { rest with documents := [] }

/-- Runs a text. -/
def runText (e : Engine) (st : Stage) (text : String) : Run Unit :=
  runSource e st maxCommands false { chars := text.toList.filter (· != '\x00') }

/-- Runs the action of a trap, after which the status is what it was before. -/
def runAction (e : Engine) (action : String) : Run Unit := do
  let m ← get
  let before := m.statusBefore
  let status := before.getD m.status
  modify fun m => { m with statusBefore := some status }
  runText e {} action
  modify fun m => { m with status, statusBefore := before }

/-- Runs the actions for the signals that have arrived. -/
def runTraps (e : Engine) : Run Unit := do
  let m ← get
  if !m.traps.isEmpty then
    for signal in ← takeSignals do
      match (← get).traps.lookup signal with
      | some action => if !action.isEmpty then runAction e action
      | none => pure ()

/-- Runs the action for the end of the shell. -/
def runExitTrap (e : Engine) : Run Unit := do
  let m ← get
  match m.traps.lookup 0 with
  | none => return
  | some action =>
    set { m with traps := m.traps.filter (·.1 != 0), statusBefore := some m.status }
    try
      runText e {} action
      setStatus m.status
    catch
      | .exit => return
      | _ => setStatus m.status

/-- Runs a computation as a whole shell. -/
def asShell (e : Engine) (act : Run Unit) : Run Unit := do
  try act
  catch _ => pure ()
  runExitTrap e

/-- Lets the present program act on the signals that traps name, and ignore those with an empty
action. -/
def armTraps : Run Unit := do
  let m ← get
  let caught := (m.traps.filter fun t => t.1 != 0 && !t.2.isEmpty).map Prod.fst
  let silenced := (m.traps.filter fun t => t.1 != 0 && t.2.isEmpty).map Prod.fst
  change fun w => w.changeProgram m.id fun p =>
    { p with caught, ignored := silenced ++ m.deaf }

/-- Runs a computation as a shell that another shell starts. Its traps count as unset except for
signals that are ignored, and it has no jobs. -/
def asSubshell (e : Engine) (act : Run Unit) : Run Unit := do
  modify fun m => { m with
    shownTraps := m.traps, traps := m.traps.filter fun t => t.2.isEmpty, jobs := []
    statusBefore := none }
  asShell e act

/-- Marks the background programs that have ended as noticed. -/
def notice : Run Unit := do
  if !(← get).jobs.isEmpty then
    let ended ← look fun w => (w.programs.filter (·.ended.isSome)).map (·.id)
    modify fun m => { m with
      jobs := m.jobs.map fun j => { j with
        noticed := j.noticed ++ j.members.filter fun i =>
          ended.contains i && !j.noticed.contains i } }

/-- Waits for a command in the foreground. -/
def waitForeground (id : Nat) : Run Nat := do
  let n ← waitStatus id
  notice
  return n

/-- Runs a computation as a program of its own and waits for it. -/
def inProgram (channels : List (Nat × Channel) → List (Nat × Channel)) (child : Run Unit) :
    Run Unit := do
  setStatus (← waitForeground (← start channels child))

/-- Records programs that are left to run on their own as a job. -/
def addJob (members : List Nat) : Run Unit :=
  modify fun m =>
    let number := (m.jobs.map (·.number)).foldl max 0 + 1
    { m with jobs := ⟨number, members, []⟩ :: m.jobs, background := members.getLast? }

/-- Starts a computation that is left to run on its own, with no input unless it is fed. -/
def startBackground (channels : List (Nat × Channel) → List (Nat × Channel)) (child : Run Unit) :
    Run Nat :=
  start channels do
    let id := (← get).id
    modify fun m => { m with deaf := [2, 3] ++ m.deaf }
    change fun w => w.changeProgram id fun p => { p with ignored := [2, 3] ++ p.ignored }
    child

end Run

end PatchSearch.Shell

/-!
What the builtins of a shell share: reading their options and numbers, writing what they have to
say, and quoting values so that a shell can read them again.
-/
namespace PatchSearch.Shell

/-- A builtin on its arguments. It leaves its status behind. -/
abbrev Builtin := List String → Run Unit

/-- A decimal number with blanks around it and an optional sign. -/
def decimal? (s : String) : Option Int :=
  let cs := s.toList.dropWhile isSpace
  let core := (cs.reverse.dropWhile isSpace).reverse
  integer? (String.ofList core)

/-- A text in single quotes; single quotes inside of it stand in double quotes. -/
def singleQuoted (s : String) : String :=
  let rec go : Nat → List Char → List Char
    | 0, _ => []
    | n + 1, cs =>
      let plain := cs.takeWhile (· != '\x27')
      let rest := cs.drop plain.length
      let quotes := rest.takeWhile (· == '\x27')
      let rest := rest.drop quotes.length
      ['\x27'] ++ plain ++ ['\x27'] ++
        (if quotes.isEmpty then [] else ['"'] ++ quotes ++ ['"']) ++
        (if rest.isEmpty then [] else go n rest)
  String.ofList (go (s.length + 1) s.toList)

example : singleQuoted "a'b" = "'a'\"'\"'b'" := by cbv

namespace Run

/-- A number that is not negative and not too large. -/
def number (s : String) : Run Nat := do
  match decimal? s with
  | some n => if 0 ≤ n && n ≤ 2147483647 then return n.toNat else refuse ("Illegal number: " ++ s)
  | none => refuse ("Illegal number: " ++ s)

/-- The letters of an argument, and whether the last of them still lacks its value. -/
def letters (plain valued : List Char) :
    List Char → Run (List (Char × String) × Option Char)
  | [] => return ([], none)
  | c :: cs => do
    if valued.contains c then
      if cs.isEmpty then return ([], some c) else return ([(c, String.ofList cs)], none)
    else if plain.contains c then
      let (more, pending) ← letters plain valued cs
      return ((c, "") :: more, pending)
    else refuse ("Illegal option -" ++ String.ofList [c])

/-- The options in front of the operands of a builtin, and the operands. -/
def options (plain valued : List Char) : List String → Run (List (Char × String) × List String)
  | [] => return ([], [])
  | "-" :: args => return ([], "-" :: args)
  | "--" :: args => return ([], args)
  | a :: args => do
    match a.toList with
    | '-' :: cs =>
      match ← letters plain valued cs, args with
      | (found, none), args => do
        let (more, rest) ← options plain valued args
        return (found ++ more, rest)
      | (found, some c), value :: args => do
        let (more, rest) ← options plain valued args
        return (found ++ (c, value) :: more, rest)
      | (_, some c), [] => refuse ("No arg for -" ++ String.ofList [c] ++ " option")
    | _ => return ([], a :: args)

/-- Marks a variable for started programs. -/
def exportVariable (name : String) : Run Unit :=
  modify fun m =>
    m.putVariable { (m.findVariable? name).getD { name, value := none } with exported := true }

/-- Writes the output of a builtin. What cannot be written makes it fail. -/
def answer (text : String) (status : Nat) : Run Unit := do
  setStatus status
  if !text.isEmpty then
    match ← write 1 text with
    | .ok _ => return
    | .error _ =>
      complain (((← get).running.getD "") ++ ": I/O error")
      setStatus 1

/-- Lets a builtin fail without ending the shell. -/
def failWith (status : Nat) (text : String) : Run Unit := do
  complain text
  setStatus status

end Run

end PatchSearch.Shell
