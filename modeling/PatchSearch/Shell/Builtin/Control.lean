import PatchSearch.Shell.Builtin.Basic
import PatchSearch.Shell.Builtin.Names
import PatchSearch.Shell.Builtin.Variables

/-!
Builtins for signals and for programs left to run on their own: sending signals, setting actions
for them, and waiting.
-/
namespace PatchSearch.Shell

open Run

/-- The number of signals, counting the end of a shell as one. -/
def signalCount : Nat := 65

/-- What a signal is called. -/
def signalName (n : Nat) : String :=
  if n = 0 then "EXIT"
  else if n = 16 || n = 32 || n = 33 then toString n
  else if n < 32 then (ExitStatus.signalNames[n - 1]?).getD ""
  else if n = 34 then "RTMIN"
  else if n = 64 then "RTMAX"
  else if n < 50 then "RTMIN+" ++ toString (n - 34)
  else "RTMAX-" ++ toString (64 - n)

def upperCase (s : String) : String :=
  String.ofList (s.toList.map Char.toUpper)

/-- The signal that a text names, by its number or, from a least one on, by its name. -/
def signal? (least : Nat) (s : String) : Option Nat :=
  if !s.isEmpty && s.toList.all Char.isDigit then
    (integer? s).bind fun n => if n.toNat < signalCount then some n.toNat else none
  else
    (List.range signalCount).find? fun n => least ≤ n && signalName n == upperCase s

/-- The job that a text names. -/
def job? (jobs : List Job) (text : String) : Option Job :=
  match text.toList with
  | ['%'] => jobs.head?
  | ['%', '%'] => jobs.head?
  | ['%', '+'] => jobs.head?
  | ['%', '-'] => jobs[1]?
  | '%' :: cs =>
    (integer? (String.ofList cs)).bind fun n => jobs.find? fun j => (j.number : Int) == n
  | _ => none

/-- Sends a signal to one target; whether there is one. -/
def sendTo (signal : Nat) (target : String) : Run Bool := do
  let m ← get
  let one (id : Nat) : Run Bool := do
    let isKnown ← look fun w => (w.program? id).isSome
    let gone := m.jobs.any fun j => j.noticed.contains id
    if isKnown && !gone then
      sendSignal id signal
      return true
    else return false
  if target.toList.head? == some '%' then
    match job? m.jobs target with
    | some j =>
      match j.members with
      | id :: _ => one id
      | [] => return false
    | none => refuse ("No such job: " ++ target)
  else if target.toList.head? == some '-' then
    discard (number (String.ofList (target.toList.drop 1)))
    return false
  else
    let id ← number target
    if id = 0 then
      for p in ← look fun w => w.programs.map (·.id) do
        sendSignal p signal
      return true
    else one id

def killUsage : String :=
  "Usage: kill [-s sigspec | -signum | -sigspec] [pid | job]... or\nkill -l [exitstatus]"

/-- Sends a signal to all targets. -/
def sendToAll (signal : Nat) (targets : List String) : Run Unit := do
  if targets.isEmpty then refuse killUsage
  setStatus 0
  for t in targets do
    if !(← sendTo signal t) then
      failWith 1 "No such process\n"

/-- The names of the signals, or the one of the signal that a status stands for. -/
def listSignals (args : List String) : Run Unit := do
  match args with
  | [] => answer ("0\n" ++ joinLines ((List.range signalCount).drop 1 |>.map signalName)) 0
  | a :: _ =>
    let n ← number a
    let n := if 128 < n then n - 128 else n
    if 0 < n && n < signalCount then answer (signalName n ++ "\n") 0
    else refuse ("invalid signal number or exit status: " ++ a)

/-- `kill`. -/
def killPrograms : Builtin := fun args => do
  match args with
  | [] => refuse killUsage
  | a :: rest =>
    match a.toList with
    | '-' :: cs =>
      match signal? 1 (String.ofList cs) with
      | some n => sendToAll n rest
      | none =>
        let (flags, targets) ← options ['l'] ['s'] args
        if flags.any (·.1 == 'l') then listSignals targets
        else
          match flags.reverse.find? (·.1 == 's') with
          | some (_, name) =>
            match signal? 1 name with
            | some n => sendToAll n targets
            | none => refuse ("invalid signal number or name: " ++ name)
          | none => sendToAll 15 targets
    | _ => sendToAll 15 args

/-- `trap`. -/
def setTraps : Builtin := fun args => do
  let (_, args) ← options [] [] args
  let m ← get
  match args with
  | [] =>
    let traps := if m.traps.isEmpty then m.shownTraps else m.traps
    let shown := (List.range signalCount).filterMap fun n => (traps.lookup n).map fun action =>
      "trap -- " ++ singleQuoted action ++ " " ++ signalName n
    answer (joinLines shown) 0
  | first :: rest =>
    let (action, conditions) : Option String × List String :=
      if rest.isEmpty || (signal? 0 first).isSome then (none, args) else (some first, rest)
    setStatus 0
    for c in conditions do
      if (← status) = 0 then
        match signal? 0 c with
        | none =>
          tell ("trap: " ++ c ++ ": bad trap\n")
          setStatus 1
        | some n =>
          modify fun m =>
            let others := m.traps.filter (·.1 != n)
            { m with
              shownTraps := []
              traps := match action with
                | none => others
                | some "-" => others
                | some text => (n, text) :: others }
    armTraps

/-- Waits for a program that is left to run on its own, or for a signal that is acted upon; the
status it ends with. -/
def waitMember (id : Nat) : Run (Option ExitStatus) := do
  let self := (← get).id
  let arrived (w : World) : Bool := (w.program? self).any fun p => !p.pending.isEmpty
  await fun w => (w.ended? id).isSome || arrived w
  look fun w => w.ended? id

/-- The first signal that has arrived. -/
def firstSignal : Run Nat := do
  let self := (← get).id
  look fun w => (((w.program? self).bind fun p => p.pending.head?)).getD 0

/-- Waits for a job and tells how its programs ended. -/
def waitJob (j : Job) : Run Nat := do
  let mut result := 127
  for id in j.members do
    match ← waitMember id with
    | some s =>
      if !j.noticed.contains id then report s
      result := statusNumber s
    | none => return 128 + (← firstSignal)
  notice
  return result

/-- `wait`. -/
def waitForJobs : Builtin := fun args => do
  let (_, args) ← options [] [] args
  if args.isEmpty then
    setStatus 0
    for j in (← get).jobs do
      for id in j.members do
        if (← status) = 0 then
          match ← waitMember id with
          | some _ => pure ()
          | none => setStatus (128 + (← firstSignal))
    notice
  else
    for a in args do
      let jobs := (← get).jobs
      let found ← if a.toList.head? == some '%' then
          match job? jobs a with
          | some j => pure (some j)
          | none => refuse ("No such job: " ++ a)
        else do
          let id ← number a
          pure (jobs.find? fun j => j.members.getLast? == some id)
      match found with
      | some j => setStatus (← waitJob j)
      | none => setStatus 127

/-- `jobs`. -/
def listJobs : Builtin := fun args => do
  let (_, _) ← options ['l', 'p'] [] args
  let m ← get
  let running ← look fun w => (w.programs.filter (·.ended.isNone)).map (·.id)
  let lines := m.jobs.reverse.filterMap fun j =>
    if j.members.any running.contains then
      let mark := if (m.jobs.head?).any (·.number == j.number) then "+"
        else if (m.jobs[1]?).any (·.number == j.number) then "-" else " "
      some ("[" ++ toString j.number ++ "] " ++ mark ++ " Running                    ")
    else none
  answer (joinLines lines) 0

end PatchSearch.Shell

/-!
Builtins that decide what runs next: leaving loops, functions and the shell, running texts and
files as scripts, and becoming another program. `runBuiltin` finds a builtin by its name.
-/
namespace PatchSearch.Shell

open Run

/-- Why a program cannot be run, in the words of a shell. -/
def execCause (e : FileError) : String :=
  openFailure "not found" e

/-- The status for a program that cannot be run. -/
def execStatus (e : FileError) : Nat :=
  if e == .permissionDenied || e == .isADirectory then 126 else 127

/-- Becomes another program, or tells why that cannot be. -/
def becomeOrComplain (e : Engine) (words : List String) : Run Unit := do
  let cause ← e.become words
  complain (words.headD "" ++ ": " ++ execCause cause)
  setStatus (execStatus cause)

/-- `exec` on arguments. -/
def execWords (e : Engine) : Builtin := fun args => do
  if args.isEmpty then setStatus 0
  else
    becomeOrComplain e args
    throw .exit

/-- `exit`. In the action of a trap the status is the one from before. -/
def exitShell : Builtin := fun args => do
  let m ← get
  match args.head? with
  | some a => setStatus (← number a)
  | none => setStatus (m.statusBefore.getD m.status)
  throw .exit

/-- `return`. -/
def returnStatus : Builtin := fun args => do
  let m ← get
  match args.head? with
  | some a => setStatus (← number a)
  | none => setStatus (m.statusBefore.getD m.status)
  throw .returned

/-- `break` and `continue`: how many loops are left, of those that run. -/
def leaveLoops (stop : Nat → Stop) : Builtin := fun args => do
  let n ← match args.head? with
    | some a => do
      let n ← number a
      if n = 0 then refuse ("Illegal number: " ++ a)
      pure n
    | none => pure 1
  let n := min n (← get).loops
  setStatus 0
  if n != 0 then throw (stop n)

/-- `eval`. -/
def runArguments (e : Engine) (st : Stage) : Builtin := fun args => do
  let args := if args.head? == some "--" then args.drop 1 else args
  if args.isEmpty then setStatus 0
  else runText e { tested := st.tested } (String.intercalate " " args)

/-- The path of a script to read in. -/
def scriptPath (name : String) : Run String := do
  if name.toList.contains '/' then return name
  else
    let t ← files
    match (← candidates name).find? fun p => t.isFile (path p) with
    | some p => return p
    | none => refuse (name ++ ": not found")

/-- `.`: runs a file as a part of the present script. -/
def includeScript (e : Engine) : Builtin := fun args => do
  let (_, args) ← options [] [] args
  match args.head? with
  | none => setStatus 0
  | some name =>
    let p ← scriptPath name
    match ← openForReading p with
    | .error cause => refuse ("cannot open " ++ p ++ ": " ++ openFailure "No such file" cause)
    | .ok c =>
      let text := (← readAll c).toOption.getD ""
      modify fun m => { m with running := some p }
      try runText e {} text
      catch
        | .returned => return
        | stop => throw stop

/-- `times`. -/
def printTimes : Builtin := fun _ =>
  answer "0m0.000000s 0m0.000000s\n0m0.000000s 0m0.000000s\n" 0

/-- `ulimit`: nothing is limited. -/
def printLimits : Builtin := fun args => do
  let (_, args) ← options "HSatfdscmlpnvwr".toList [] args
  answer (if args.isEmpty then "unlimited\n" else "") 0

/-- `fg` and `bg`: no job is under control. -/
def controlJob : Builtin := fun args =>
  match args.head? with
  | some a => refuse ("No such job: " ++ a)
  | none => refuse "No current job"

/-- Runs a builtin by its name. -/
def runBuiltin (e : Engine) (st : Stage) (name : String) : Builtin :=
  match name with
  | "." => includeScript e
  | ":" => fun _ => setStatus 0
  | "[" => testBracket
  | "alias" => setAliases
  | "break" => leaveLoops .breaks
  | "cd" => changeDirectory
  | "chdir" => changeDirectory
  | "command" => describeCommand
  | "continue" => leaveLoops .continues
  | "echo" => echoEscaped
  | "eval" => runArguments e st
  | "exec" => execWords e
  | "exit" => exitShell
  | "export" => exportVariables
  | "false" => fun _ => setStatus 1
  | "getopts" => nextOption
  | "hash" => listLooked
  | "jobs" => listJobs
  | "kill" => killPrograms
  | "local" => localVariables
  | "printf" => printFormatted
  | "pwd" => printDirectory
  | "read" => readVariables
  | "readonly" => fixVariables
  | "return" => returnStatus
  | "set" => setOptions
  | "shift" => shiftArguments
  | "test" => testWords
  | "times" => printTimes
  | "trap" => setTraps
  | "true" => fun _ => setStatus 0
  | "type" => describeNames
  | "ulimit" => printLimits
  | "umask" => setMask
  | "unalias" => removeAliases
  | "unset" => unsetNames
  | "wait" => waitForJobs
  | _ => controlJob

end PatchSearch.Shell
