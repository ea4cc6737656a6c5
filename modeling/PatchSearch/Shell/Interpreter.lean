import PatchSearch.Shell.Builtin.Control
import PatchSearch.Shell.Utility.Launching

/-!
Running commands. Each construct is run by a function that takes an `Engine` for the commands
inside it. A failure ends the shell if its option says so, except where the status is looked at. A
command after which the shell ends anyway takes over the shell's own program where it can.
-/
namespace PatchSearch.Shell

open Run

/-- The deepest nesting of functions. -/
def maxDepth : Nat := 1000

/-- How long a builtin takes. -/
def builtinTime : Nat := 6000

/-- The fields of the first word that has any, and the words behind it. -/
def firstFields (e : Engine) : List Word → Run (List String × List Word)
  | [] => return ([], [])
  | w :: ws => do
    let fields ← expandWord e w
    if fields.isEmpty then firstFields e ws else return (fields, ws)

/-- A simple command whose words are being expanded. -/
structure Unfolding where
  /-- Fields that only tell how to run the command. -/
  front : List String := []
  /-- The fields so far, its name first. -/
  fields : List String
  rest : List Word

namespace Unfolding

/-- Sees to a first field if there are words that have any. -/
def filled (e : Engine) (u : Unfolding) : Run Unfolding := do
  if u.fields.isEmpty then
    let (fields, rest) ← firstFields e u.rest
    return { u with fields, rest }
  else return u

/-- The command behind `command` and its options, if there is one. The second result holds what
was expanded, also if there is none. -/
def behind (e : Engine) (name : String) : Nat → Unfolding → Run (Bool × Unfolding)
  | 0, u => return (false, u)
  | n + 1, u => do
    let u ← u.filled e
    let skipped (f : String) (rest : List String) : Unfolding :=
      { u with front := u.front ++ [f], fields := rest }
    let whole : Unfolding := { u with front := [], fields := name :: u.front ++ u.fields }
    match u.fields with
    | [] => return (false, whole)
    | f :: rest =>
      match f.toList with
      | ['-', '-'] => do
        let v ← (skipped f rest).filled e
        if v.fields.isEmpty then return (false, { v with front := [], fields := name :: v.front })
        else return (true, v)
      | '-' :: c :: cs =>
        if (c :: cs).all (· == 'p') then
          let (found, v) ← behind e name n (skipped f rest)
          return (found, v)
        else return (false, whole)
      | _ => return (true, u)

/-- All fields as they were written. -/
def shown (u : Unfolding) : List String :=
  u.front ++ u.fields

end Unfolding

/-- What a command stands for, and whether its errors end the shell. -/
structure Resolved where
  unfolding : Unfolding
  meaning : Meaning
  isSpecial : Bool

/-- Looks up what a command stands for, which may be named behind `command`. -/
def resolve (e : Engine) : Nat → Bool → Option Bool → Unfolding → Run Resolved
  | 0, _, special, u => return ⟨u, .program, special.getD false⟩
  | n + 1, functions, special, u => do
    let name := u.fields.headD ""
    match ← meaningOf functions name with
    | .builtin =>
      let special := special.getD (isSpecialBuiltin name)
      if name == "command" then
        let (found, v) ← Unfolding.behind e name maxDepth
          { u with front := [], fields := u.fields.drop 1 }
        if found then
          resolve e n false special { v with front := u.front ++ name :: v.front }
        else return ⟨{ v with front := u.front }, .builtin, special⟩
      else return ⟨u, .builtin, special⟩
    | meaning => return ⟨u, meaning, special.getD false⟩

/-- The fields of an argument. An assignment among the arguments of some builtins is one field. -/
def argumentFields (e : Engine) (assigning : Bool) (w : Word) : Run (List String) := do
  match if assigning then w.assignment? else none with
  | some (name, value) => return [name ++ "=" ++ (← expandValue e value)]
  | none => expandWord e w

/-- Waits for the end of a program in the foreground that runs a computation. -/
def runApart (child : Run Unit) : Run Unit :=
  inProgram id child

/-- Runs a program by its words, in place of the shell if that ends anyway. -/
def runExternal (e : Engine) (st : Stage) (words : List String) : Run Unit := do
  let name := words.headD ""
  let m ← get
  let found ← findProgram name
  match found with
  | .error cause =>
    if name.toList.contains '/' then
      runApart do
        complain (name ++ ": " ++ execCause cause)
        setStatus (execStatus cause)
    else
      complain (name ++ ": " ++ execCause cause)
      setStatus 127
  | .ok (path, _) =>
    if !name.toList.contains '/' && (m.looked.lookup name).isNone then
      modify fun m => { m with looked := m.looked ++ [(name, path)] }
    if st.last && m.traps.isEmpty then
      becomeOrComplain e words
      throw .exit
    else runApart (becomeOrComplain e words)

/-- Runs a function on arguments. -/
def callFunction (e : Engine) (st : Stage) (body : Command) (args : List String) : Run Unit := do
  let before ← get
  if maxDepth ≤ before.depth then
    refuse ("Maximum function recursion depth (" ++ toString maxDepth ++ ") reached")
  set { before with args, depth := before.depth + 1, loops := 0, optionIndex := 1, letter := 0 }
  let leave : Run Unit := modify fun m => { m with
    args := before.args, depth := before.depth, loops := before.loops
    optionIndex := before.optionIndex, letter := before.letter }
  ensuring
    (try e.run { tested := st.tested } body
      catch
        | .returned => return
        | stop => throw stop)
    leave

/-- Runs a builtin. Its errors end the shell only if it is a special one. -/
def callBuiltin (special : Bool) (name : String) (act : Run Unit) : Run Unit := do
  let before := (← get).running
  pause builtinTime
  modify fun m => { m with running := some name }
  ensuring
    (try act
      catch
        | .failed => if special then throw .failed
        | stop => throw stop)
    (modify fun m => { m with running := before })

/-- Writes a command that is about to run, behind a mark that can hold parameters. -/
def trace (e : Engine) (errors : Option Channel) (assignments : List (String × String))
    (fields : List String) : Run Unit := do
  let m ← get
  if m.has 'x' then
    let text := (m.value? "PS4").getD ""
    let mark ← match parameterText? text with
      | some w => do pure (atomText (← e.expand { toFields := false, isQuoted := true } w))
      | none => pure text
    let words := assignments.map (fun a => a.1 ++ "=" ++ a.2) ++ fields
    discard (writeTo errors (mark ++ String.intercalate " " words ++ "\n"))

/-- Gives values to variables, perhaps only for a while. -/
def assignAll (e : Engine) (isLocal exported : Bool) :
    List (String × Word) → Run (List (String × String))
  | [] => return []
  | (name, word) :: rest => do
    let value ← expandValue e word
    if isLocal then keepVariable name
    setVariable name value
    if isLocal || exported then exportVariable name
    return (name, value) :: (← assignAll e isLocal exported rest)

/-- Runs a computation that can change variables for its own time. -/
def withLocals (isLocal : Bool) (act : Run Unit) : Run Unit := do
  if isLocal then
    modify fun m => { m with locals := [] :: m.locals }
    ensuring act restoreLocals
  else act

/-- Runs a simple command whose words stand for something. -/
def runResolved (e : Engine) (st : Stage) (assignments : List (String × Word))
    (rs : List Redirection) (r : Resolved) : Run Unit := do
  let name := r.unfolding.fields.headD ""
  let isBuiltin := match r.meaning with
    | .builtin => true
    | _ => false
  let assigning := isBuiltin && assigningBuiltins.contains name
  let more ← r.unfolding.rest.mapM (argumentFields e assigning)
  let args := r.unfolding.fields.drop 1 ++ more.flatten
  let errors ← channel? 2
  let openings ← rs.mapM (opening e)
  let isExec := isBuiltin && name == "exec"
  let isLocal := !(isBuiltin && r.isSpecial)
  let body : Run Unit := withLocals isLocal do
    let values ← assignAll e isLocal (isExec && !args.isEmpty) assignments
    trace e errors values (r.unfolding.front ++ name :: args)
    match r.meaning with
    | .function _ body => callFunction e st body args
    | .builtin => callBuiltin r.isSpecial name (runBuiltin e st name args)
    | .program => runExternal e st (name :: args)
  let failed : Run Unit := do
    setStatus 2
    if r.isSpecial then throw .failed
  if isExec then
    if ← follow openings then body else failed
  else
    match ← under openings body with
    | some _ => return
    | none => failed

/-- Runs a simple command. -/
def runSimple (e : Engine) (st : Stage) (line : Nat) (assignments : List (String × Word))
    (words : List Word) (rs : List Redirection) : Run Unit := do
  modify fun m => { m with line, innerStatus := 0 }
  let (fields, rest) ← firstFields e words
  if fields.isEmpty then
    let errors ← channel? 2
    let openings ← rs.mapM (opening e)
    let body : Run Unit := do
      let values ← assignAll e false false assignments
      trace e errors values []
      setStatus (← get).innerStatus
    match ← under openings body with
    | some _ => return
    | none => setStatus 2
  else runResolved e st assignments rs (← resolve e maxDepth true none { fields, rest })

/-- Runs the body of a loop; whether the loop goes on. -/
def runRound (body : Run Unit) : Run Bool := do
  try
    body
    return true
  catch
    | .breaks n => if n ≤ 1 then return false else throw (.breaks (n - 1))
    | .continues n => if n ≤ 1 then return true else throw (.continues (n - 1))
    | stop => throw stop

/-- Runs a loop, which counts as running as long as it does not end. -/
def inLoop (loop : Run Unit) : Run Unit := do
  let before := (← get).loops
  modify fun m => { m with loops := before + 1 }
  ensuring loop (modify fun m => { m with loops := before })

/-- Runs a loop with a condition. The status is the one of the last round. -/
def runRepeated (untilHolds : Bool) (condition body : Run Unit) : Nat → Nat → Run Unit
  | 0, _ => forever
  | n + 1, last => do
    let holds : Option Bool ← try
        condition
        pure (some (((← status) == 0) != untilHolds))
      catch
        | .breaks k => if k ≤ 1 then pure (some false) else throw (.breaks (k - 1))
        | .continues k => if k ≤ 1 then pure none else throw (.continues (k - 1))
        | stop => throw stop
    match holds with
    | some true =>
      if ← runRound body then runRepeated untilHolds condition body n (← status)
    | some false => setStatus last
    | none => runRepeated untilHolds condition body n last

/-- Runs a loop over fields. -/
def runEach (name : String) (body : Run Unit) : List String → Run Unit
  | [] => return
  | f :: fs => do
    setVariable name f
    if ← runRound body then runEach name body fs

/-- The most rounds of a loop. -/
def maxRounds : Nat := 1000000000000

/-- Whether one of several patterns stands for a text. -/
def matchesOne (e : Engine) (text : String) : List Word → Run Bool
  | [] => return false
  | p :: ps => do
    let pattern := atomPattern (← e.expand { toFields := false } p)
    if matchesPattern pattern text.toList then return true
    else matchesOne e text ps

/-- The body of the first branch with a matching pattern. -/
def selected (e : Engine) (text : String) : List (List Word × Command) → Run Command
  | [] => return .nothing
  | (patterns, body) :: rest => do
    if ← matchesOne e text patterns then return body else selected e text rest

/-- Starts commands that feed each other. `source` is the pipe that feeds the first of them. -/
def startFeeding (e : Engine) (st : Stage) (background : Bool) (source : Option Nat) :
    List Command → Run (List Nat)
  | [] => return []
  | c :: cs => do
    let sink ← if cs.isEmpty then pure none else do pure (some (← newPipe ""))
    let ends : List Channel :=
      source.toList.map Channel.source ++ sink.toList.map Channel.source
    let channels (inherited : List (Nat × Channel)) : List (Nat × Channel) :=
      let kept := inherited.filter fun c => !ends.contains c.2
      let fed := match source with
        | some i => (0, .source i) :: kept.filter (·.1 != 0)
        | none => if background then (0, .nowhere) :: kept.filter (·.1 != 0) else kept
      match sink with
      | some i => (1, .sink i) :: fed.filter (·.1 != 1)
      | none => fed
    let child := e.inner { tested := st.tested } c
    let launch : Run (List Nat) := do
      let id ← if background then startBackground channels child else start channels child
      return id :: (← startFeeding e st background sink cs)
    match sink with
    | some i => keepingChannel (.source i) launch
    | none => launch

/-- Waits for programs; the status is the one of the last. -/
def waitAll : List Nat → Run Unit
  | [] => return
  | id :: ids => do
    setStatus (← waitForeground id)
    waitAll ids

/-- Runs what is left of a command under redirections that belong to a program of its own. -/
def underOwn (openings : List Opening) (body : Run Unit) : Run Unit := do
  if ← follow openings then body
  else
    setStatus 2
    throw .failed

/-- Runs a command, apart from what is looked at before and after every one. -/
def runCommand (e : Engine) (st : Stage) : Command → Run Unit
  | .nothing => return
  | .simple line assignments words rs => runSimple e st line assignments words rs
  | .pipeline commands => do waitAll (← startFeeding e st false none commands)
  | .backgroundPipeline commands => do
    addJob (← startFeeding e st true none commands)
    setStatus 0
  | .redirected line body rs => do
    modify fun m => { m with line }
    let openings ← rs.mapM (opening e)
    match ← under openings (e.run { tested := st.tested } body) with
    | some _ => return
    | none => setStatus 2
  | .subshell line body rs => do
    modify fun m => { m with line }
    let openings ← rs.mapM (opening e)
    let child := underOwn openings (e.run { st with last := true } body)
    if st.last && (← get).traps.isEmpty then
      child
      throw .exit
    else runApart (asSubshell e child)
  | .background line body rs => do
    modify fun m => { m with line }
    let openings ← rs.mapM (opening e)
    let channels (inherited : List (Nat × Channel)) : List (Nat × Channel) :=
      (0, .nowhere) :: inherited.filter (·.1 != 0)
    let child := asSubshell e (underOwn openings (e.run { last := true } body))
    addJob [← startBackground channels child]
    setStatus 0
  | .both a b => do
    e.run { tested := true } a
    if (← status) == 0 then e.run st b
  | .either a b => do
    e.run { tested := true } a
    if (← status) != 0 then e.run st b
  | .sequence a b => do
    e.run { tested := st.tested } a
    e.run st b
  | .negated body => do
    e.run { tested := true } body
    setStatus (if (← status) == 0 then 1 else 0)
  | .choice condition body otherwise => do
    e.run { tested := true } condition
    if (← status) == 0 then e.run st body
    else if otherwise.isNothing then setStatus 0
    else e.run st otherwise
  | .repeated untilHolds condition body =>
    inLoop (runRepeated untilHolds (e.run { tested := true } condition)
      (e.run { tested := st.tested } body) maxRounds 0)
  | .each line name words body => do
    modify fun m => { m with line }
    let fields ← match words with
      | some ws => expandWords e ws
      | none => pure (← get).args
    if fields.isEmpty then setStatus 0
    else inLoop (runEach name (e.run { tested := st.tested } body) fields)
  | .select line word branches => do
    modify fun m => { m with line }
    let body ← selected e (← expandText e word) branches
    if body.isNothing then setStatus 0 else e.run st body
  | .define line name body => do
    modify fun m => { m with
      functions := (name, line, body) :: m.functions.filter (·.1 != name)
      looked := m.looked.filter (·.1 != name) }
    setStatus 0

/-- Whether the status of a command is one that ends a shell that gives up on failures. -/
def isDecisive : Command → Bool
  | .simple _ _ _ _ => true
  | .pipeline _ => true
  | .backgroundPipeline _ => true
  | .subshell _ _ _ => true
  | .background _ _ _ => true
  | _ => false

/-- Runs a command. -/
def evaluate (e : Engine) (st : Stage) (c : Command) : Run Unit := do
  if !(← get).has 'n' then
    runTraps e
    runCommand e st c
    runTraps e
    let m ← get
    if isDecisive c && !st.tested && m.status != 0 && m.has 'e' then throw .exit

/-- Runs a shell on a text. -/
def runShellText (e : Engine) (text : String) (isWhole : Bool) : Run Unit :=
  asShell e (runText e { last := isWhole } text)

/-- The letters of the options in front of the arguments of a shell, the names of further options,
and the arguments behind. -/
def startOptions : Nat → List String → Run (Bool × List String)
  | 0, args => return (false, args)
  | n + 1, args => do
    let rec each (on : Bool) : List Char → List String → Run (Bool × List String)
      | [], rest => return (false, rest)
      | 'c' :: cs, rest => do
        let (_, rest) ← each on cs rest
        return (true, rest)
      | 'l' :: cs, rest => each on cs rest
      | 'o' :: cs, name :: rest => do
        match shellOptions.lookup name with
        | some c =>
          setOption c on
          each on cs rest
        | none => refuse ("Illegal option -o " ++ name)
      | c :: cs, rest => do
        if shellOptions.any (·.2 == c) then
          setOption c on
          each on cs rest
        else refuse ("Illegal option " ++ (if on then "-" else "+") ++ String.ofList [c])
    match args with
    | [] => return (false, [])
    | a :: rest =>
      match a.toList with
      | ['-'] => return (false, rest)
      | ['-', '-'] => return (false, rest)
      | '-' :: cs => do
        let (command, rest) ← each true cs rest
        let (more, rest) ← startOptions n rest
        return (command || more, rest)
      | '+' :: cs => do
        let (command, rest) ← each false cs rest
        let (more, rest) ← startOptions n rest
        return (command || more, rest)
      | _ => return (false, args)

/-- The variables that a shell starts with. -/
def startVariables (m : Memory) (starter : Nat) : List Variable :=
  let own (name value : String) : Variable := { name, value := some value }
  let inherited := m.bindings.filter fun v =>
    v.exported && v.value.isSome && isName v.name && v.name != "IFS"
  let fresh := [own "IFS" " \t\n", own "OPTIND" "1", own "PPID" (toString starter),
    own "PS1" "# ", own "PS2" "> ", own "PS4" "+ "]
  inherited.map (fun v => { v with fixed := false }) ++
    fresh.filter fun v => !inherited.any (·.name == v.name)

/-- Runs a shell on its arguments. -/
def runShell (e : Engine) (program : String) (args : List String) : Run Unit := do
  let m ← get
  let (starter, deaf) ← look fun w =>
    match w.program? m.id with
    | some p => (p.parent, p.ignored)
    | none => (0, [])
  let here := octets (FileTree.positionText m.here)
  let physical ← files
  let place := (m.value? "PWD").filter fun s =>
    s.toList.head? == some '/' && !(s.splitOn "/").any (fun n => n == "." || n == "..") &&
      match physical.find (textOfOctets s) with
      | .ok (p, _) => p == m.here
      | .error _ => false
  set { id := m.id, here := m.here, shell := m.id, starter, name := program, deaf, line := 0
        bindings := startVariables m starter, mask := m.mask, place : Memory }
  setVariable "PWD" (place.getD here)
  exportVariable "PWD"
  let begun : Option (Bool × List String) ← try pure (some (← startOptions (args.length + 1) args))
    catch _ => pure none
  match begun with
  | none => return
  | some (true, []) =>
    complain "-c requires an argument"
    setStatus 2
  | some (true, text :: rest) =>
    modify fun m => { m with name := rest.headD program, args := rest.drop 1, line := 1 }
    runShellText e text (!(← get).has 's')
  | some (false, rest) =>
    if rest.isEmpty || (← get).has 's' then
      setOption 's' true
      modify fun m => { m with args := rest, line := 1 }
      let text ← match ← channel? 0 with
        | some c => pure ((← readAll c).toOption.getD "")
        | none => pure ""
      runShellText e text false
    else
      let file := rest.headD ""
      match ← openForReading file with
      | .error cause =>
        complain ("cannot open " ++ file ++ ": " ++ openFailure "No such file" cause)
        setStatus 2
      | .ok c =>
        modify fun m => { m with name := file, args := rest.drop 1, line := 1 }
        runShellText e ((← readAll c).toOption.getD "") false

/-- The engine for commands up to a depth. -/
def engine : Nat → Engine
  | 0 => ⟨fun _ _ => forever, fun _ _ => forever, fun _ _ => forever, fun _ => forever⟩
  | n + 1 =>
    { run := fun st c => evaluate (engine n) st c
      inner := fun st c =>
        asSubshell (engine n) (evaluate (engine n) { st with last := true } c)
      expand := fun x ps => expandParts (engine n) x ps
      become := fun words =>
        becomeProgram (runShell (engine n)) launchingUtilities maxDepth words }

/-- How deep commands may be nested. -/
def maxNesting : Nat := 1000000000

/-- Runs a program on arguments, in place of the present one. -/
def runProgram (words : List String) : Run Unit := do
  let _ ← (engine maxNesting).become words
  setStatus 127

end PatchSearch.Shell
