import PatchSearch.Shell.Arithmetic
import PatchSearch.Shell.Pattern
import PatchSearch.Shell.Run

/-!
Expansion of words: parameters, the output of commands, arithmetic, and the tilde for a home
directory. What a word may contain beyond that is run by an `Engine`.
-/
namespace PatchSearch.Shell

/-- How a command is run: whether its status is looked at, so that a failure does not end the
shell, and whether the shell ends after it anyway. -/
structure Stage where
  tested : Bool := false
  last : Bool := false

/-- How parts of a word are expanded. -/
structure Expansion where
  /-- Whether the word becomes fields. -/
  toFields : Bool := true
  isQuoted : Bool := false
  /-- Whether plain text outside of quotes is split like the value it stands for. -/
  splitsText : Bool := false
  /-- Whether a tilde at the start stands for a home directory, and one behind a colon too. -/
  tilde : Bool := true
  colonTilde : Bool := false

/-- What scripts need of the interpreter: running a command, running one as a program of its own,
expanding the words inside of words, and becoming another program, which tells why it cannot. -/
structure Engine where
  run : Stage → Command → Run Unit
  inner : Stage → Command → Run Unit
  expand : Expansion → List Part → Run (List Atom)
  become : List String → Run FileError

namespace Run

/-- Writes a message of the shell. -/
def complain (text : String) : Run Unit := do
  let m ← get
  let running := match m.running with
    | some name => name ++ ": "
    | none => ""
  tell (m.name ++ ": " ++ toString m.line ++ ": " ++ running ++ text ++ "\n")

/-- Stops with a message of the shell. -/
def refuse {β : Type} (text : String) : Run β := do
  complain text
  setStatus 2
  throw .failed

def lookup? (name : String) : Run (Option String) := do
  return (← get).value? name

/-- Gives a value to a variable. -/
def setVariable (name value : String) : Run Unit := do
  match (← get).findVariable? name with
  | some v => if v.fixed then refuse (name ++ ": is read only")
  | none => pure ()
  modify fun m =>
    let m := m.assign name value false
    if name == "OPTIND" then
      { m with optionIndex := max 1 ((integer? value).getD 1).toNat, letter := 0 }
    else m

/-- The characters that set fields apart. -/
def separators : Run (List Char) := do
  match ← lookup? "IFS" with
  | some s => return s.toList
  | none => return [' ', '\t', '\n']

/-- Waits until a program has ended, and forgets it. -/
def waitEnd (id : Nat) : Run ExitStatus := do
  await fun w => (w.ended? id).isSome || (w.program? id).isNone
  act fun w => ((w.ended? id).getD (.code 127), w.forget id)

end Run

/-- What a signal that ended a program is called. -/
def signalWords (n : Nat) : String :=
  let names := ["Hangup", "Interrupt", "Quit", "Illegal instruction", "Trace/breakpoint trap",
    "Aborted", "Bus error", "Floating point exception", "Killed", "User defined signal 1",
    "Segmentation fault", "User defined signal 2", "Broken pipe", "Alarm clock", "Terminated",
    "Stack fault", "Child exited", "Continued", "Stopped (signal)", "Stopped",
    "Stopped (tty input)", "Stopped (tty output)", "Urgent I/O condition",
    "CPU time limit exceeded", "File size limit exceeded", "Virtual timer expired",
    "Profiling timer expired", "Window changed", "I/O possible", "Power failure",
    "Bad system call"]
  if n < 32 then (names[n - 1]?).getD "" else "Real-time signal " ++ toString (n - 34)

namespace Run

/-- The status that the end of a program counts as. -/
def statusNumber : ExitStatus → Nat
  | .code n => n
  | .signal n => 128 + n

/-- Tells that a signal ended a program, unless the signal is an everyday one. -/
def report : ExitStatus → Run Unit
  | .signal n => if n != 2 && n != 13 then tell (signalWords n ++ "\n") else return
  | .code _ => return

/-- Waits for a program as a shell does for the commands in its foreground. -/
def waitStatus (id : Nat) : Run Nat := do
  let s ← waitEnd id
  report s
  return statusNumber s

/-- Keeps a channel for later under a descriptor of its own, as long as a computation runs. -/
def keepingChannel {β : Type} (c : Channel) (act : Run β) : Run β := do
  let d := keptFrom + (← get).keeping
  modify fun m => { m with keeping := m.keeping + 1 }
  setChannel d (some c)
  ensuring act do
    setChannel d none
    modify fun m => { m with keeping := m.keeping - 1 }

/-- What a program writes to its standard output. Its status is kept apart. -/
def captured (child : Run Unit) : Run String := do
  let i ← newPipe ""
  keepingChannel (.source i) do
    let id ← start (fun cs =>
      (1, .sink i) :: cs.filter fun c => c.1 != 1 && c.2 != .source i) child
    let text ← readAll (.source i)
    let n ← waitStatus id
    modify fun m => { m with innerStatus := n }
    return text.toOption.getD ""

end Run

/-- What stands between the arguments when they are taken as one text. -/
def joint (separators : Option String) : String :=
  match separators with
  | none => " "
  | some s => String.ofList (s.toList.take 1)

/-- The value of a parameter. -/
def parameterValue (toFields isQuoted : Bool) (name : String) : Run (Option String) := do
  let m ← get
  let joined (separator : String) : Option String := some (String.intercalate separator m.args)
  match name with
  | "?" => return some (toString m.status)
  | "#" => return some (toString m.args.length)
  | "$" => return some (toString m.shell)
  | "!" => return m.background.map toString
  | "-" => return some (String.ofList (m.options.reverse.filter Char.isAlpha))
  | "@" => return joined (if toFields then "\x00" else joint (m.value? "IFS"))
  | "*" => return joined (if toFields && !isQuoted then "\x00" else joint (m.value? "IFS"))
  | name =>
    match integer? name with
    | some 0 => return some m.name
    | some n => return m.args[n.toNat - 1]?
    | none => return m.value? name

/-- A value as it stands in a word. -/
def valueAtoms (name : String) (isQuoted hasArgs : Bool) (value : String) : List Atom :=
  let marks := value.toList.map fun c => (c, isQuoted)
  if !isQuoted then [.stretch false marks]
  else if name == "@" then if hasArgs then [.stretch true marks] else []
  else literal true value

/-- A text that stands in for a value that is missing. -/
def refuseMissing {β : Type} (e : Engine) (name : String) (alsoEmpty : Bool) (word : List Part) :
    Run β := do
  if word.isEmpty then
    Run.refuse (name ++ ": parameter not set" ++ if alsoEmpty then " or null" else "")
  else
    let text := atomText (← e.expand { toFields := false } word)
    Run.refuse (name ++ ": " ++ text)

/-- A parameter in a word. -/
def expandParameter (e : Engine) (x : Expansion) (name : String) (change : Change) :
    Run (List Atom) := do
  let value ← parameterValue x.toFields x.isQuoted name
  let shown (value : Option String) : Run (List Atom) := do
    let hasArgs := !(← get).args.isEmpty
    return valueAtoms name x.isQuoted hasArgs (value.getD "")
  let required : Run Unit := do
    if value.isNone && (← get).has 'u' then Run.refuse (name ++ ": parameter not set")
  let inner : Expansion := { x with tilde := true, colonTilde := false, splitsText := true }
  match change with
  | .keep =>
    required
    shown value
  | .size =>
    required
    return valueAtoms "" x.isQuoted false (toString (value.getD "").length)
  | .fallback kind alsoEmpty word =>
    let missing := value.all fun s => alsoEmpty && s.isEmpty
    match kind with
    | .replace => if missing then shown none else e.expand inner word
    | .supply => if missing then e.expand inner word else shown value
    | .assign =>
      if missing then
        let text := atomText (← e.expand { inner with toFields := false } word)
        if !isName name then Run.refuse (name ++ ": bad variable name")
        Run.setVariable name text
        shown (some text)
      else shown value
    | .refuse => if missing then refuseMissing e name alsoEmpty word else shown value
  | .cut atEnd longest word =>
    required
    let p := atomPattern (← e.expand { toFields := false } word)
    shown (some (String.ofList (cutPattern atEnd longest p (value.getD "").toList)))
  | .invalid => Run.refuse "Bad substitution"

/-- A text without the line feeds at its end. -/
def withoutFinalBreaks (s : String) : String :=
  String.ofList ((s.toList.filter (· != '\x00')).reverse.dropWhile (· == '\n')).reverse

/-- The number of an expression. -/
def expandArithmetic (e : Engine) (expression : List Part) : Run String := do
  let asQuoted : Expansion := { toFields := false, isQuoted := true, tilde := false }
  let text := atomText (← e.expand asQuoted expression)
  let m ← get
  let fixed := (m.bindings.filter (·.fixed)).map (·.name)
  let values := m.bindings.filterMap fun v => v.value.map (v.name, ·)
  match Arithmetic.evaluate fixed values text with
  | .ok (n, after) =>
    for (name, value) in (after.take (after.length - values.length)).reverse do
      Run.setVariable name value
    return toString n
  | .error fault => Run.refuse (fault.message text)

/-- The home directory of a user; no name stands for the present one. -/
def homeOf (name : String) : Run (Option String) := do
  match name with
  | "" => return (← Run.lookup? "HOME")
  | "root" => return some "/root"
  | _ => return none

/-- Plain text with the tildes in it expanded. `atStart` tells whether a tilde may come first, and
`atEnd` whether the word ends behind the text. The number bounds the pieces. -/
def expandTildes (colons atEnd : Bool) : Nat → Bool → List Char → Run (List Part)
  | 0, _, cs => return [.plain (String.ofList cs)]
  | n + 1, atStart, cs => do
    let later (front cs : List Char) : Run (List Part) := do
      let piece := if colons then cs.takeWhile (· != ':') else cs
      let front := front ++ piece
      let rest := cs.drop piece.length
      let kept : List Part := if front.isEmpty then [] else [.plain (String.ofList front)]
      match rest with
      | c :: rest =>
        return kept ++ [.plain (String.ofList [c])] ++ (← expandTildes colons atEnd n true rest)
      | [] => return kept
    match atStart, cs with
    | true, '~' :: rest =>
      let name := rest.takeWhile fun c => c != '/' && !(colons && c == ':')
      let after := rest.drop name.length
      if after.isEmpty && !atEnd then later [] cs
      else
        match ← homeOf (String.ofList name) with
        | some home => return .escaped home :: (← later [] after)
        | none => later ('~' :: name) after
    | _, cs => later [] cs

/-- Parts of a word with the tildes in it expanded. -/
def withTildes (x : Expansion) : Bool → List Part → Run (List Part)
  | _, [] => return []
  | first, .plain s :: ps => do
    let found ← if s.toList.contains '~' then
        expandTildes x.colonTilde ps.isEmpty (s.length + 1) first s.toList
      else pure [.plain s]
    return found ++ (← withTildes x false ps)
  | _, p :: ps => return p :: (← withTildes x false ps)

/-- Plain text in a word. -/
def textAtoms (x : Expansion) (s : String) : List Atom :=
  if x.splitsText && !x.isQuoted then [.stretch false (s.toList.map fun c => (c, false))]
  else literal x.isQuoted s

/-- The atoms of a part. -/
def expandPart (e : Engine) (x : Expansion) : Part → Run (List Atom)
  | .plain s => return textAtoms x s
  | .escaped s => return literal true s
  | .quoted [.parameter "@" .keep] =>
    expandParameter e { x with isQuoted := true } "@" .keep
  | .quoted ps => do
    return .trace :: (← e.expand { x with isQuoted := true, tilde := false } ps) ++ [.trace]
  | .parameter name change => expandParameter e x name change
  | .output script => do
    if script.isNothing then return []
    let text := withoutFinalBreaks (← Run.captured (e.inner { last := true } script))
    return valueAtoms "" x.isQuoted false text
  | .arithmetic expression => do
    return valueAtoms "" x.isQuoted false (← expandArithmetic e expression)

/-- The atoms of parts. -/
def expandEach (e : Engine) (x : Expansion) : List Part → Run (List Atom)
  | [] => return []
  | p :: ps => do
    let first ← expandPart e x p
    let rest ← expandEach e x ps
    return first ++ rest

/-- The atoms of parts, after the tildes in them. -/
def expandParts (e : Engine) (x : Expansion) (ps : List Part) : Run (List Atom) := do
  if x.isQuoted || !(x.tilde || x.colonTilde) then expandEach e x ps
  else expandEach e x (← withTildes x x.tilde ps)

/-- The fields of a word. -/
def expandWord (e : Engine) (w : Word) : Run (List String) := do
  let fields := fieldsOf (← Run.separators) (← e.expand {} w)
  if (← get).has 'f' then return fields.map fun f => String.ofList (f.map Prod.fst)
  else if fields.any isPattern then
    let files ← Run.files
    return fields.flatMap (globField files)
  else return fields.map fun f => String.ofList (f.map Prod.fst)

/-- The fields of words. -/
def expandWords (e : Engine) (ws : List Word) : Run (List String) := do
  return (← ws.mapM (expandWord e)).flatten

/-- A word as one text. -/
def expandText (e : Engine) (w : Word) : Run String := do
  return atomText (← e.expand { toFields := false } w)

/-- The value that is assigned to a variable. -/
def expandValue (e : Engine) (w : Word) : Run String := do
  return atomText (← e.expand { toFields := false, colonTilde := true } w)

end PatchSearch.Shell
