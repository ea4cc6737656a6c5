import PatchSearch.Shell.Utility.Find
import PatchSearch.Shell.Utility.Rebuilding
import PatchSearch.Shell.Utility.Records
import PatchSearch.Shell.Utility.Surroundings

/-!
Utilities that run other programs: in other surroundings, for a limited time, or once for each
group of words that they read.
-/
namespace PatchSearch.Shell

open Run

/-- The status of a utility that could not become another program. -/
def launchStatus (e : FileError) : Nat :=
  if e == .notFound || e == .notADirectory then 127 else 126

/-- Becomes a program; failing that, tells the cause behind words about the program's name. -/
def becomeOr {β : Type} (become : List String → Run FileError) (name : String)
    (words : String → String) (command : List String) : Run β := do
  let e ← become command
  fail name (launchStatus e) (words (command.headD "") ++ ": " ++ causeText e)

/-- Words about a command that could not be run. -/
def failedToRun (command : String) : String :=
  "failed to run command " ++ cited command

/-- `env`. -/
def runInEnvironment : Launching := fun become args => do
  let args := args.map fun a => if a == "-" then "-i" else a
  let isSetting (s : String) : Bool := (s.toList.drop 1).contains '='
  let run (o : Options) : Run Unit := do
    if o.has 'i' then modify fun m => { m with bindings := [] }
    for name in o.values 'u' do
      modify fun m => m.restoreVariable name none
    let settings := o.operands.takeWhile isSetting
    for s in settings do
      let name := String.ofList (s.toList.takeWhile (· != '='))
      let value := String.ofList (s.toList.drop (name.length + 1))
      modify fun m => m.assign name value true
    if let some d := o.value? 'C' then
      match ← find d with
      | .ok (p, .directory) => modify fun m => { m with here := p }
      | .ok _ => fail "env" 125 ("cannot change directory to " ++ inQuotes d ++ ": Not a directory")
      | .error e =>
        fail "env" 125 ("cannot change directory to " ++ inQuotes d ++ ": " ++ causeText e)
    match o.operands.drop settings.length with
    | [] =>
      let ending := if o.has '0' then "\x00" else "\n"
      emit "env" (String.join ((← get).environment.map fun v => v.1 ++ "=" ++ v.2 ++ ending))
    | command => becomeOr become "env" cited command
  withOptions "env"
    { plain := "i0v", valued := "uC"
      long := [("ignore-environment", 'i'), ("null", '0'), ("unset", 'u'), ("chdir", 'C')] }
    run false 125 args

/-- `nohup`: the command does not end when the terminal goes away. -/
def runDetached : Launching := fun become args => do
  match if args.head? == some "--" then args.drop 1 else args with
  | [] => misuse "nohup" 125 "missing operand"
  | command =>
    let id := (← get).id
    change fun w => w.changeProgram id fun p => { p with ignored := 1 :: p.ignored }
    becomeOr become "nohup" ("failed to run command " ++ inQuotes ·) command

/-- `nice`: priorities make no difference. -/
def runNicely : Launching := fun become =>
  withOptions "nice" { valued := "n", long := [("adjustment", 'n')] }
    (fun o => do
      if o.operands.isEmpty then emit "nice" "0\n" else becomeOr become "nice" cited o.operands)
    false 125

/-- `setsid`: sessions make no difference either. -/
def runInSession : Launching := fun become =>
  withOptions "setsid" { plain := "fcw" }
    (fun o => do
      if o.operands.isEmpty then misuse "setsid" 1 "no command specified"
      else becomeOr become "setsid" ("failed to execute " ++ ·) o.operands)
    false

/-- `stdbuf`: all output goes out at once anyway. -/
def runUnbuffered : Launching := fun become =>
  withOptions "stdbuf"
    { valued := "ioe", long := [("input", 'i'), ("output", 'o'), ("error", 'e')] }
    (fun o => do
      if o.operands.isEmpty then misuse "stdbuf" 125 "missing operand"
      else if o.flags.isEmpty then misuse "stdbuf" 125 "you must specify a buffering mode option"
      else becomeOr become "stdbuf" failedToRun o.operands)
    false 125

/-- `timeout`: a helper with no descriptors sends the signal when the time is over. -/
def runLimited : Launching := fun become =>
  withOptions "timeout"
    { plain := "vf", valued := "ks"
      long := [("kill-after", 'k'), ("signal", 's'), ("preserve-status", 'p'),
        ("foreground", 'f'), ("verbose", 'v')] }
    (fun o => do
      let interval (s : String) : Run Nat := do
        match intervalNanos? s with
        | some n => return n
        | none => misuse "timeout" 125 ("invalid time interval " ++ cited s)
      let signal ← match o.value? 's' with
        | none => pure 15
        | some s =>
          match signalNumber? s with
          | some n => pure n
          | none => misuse "timeout" 125 (cited s ++ ": invalid signal")
      match o.operands with
      | limit :: command :: args => do
        let nanos ← interval limit
        let later ← match o.value? 'k' with
          | some s => do pure (some (← interval s))
          | none => pure none
        let child ← start id (becomeOr become "timeout" failedToRun (command :: args))
        let timer ← start (fun _ => []) do
          if nanos = 0 then forever
          pause nanos
          sendSignal child signal
          sendSignal child 18
        if let some more := later then
          discard <| start (fun _ => []) do
            pause (nanos + more)
            sendSignal child 9
        await fun w => (w.ended? child).isSome
        let expired := (← look fun w => w.ended? timer).isSome
        let status ← look fun w => (w.ended? child).getD (.code 127)
        sendSignal timer 9
        match status with
        | .code n => setStatus (if expired && !o.has 'p' then 124 else n)
        | .signal n =>
          if n = 9 || !expired then sendSignal (← get).id n
          setStatus (if expired && !o.has 'p' then 124 else 128 + n)
      | _ => hint "timeout" 125)
    false 125

/-- The words of a text: set apart by blanks, with quotes and backslashes. Nothing if a quote is
not closed. The second list of characters belongs to a word under construction. -/
def inputWords (quote : Option Char) (started : Bool) (word : List Char) :
    List Char → Option (List String)
  | [] =>
    if quote.isSome then none else some (if started then [String.ofList word.reverse] else [])
  | c :: cs =>
    match quote with
    | some q =>
      if c == q then inputWords none true word cs
      else if c == '\n' then none
      else inputWords quote true (c :: word) cs
    | none =>
      if isSpace c then
        if started then (inputWords none false [] cs).map (String.ofList word.reverse :: ·)
        else inputWords none false [] cs
      else if c == '\x27' || c == '"' then inputWords (some c) true word cs
      else if c == '\\' then
        match cs with
        | d :: cs => inputWords none true (d :: word) cs
        | [] => some (if started then [String.ofList word.reverse] else [])
      else inputWords none true (c :: word) cs

/-- Groups of so many items. -/
def grouped {β : Type} (size : Nat) : Nat → List β → List (List β)
  | 0, _ => []
  | _, [] => []
  | n + 1, items => items.take size :: grouped size n (items.drop size)

/-- `xargs`. -/
def runOnWords : Launching := fun become =>
  withOptions "xargs"
    { plain := "0rtx", valued := "nILdPsa"
      long := [("null", '0'), ("no-run-if-empty", 'r'), ("max-args", 'n'), ("max-lines", 'L'),
        ("delimiter", 'd'), ("max-procs", 'P'), ("verbose", 't'), ("replace", 'I'),
        ("arg-file", 'a')] }
    (fun o => do
      let text ← match ← readInput ((o.value? 'a').getD "-") with
        | .ok s => pure s
        | .error e =>
          let input := inQuotes ((o.value? 'a').getD "")
          fail "xargs" 1 ("Cannot open input file " ++ input ++ ": " ++ e)
      let command := if o.operands.isEmpty then ["echo"] else o.operands
      let separated (separator : String) : List String :=
        let parts := text.splitOn separator
        if parts.getLast? == some "" then parts.dropLast else parts
      let words ←
        if o.has '0' then pure (separated "\x00")
        else
          match o.value? 'd', o.value? 'I' with
          | some "\\n", _ => pure (splitLines text)
          | some "\\0", _ => pure (separated "\x00")
          | some "\\t", _ => pure (separated "\t")
          | some d, _ => pure (separated d)
          | none, some _ =>
            pure (((splitLines text).map fun l =>
              String.ofList (l.toList.dropWhile isSpace)).filter (!·.isEmpty))
          | none, none =>
            match inputWords none false [] text.toList with
            | some ws => pure ws
            | none => fail "xargs" 1 ("unmatched single quote; by default quotes are special to " ++
                "xargs unless you use the -0 option")
      let size : Option Nat := ((o.value? 'n').or (o.value? 'L')).bind fun s =>
        (integer? s).map Int.toNat
      let runs : List (List String) :=
        match o.value? 'I', size with
        | some mark, _ =>
          words.map fun w => command.map fun a => String.intercalate w (a.splitOn mark)
        | none, some n =>
          let groups :=
            if (o.value? 'n').isNone && (o.value? 'L').isSome then
              (grouped (max 1 n) text.length ((splitLines text).filter (!·.isEmpty))).map fun ls =>
                ls.flatMap fun l => (inputWords none false [] l.toList).getD []
            else grouped (max 1 n) text.length words
          groups.map (command ++ ·)
        | none, none =>
          (grouped 5000 text.length words).map (command ++ ·)
      let runs := if runs.isEmpty && !o.has 'r' && (o.value? 'I').isNone then [command] else runs
      setStatus 0
      for words in runs do
        if o.has 't' then tell (String.intercalate " " words ++ "\n")
        let child ← start (fun cs => (0, .nowhere) :: cs.filter (·.1 != 0)) do
          let e ← become words
          fail "xargs" (launchStatus e) (words.headD "" ++ ": " ++ causeText e)
        match ← waitEnd child with
        | .code 0 => pure ()
        | .code 255 =>
          fail "xargs" 124 (words.headD "" ++ ": exited with status 255; aborting")
        | .code 126 =>
          setStatus 126
          halt
        | .code 127 =>
          setStatus 127
          halt
        | .code _ => setStatus 123
        | .signal n => fail "xargs" 125 (words.headD "" ++ ": terminated by signal " ++ toString n))
    false

/-- The utilities that run other programs, by name. -/
def launchingUtilities : List (String × Launching) :=
  [("awk", runOnRecords), ("env", runInEnvironment), ("find", findFiles), ("make", rebuildFiles),
    ("mawk", runOnRecords), ("nawk", runOnRecords), ("nice", runNicely), ("nohup", runDetached), ("setsid", runInSession),
    ("stdbuf", runUnbuffered), ("timeout", runLimited), ("xargs", runOnWords)]

end PatchSearch.Shell
