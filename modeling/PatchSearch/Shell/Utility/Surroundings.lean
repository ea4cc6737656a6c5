import PatchSearch.Shell.Redirect
import PatchSearch.Shell.Utility.Basic

/-!
What a name runs. A name without a slash is looked for in the directories of the search path, and
what a file runs is read off its first octets: a program of the system, a script with an
interpreter of its own, or a script for a shell.
-/
namespace PatchSearch.Shell

open Run

/-- What a file with a program of the system starts with; the program's name follows. -/
def programSign : String :=
  "\x7fELF"

/-- What a file runs. -/
inductive Runnable where
  | system (name : String)
  | interpreted (words : List String)
  | script

/-- What the first line of a script names behind its sign. -/
def interpreterWords (cs : List Char) : List String :=
  let isBlank (c : Char) : Bool := c == ' ' || c == '\t'
  let line := (cs.takeWhile (· != '\n')).dropWhile isBlank
  let name := line.takeWhile (!isBlank ·)
  let rest := ((line.drop name.length).dropWhile isBlank).reverse.dropWhile isBlank
  String.ofList name :: if rest.isEmpty then [] else [String.ofList rest.reverse]

/-- What a content runs. -/
def runnableOf (content : ByteArray) : Runnable :=
  let text := octetsOfBytes (content.extract 0 256)
  match text.toList with
  | '#' :: '!' :: cs => .interpreted (interpreterWords cs)
  | cs =>
    let sign := programSign.toList
    if sign.isPrefixOf cs then .system (String.ofList (cs.drop sign.length)) else .script

/-- What a path runs. -/
def runnableAt (t : FileTree) (path : String) : Except FileError Runnable := do
  if deviceNames.contains path then throw .permissionDenied
  let (p, e) ← t.find (textOfOctets path)
  match e, (t.item? p).any Item.isRunnable with
  | .file content, true => return runnableOf content
  | _, _ => throw .permissionDenied

/-- The paths that a name may stand for, given the search path. -/
def candidatePaths (searched name : String) : List String :=
  if name.toList.contains '/' then [name]
  else (searched.splitOn ":").map fun d => if d.isEmpty then name else d ++ "/" ++ name

theorem candidatePaths_of_mem {name : String} (searched : String) (h : '/' ∈ name.toList) :
    candidatePaths searched name = [name] := by
  simp [candidatePaths, h]

/-- The first of some paths that can be run, and what it runs. What stands there without being
allowed to run counts as a refusal. -/
def firstRunnable (t : FileTree) : List String → FileError → Except FileError (String × Runnable)
  | [], e => .error e
  | path :: rest, e =>
    match runnableAt t path with
    | .ok r => .ok (path, r)
    | .error .permissionDenied => firstRunnable t rest .permissionDenied
    | .error e' => firstRunnable t rest (if rest.isEmpty && e == .notFound then e' else e)

/-- Directories to search where none are given. -/
def plainSearchPath : String :=
  "/bin:/usr/bin"

/-- The paths that a name may stand for. -/
def candidates (name : String) : Run (List String) := do
  return candidatePaths (((← get).value? "PATH").getD plainSearchPath) name

/-- The path that a name stands for, and what it runs. -/
def findProgram (name : String) : Run (Except FileError (String × Runnable)) := do
  return firstRunnable (← files) (← candidates name) .notFound

/-!
Utilities about what surrounds a program: its time, its user, its machine, its variables and its
directory; and the two that do nothing but succeed or fail.
-/

/-- The nanoseconds of an interval such as `0.5` or `2m`. -/
def intervalNanos? (s : String) : Option Nat :=
  let cs := s.toList
  let whole := cs.takeWhile Char.isDigit
  let rest := cs.drop whole.length
  let (places, rest) := match rest with
    | '.' :: rest =>
      let ds := rest.takeWhile Char.isDigit
      (ds, rest.drop ds.length)
    | rest => ([], rest)
  let unit : Option Nat := match rest with
    | [] => some 1
    | ['s'] => some 1
    | ['m'] => some 60
    | ['h'] => some 3600
    | ['d'] => some 86400
    | _ => none
  let digits (ds : List Char) : Nat := ds.foldl (fun n c => 10 * n + (c.toNat - 48)) 0
  if whole.isEmpty && places.isEmpty then none
  else
    let billionths := (places ++ List.replicate 9 '0').take 9
    unit.map fun u => u * (digits whole * 1000000000 + digits billionths)

example : intervalNanos? "1.5m" = some 90000000000 := by decide

/-- The signal that a text names, perhaps with `SIG` in front. -/
def signalNumber? (s : String) : Option Nat :=
  match integer? s with
  | some n => if 0 ≤ n && n ≤ 64 then some n.toNat else none
  | none =>
    let upper := s.toUpper
    let name := if upper.startsWith "SIG" then String.ofList (upper.toList.drop 3) else upper
    let i := ExitStatus.signalNames.idxOf name
    if i < ExitStatus.signalNames.length then some (i + 1) else none

/-- `sleep`. -/
def sleepFor : Utility :=
  withOptions "sleep" {} fun o => do
    if o.operands.isEmpty then misuse "sleep" 1 "missing operand"
    for a in o.operands do
      if (intervalNanos? a).isNone && !(["inf", "infinity"].contains a) then
        warn "sleep" ("invalid time interval " ++ cited a)
        setStatus 1
    if (← status) != 0 then hint "sleep" 1
    for a in o.operands do
      match intervalNanos? a with
      | some n => pause n
      | none => forever

/-- `true`, `false` and others with nothing but a status. -/
def endWith (n : Nat) : Utility := fun _ =>
  setStatus n

/-- `pwd`. -/
def printPlace : Utility := fun _ => do
  setStatus 0
  emit "pwd" (octets (FileTree.positionText (← get).here) ++ "\n")

/-- `printenv`. -/
def printVariables : Utility := fun args => do
  let all := (← get).environment
  if args.isEmpty then
    setStatus 0
    emit "printenv" (joinLines (all.map fun v => v.1 ++ "=" ++ v.2))
  else
    let found := args.filterMap fun a => all.lookup a
    setStatus (if found.length = args.length then 0 else 1)
    emit "printenv" (joinLines found)

/-- `which`. -/
def showCommands : Utility := fun args => do
  let t ← files
  let showsAll := args.contains "-a"
  let names := args.filter (· != "-a")
  let mut isMissing := names.isEmpty
  for name in names do
    let found := (← candidates name).filter fun path => (runnableAt t path).isOk
    emit "which" (joinLines (if showsAll then found else found.take 1))
    if found.isEmpty then isMissing := true
  setStatus (if isMissing then 1 else 0)

/-- `uname`. -/
def printSystem : Utility :=
  withOptions "uname" { plain := "asnrvmpio" } fun o => do
    let all : List (Char × String) :=
      [('s', "Linux"), ('n', "localhost"), ('r', "6.1.0"), ('v', "#1 SMP"), ('m', "x86_64"),
        ('o', "GNU/Linux")]
    let shown := if o.flags.isEmpty then [('s', "Linux")]
      else all.filter fun f => o.has 'a' || o.has f.1
    emit "uname" (String.intercalate " " (shown.map Prod.snd) ++ "\n")

/-- `id`. -/
def printUser : Utility :=
  withOptions "id" { plain := "ugGnr" } fun o => do
    match o.operands with
    | u :: _ =>
      if u != "root" && u != "0" then fail "id" 1 (cited u ++ ": no such user")
    | [] => pure ()
    emit "id" <|
      if o.has 'n' then "root\n"
      else if o.has 'u' || o.has 'g' || o.has 'G' then "0\n"
      else "uid=0(root) gid=0(root) groups=0(root)\n"

/-- A utility that prints one fixed line. -/
def printLine (name line : String) : Utility := fun _ => do
  setStatus 0
  emit name (line ++ "\n")

/-- `tty`: there is no terminal. -/
def printTerminal : Utility := fun args => do
  setStatus 1
  if !args.contains "-s" then emit "tty" "not a tty\n"

end PatchSearch.Shell
