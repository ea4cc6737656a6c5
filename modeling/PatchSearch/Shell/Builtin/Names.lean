import PatchSearch.Shell.Builtin.Basic
import PatchSearch.Shell.Utility.Archiving
import PatchSearch.Shell.Utility.Arguments
import PatchSearch.Shell.Utility.Characters
import PatchSearch.Shell.Utility.Checksums
import PatchSearch.Shell.Utility.Columns
import PatchSearch.Shell.Utility.Compare
import PatchSearch.Shell.Utility.Condition
import PatchSearch.Shell.Utility.Differences
import PatchSearch.Shell.Utility.Dump
import PatchSearch.Shell.Utility.Edit
import PatchSearch.Shell.Utility.Joining
import PatchSearch.Shell.Utility.Layout
import PatchSearch.Shell.Utility.Listing
import PatchSearch.Shell.Utility.Making
import PatchSearch.Shell.Utility.Numbers
import PatchSearch.Shell.Utility.Order
import PatchSearch.Shell.Utility.Packing
import PatchSearch.Shell.Utility.Paragraphs
import PatchSearch.Shell.Utility.Patching
import PatchSearch.Shell.Utility.Print
import PatchSearch.Shell.Utility.Search
import PatchSearch.Shell.Utility.Splitting
import PatchSearch.Shell.Utility.Surroundings
import PatchSearch.Shell.Utility.Units

/-!
The utilities by name, except for those that run other programs.
-/
namespace PatchSearch.Shell

def utilities : List (String × Utility) :=
  [("[", testProgram "[" true), ("arch", printLine "arch" "x86_64"),
    ("b2sum", digestProgram "b2sum" (.blake2 64)), ("base32", encodeInBase "base32" .thirtyTwo),
    ("base64", encodeInBase "base64" .sixtyFour), ("basename", showLastNames), ("cat", concatenate),
    ("chmod", changeMode), ("cksum", checkFiles), ("cmp", compareFiles), ("comm", compareSorted),
    ("cp", copyFiles), ("csplit", cutInput), ("cut", cutLines), ("date", tellDate),
    ("diff", compareLines), ("dir", listInColumns), ("dirname", showFronts), ("echo", echoPlain),
    ("egrep", selectLines "grep" (some 'E')), ("expand", expandTabs), ("expr", evaluateWords),
    ("factor", showFactors), ("false", endWith 1), ("fgrep", selectLines "grep" (some 'F')),
    ("fmt", fillParagraphs), ("fold", wrapLines), ("getopt", arrangeArguments),
    ("grep", selectLines "grep" none), ("gunzip", packFiles true false),
    ("gzip", packFiles false false), ("head", passFirstPart),
    ("hostname", printLine "hostname" "localhost"), ("id", printUser), ("install", installFiles),
    ("join", joinLinesOf), ("link", linkPlainly), ("ln", linkFiles), ("ls", listPlainly),
    ("md5sum", digestProgram "md5sum" .md5), ("mkdir", makeDirectories), ("mktemp", makeTemporary),
    ("mv", moveFiles), ("nl", numberLines), ("nproc", printLine "nproc" "1"),
    ("numfmt", convertUnits), ("od", dumpOctets), ("paste", pasteLines), ("patch", patchFiles),
    ("printenv", printVariables), ("printf", printProgram), ("pwd", printPlace),
    ("readlink", showLinks), ("realpath", showPaths), ("rev", reverseEach), ("rm", removeFiles),
    ("rmdir", removeDirectories), ("sed", editStream), ("seq", countUp),
    ("sha1sum", digestProgram "sha1sum" .sha1), ("sha224sum", digestProgram "sha224sum" .sha224),
    ("sha256sum", digestProgram "sha256sum" .sha256),
    ("sha384sum", digestProgram "sha384sum" .sha384),
    ("sha512sum", digestProgram "sha512sum" .sha512), ("sleep", sleepFor), ("sort", sortLines),
    ("split", splitInput), ("stat", showFacts), ("sum", sumFiles), ("sync", endWith 0),
    ("tac", reverseLines), ("tail", passLastPart), ("tar", archiveFiles), ("tee", storeAndPass),
    ("test", testProgram "test" false), ("touch", touchFiles), ("tr", translate),
    ("true", endWith 0), ("truncate", resizeFiles), ("tsort", orderByPrecedence),
    ("tty", printTerminal), ("uname", printSystem), ("uncompress", packFiles true false),
    ("unexpand", restoreTabs), ("uniq", uniqueLines), ("unlink", unlinkFile), ("vdir", listWithFacts), ("wc", countAll),
    ("which", showCommands), ("whoami", printLine "whoami" "root"), ("yes", repeatLine),
    ("zcat", packFiles true true)]

end PatchSearch.Shell

/-!
Becoming another program. A program that takes over keeps the number, the descriptors and the
directory of the one before it, and acts on no signals by itself.
-/
namespace PatchSearch.Shell

open Run

/-- Leaves behind what no other program takes over. -/
def shed : Run Unit := do
  let m ← get
  change fun w => w.changeProgram m.id fun p =>
    { p with channels := p.channels.filter (·.1 < keptFrom), caught := [], pending := [] }
  modify fun m => { m with running := none, traps := [], keeping := 0 }

/-- Runs a computation to the end of the program. -/
def concluding {β : Type} (act : Run Unit) : Run β := do
  shed
  try act
  catch _ => pure ()
  halt

/-- Becomes the program that words name, or tells why that cannot be. The number bounds the
interpreters of interpreters. -/
def becomeProgram (shell : String → List String → Run Unit)
    (launching : List (String × ((List String → Run FileError) → Utility))) :
    Nat → List String → Run FileError
  | 0, _ => return .tooManyLinks
  | _, [] => return .notFound
  | n + 1, name :: args => do
    match ← findProgram name with
    | .error e => return e
    | .ok (path, .interpreted words) => becomeProgram shell launching n (words ++ path :: args)
    | .ok (path, .script) => concluding (shell "sh" (path :: args))
    | .ok (_, .system program) =>
      modify fun m => { m with name := name }
      match utilities.lookup program, launching.lookup program with
      | some u, _ => concluding (u args)
      | _, some u => concluding (u (becomeProgram shell launching n) args)
      | none, none => concluding (shell name args)

end PatchSearch.Shell

/-!
Names of commands. A name stands for a reserved word, an alias, a function, a builtin or a
program, whichever is found first, and builtins tell which.
-/
namespace PatchSearch.Shell

open Run

/-- Builtins whose arguments may be assignments, which are no fields to split. -/
def assigningBuiltins : List String :=
  ["alias", "export", "local", "readonly"]

/-- Builtins that an own shell has beside those that belong to the language. -/
def regularBuiltins : List String :=
  ["[", "alias", "bg", "cd", "chdir", "command", "echo", "false", "fg", "getopts", "hash", "jobs",
    "kill", "local", "printf", "pwd", "read", "test", "true", "type", "ulimit", "umask", "unalias",
    "wait"]

def isBuiltin (name : String) : Bool :=
  specialBuiltins.contains name || regularBuiltins.contains name

/-- Whether an error of a builtin ends the shell. -/
def isSpecialBuiltin (name : String) : Bool :=
  specialBuiltins.contains name || name == "local"

/-- What the name of a command stands for. -/
inductive Meaning where
  | function (line : Nat) (body : Command)
  | builtin
  | program

/-- What a name stands for, perhaps without regard to functions. -/
def meaningOf (functions : Bool) (name : String) : Run Meaning := do
  if name.toList.contains '/' then return .program
  else
    let m ← get
    match if functions then m.functions.lookup name else none with
    | some (line, body) => return .function line body
    | none => return if isBuiltin name then .builtin else .program

/-- An alias as a command that sets it. -/
def aliasText (name value : String) : String :=
  name ++ "=" ++ singleQuoted value ++ "\n"

/-- Tells what a name stands for, at length or in a form that runs it. -/
def describeName (verbose : Bool) (name : String) : Run Unit := do
  let m ← get
  let told (long short : String) : Run Unit :=
    answer ((if verbose then name ++ long else short) ++ "\n") 0
  if reservedWords.contains name then told " is a shell keyword" name
  else
    match m.aliases.lookup name with
    | some value =>
      answer (if verbose then name ++ " is an alias for " ++ value ++ "\n"
        else "alias " ++ aliasText name value) 0
    | none =>
      match ← meaningOf true name with
      | .function _ _ => told " is a shell function" name
      | .builtin =>
        told (if isSpecialBuiltin name then " is a special shell builtin"
          else " is a shell builtin") name
      | .program =>
        match m.looked.lookup name with
        | some path => told (" is a tracked alias for " ++ path) path
        | none =>
          let found ← if name.toList.contains '/' then
              pure (if (← find name).toOption.isSome then some name else none)
            else pure ((← findProgram name).toOption.map Prod.fst)
          match found with
          | some path => told (" is " ++ path) path
          | none => answer (if verbose then name ++ ": not found\n" else "") 127

/-- `type`. -/
def describeNames : Builtin := fun names => do
  let mut failed := false
  for name in names do
    describeName true name
    if (← status) != 0 then failed := true
  setStatus (if failed then 127 else 0)

/-- `command` with options that only ask about a name. -/
def describeCommand : Builtin := fun args => do
  let (flags, names) ← options ['p', 'v', 'V'] [] args
  match names, flags.getLast? with
  | name :: _, some (c, _) =>
    if c == 'p' then setStatus 0 else describeName (c == 'V') name
  | _, _ => setStatus 0

/-- `alias`. -/
def setAliases : Builtin := fun args => do
  setStatus 0
  if args.isEmpty then
    answer (String.join ((← get).aliases.map fun a => aliasText a.1 a.2)) 0
  for a in args do
    match a.toList with
    | c :: cs =>
      let name := c :: cs.takeWhile (· != '=')
      if cs.contains '=' then
        let entry := (String.ofList name, String.ofList (cs.drop name.length))
        modify fun m => { m with aliases := entry :: m.aliases.filter (·.1 != entry.1) }
      else
        match (← get).aliases.lookup a with
        | some value => say (aliasText a value)
        | none =>
          tell ("alias: " ++ a ++ " not found\n")
          setStatus 1
    | [] =>
      tell "alias:  not found\n"
      setStatus 1

/-- `unalias`. -/
def removeAliases : Builtin := fun args => do
  let (flags, names) ← options ['a'] [] args
  setStatus 0
  if !flags.isEmpty then modify fun m => { m with aliases := [] }
  for name in names do
    if ((← get).aliases.lookup name).isSome then
      modify fun m => { m with aliases := m.aliases.filter (·.1 != name) }
    else
      tell ("unalias: " ++ name ++ " not found\n")
      setStatus 1

/-- `hash`: the paths of programs that were looked up. -/
def listLooked : Builtin := fun args => do
  let (flags, names) ← options ['r', 'v'] [] args
  setStatus 0
  if flags.any (·.1 == 'r') then modify fun m => { m with looked := [] }
  else if names.isEmpty then
    answer (joinLines ((← get).looked.map Prod.snd)) 0
  for name in names do
    match ← meaningOf true name with
    | .program =>
      match ← findProgram name with
      | .ok (path, _) =>
        modify fun m => { m with looked := (name, path) :: m.looked.filter (·.1 != name) }
      | .error _ => failWith 1 (name ++ ": not found")
    | _ => pure ()

end PatchSearch.Shell
