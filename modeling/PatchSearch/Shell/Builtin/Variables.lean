import PatchSearch.Shell.Builtin.Basic
import PatchSearch.Shell.Rights

/-!
Builtins for variables and arguments: marking and removing variables, keeping them to a function,
the options and arguments of the shell, and reading options and lines into variables.
-/
namespace PatchSearch.Shell

open Run

/-- The name in front of an equals sign, and the value behind it if there is one. -/
def nameAndValue (s : String) : String × Option String :=
  let name := s.toList.takeWhile (· != '=')
  match s.toList.drop name.length with
  | _ :: value => (String.ofList name, some (String.ofList value))
  | [] => (s, none)

/-- Refuses what cannot name a variable. -/
def requireName (name : String) : Run Unit := do
  if !isName name then refuse (name ++ ": bad variable name")

/-- Variables by name, each on a line behind a word. -/
def variableLines (word : String) (vs : List Variable) : String :=
  let shown := vs.mergeSort fun a b => decide (a.name ≤ b.name)
  String.join (shown.map fun v =>
    (if word.isEmpty then "" else word ++ " ") ++ v.name ++
      (match v.value with
        | some s => "=" ++ singleQuoted s
        | none => "") ++ "\n")

/-- `export` and `readonly`: marks variables, perhaps after giving them values. -/
def markVariables (word : String) (isMarked : Variable → Bool) (mark : Variable → Variable) :
    Builtin := fun args => do
  let (flags, names) ← options ['p'] [] args
  if !flags.isEmpty || names.isEmpty then
    answer (variableLines word ((← get).bindings.filter isMarked)) 0
  else
    for a in names do
      let (name, value) := nameAndValue a
      requireName name
      match value with
      | some s => setVariable name s
      | none => pure ()
      modify fun m => m.putVariable (mark ((m.findVariable? name).getD { name, value := none }))
    setStatus 0

def exportVariables : Builtin :=
  markVariables "export" (·.exported) fun v => { v with exported := true }

def fixVariables : Builtin :=
  markVariables "readonly" (·.fixed) fun v => { v with fixed := true }

/-- The name under which the options are kept for the end of a function. -/
def optionsName : String :=
  "-"

/-- Keeps the present state of a variable for the end of a function. -/
def keepVariable (name : String) : Run Unit :=
  modify fun m =>
    match m.locals with
    | [] => m
    | frame :: frames =>
      if frame.any (·.1 == name) then m
      else
        let kept : Option Variable :=
          if name == optionsName then
            some { name, value := some (String.ofList m.options) }
          else m.findVariable? name
        { m with locals := ((name, kept) :: frame) :: frames }

/-- `local`: keeps variables to the function that runs. -/
def localVariables : Builtin := fun args => do
  if (← get).depth = 0 then refuse "not in a function"
  for a in args do
    let (name, value) := nameAndValue a
    if name == optionsName then keepVariable optionsName
    else
      requireName name
      keepVariable name
      match value with
      | some s => setVariable name s
      | none => pure ()
  setStatus 0

/-- Puts the variables back that were kept since a frame was opened, and closes the frame. -/
def restoreLocals : Run Unit :=
  modify fun m =>
    match m.locals with
    | [] => m
    | frame :: frames =>
      frame.foldl (fun m (name, kept) =>
        if name == optionsName then
          { m with options := ((kept.bind (·.value)).getD "").toList }
        else m.restoreVariable name kept) { m with locals := frames }

/-- `unset`. -/
def unsetNames : Builtin := fun args => do
  let (flags, names) ← options ['v', 'f'] [] args
  let functionsOnly := flags.getLast?.any (·.1 == 'f')
  for name in names do
    if functionsOnly then
      modify fun m => { m with functions := m.functions.filter (·.1 != name) }
    else
      requireName name
      match (← get).findVariable? name with
      | some v =>
        if v.fixed then refuse (name ++ ": is read only")
        modify fun m => m.restoreVariable name none
      | none => pure ()
  setStatus 0

/-- The options of a shell: their long names and letters, in the order in which they are listed. -/
def shellOptions : List (String × Char) :=
  [("errexit", 'e'), ("noglob", 'f'), ("ignoreeof", 'I'), ("interactive", 'i'), ("monitor", 'm'),
    ("noexec", 'n'), ("stdin", 's'), ("xtrace", 'x'), ("verbose", 'v'), ("vi", 'V'),
    ("emacs", 'E'), ("noclobber", 'C'), ("allexport", 'a'), ("notify", 'b'), ("nounset", 'u'),
    ("privileged", 'p'), ("nolog", '\x01'), ("debug", '\x02')]

/-- Turns an option on or off. -/
def setOption (c : Char) (on : Bool) : Run Unit :=
  modify fun m =>
    let order := (shellOptions.map Prod.snd).filter fun o =>
      if o == c then on else m.options.contains o
    { m with options := order }

/-- Sets options; what is left are the arguments that replace the present ones, if any do. -/
def readOptions : Nat → List String → Run (Option (List String))
  | 0, _ => return none
  | n + 1, args => do
    let rec each (on : Bool) : List Char → List String → Run (List String)
      | [], rest => return rest
      | 'o' :: cs, rest => do
        match rest with
        | name :: rest =>
          match shellOptions.lookup name with
          | some c =>
            setOption c on
            each on cs rest
          | none => refuse ("Illegal option " ++ (if on then "-" else "+") ++ "o " ++ name)
        | [] =>
          let enabled := (← get).options
          if on then
            say ("Current option settings\n" ++ String.join (shellOptions.map fun (name, c) =>
              name ++ String.ofList (List.replicate (16 - name.length) ' ') ++
                (if enabled.contains c then "on" else "off") ++ "\n"))
          else
            say (String.join (shellOptions.map fun (name, c) =>
              "set " ++ (if enabled.contains c then "-" else "+") ++ "o " ++ name ++ "\n"))
          return []
      | c :: cs, rest => do
        if (shellOptions.any (·.2 == c)) then
          setOption c on
          each on cs rest
        else refuse ("Illegal option " ++ (if on then "-" else "+") ++ String.ofList [c])
    match args with
    | [] => return none
    | a :: rest =>
      match a.toList with
      | ['-'] => do
        setOption 'x' false
        setOption 'v' false
        return if rest.isEmpty then none else some rest
      | ['-', '-'] => return some rest
      | '-' :: cs => do readOptions n (← each true cs rest)
      | '+' :: cs => do readOptions n (← each false cs rest)
      | _ => return some args

/-- `set`. -/
def setOptions : Builtin := fun args => do
  if args.isEmpty then
    answer (variableLines "" ((← get).bindings.filter (·.value.isSome))) 0
  else
    setStatus 0
    match ← readOptions (args.length + 1) args with
    | some args => modify fun m => { m with args, optionIndex := 1, letter := 0 }
    | none => return

/-- `shift`. -/
def shiftArguments : Builtin := fun args => do
  let n ← match args.head? with
    | some a => number a
    | none => pure 1
  if (← get).args.length < n then refuse "can\x27t shift that many"
  modify fun m => { m with args := m.args.drop n, optionIndex := 1, letter := 0 }
  setStatus 0

/-- What reading one option finds: its letter or a sign for a fault, its value, a message, and
where to read on. -/
structure OptionFound where
  letter : String
  value : Option String
  message : String := ""
  index : Nat
  offset : Nat

/-- The option at a place among arguments; nothing if there is none. An offset of zero stands for
the start of an argument. -/
def optionAt? (spec : List Char) (args : List String) (index offset : Nat) : Option OptionFound :=
  let inside := if offset = 0 then [] else (((args[index - 2]?).getD "").toList.drop offset)
  let (chars, index, offset) : List Char × Nat × Nat :=
    if inside.isEmpty then
      match ((args[index - 1]?).getD "").toList with
      | ['-', '-'] => ([], index + 1, 0)
      | '-' :: cs => (cs, index + 1, 1)
      | _ => ([], index, 0)
    else (inside, index, offset)
  match chars with
  | [] => none
  | c :: rest =>
    let quiet := spec.head? == some ':'
    let name := String.ofList [c]
    let next := if rest.isEmpty then 0 else offset + 1
    let described := (spec.dropWhile (· != c)).drop 1
    if c == ':' || !spec.contains c then
      some ⟨"?", if quiet then some name else none,
        if quiet then "" else "Illegal option -" ++ name ++ "\n", index, next⟩
    else if described.head? == some ':' then
      if !rest.isEmpty then some ⟨name, some (String.ofList rest), "", index, 0⟩
      else
        match args[index - 1]? with
        | some value => some ⟨name, some value, "", index + 1, 0⟩
        | none =>
          some ⟨if quiet then ":" else "?", if quiet then some name else none,
            if quiet then "" else "No arg for -" ++ name ++ " option\n", index, 0⟩
    else some ⟨name, some "", "", index, next⟩

/-- `getopts`. -/
def nextOption : Builtin := fun args => do
  match args with
  | spec :: name :: given => do
    let m ← get
    let among := if given.isEmpty then m.args else given
    let found := optionAt? spec.toList among m.optionIndex m.letter
    let finish (letter : String) (index offset status : Nat) : Run Unit := do
      setVariable "OPTIND" (toString index)
      requireName name
      setVariable name letter
      modify fun m => { m with optionIndex := index, letter := offset }
      setStatus status
    match found with
    | some f =>
      tell f.message
      match f.value with
      | some s => setVariable "OPTARG" s
      | none => modify fun m => m.restoreVariable "OPTARG" none
      finish f.letter f.index f.offset 0
    | none =>
      let index := if among[m.optionIndex - 1]? == some "--" then m.optionIndex + 1
        else m.optionIndex
      finish "?" index 0 1
  | _ => refuse "Usage: getopts optstring var [arg]"

/-- Reading a line into fields, of which so many are still wanted. -/
structure LineSplitting where
  done : List String := []
  chars : List Char := []
  wanted : Nat
  afterBlank : Bool := false
  /-- How many characters of the last field are left when separators at its end are dropped. -/
  kept : Option Nat := none
  isLast : Bool := false

namespace LineSplitting

def close (s : LineSplitting) : LineSplitting :=
  { s with done := String.ofList s.chars.reverse :: s.done, chars := [] }

/-- Takes a character; one that was escaped sets no fields apart. -/
def take (separators : List Char) (s : LineSplitting) (m : Mark) : LineSplitting :=
  let c := m.1
  let separates := !m.2 && separators.contains c
  let isBlank := separates && [' ', '\t', '\n'].contains c
  let added := { s with chars := c :: s.chars }
  if s.isLast then
    if isBlank then { added with kept := s.kept.orElse fun _ => some s.chars.length }
    else if separates && s.afterBlank then { added with afterBlank := false }
    else { added with kept := none, afterBlank := false }
  else if s.afterBlank && isBlank then s
  else if s.afterBlank && separates then { s with afterBlank := false }
  else if separates then
    if s.chars.isEmpty && isBlank then s
    else if s.wanted ≤ 1 then
      { added with isLast := true, kept := some s.chars.length, afterBlank := isBlank }
    else { s.close with wanted := s.wanted - 1, afterBlank := isBlank }
  else { added with afterBlank := false }

/-- All fields, first one first. -/
def finish (s : LineSplitting) : List String :=
  let chars := match s.kept with
    | some n => s.chars.reverse.take n
    | none => s.chars.reverse
  if chars.isEmpty && s.chars.isEmpty then s.done.reverse
  else (String.ofList chars :: s.done).reverse

end LineSplitting

/-- The fields of a line for so many variables. -/
def lineFields (separators : List Char) (count : Nat) (line : List Mark) : List String :=
  (line.foldl (LineSplitting.take separators) { wanted := count }).finish

example : lineFields [':'] 1 [('a', false), (':', false)] = ["a"] := by decide

/-- A line whose escapes are resolved, and whether it goes on behind a line feed. -/
def unescapeLine : List Char → List Mark × Bool
  | ['\\', '\n'] => ([], true)
  | '\\' :: c :: cs =>
    let (rest, goesOn) := unescapeLine cs
    ((c, true) :: rest, goesOn)
  | ['\\'] => ([], false)
  | c :: cs =>
    let (rest, goesOn) := unescapeLine cs
    (if c == '\n' then rest else (c, false) :: rest, goesOn)
  | [] => ([], false)

/-- Reads a line with its escapes resolved, and whether it ended with a line feed. -/
def readMarkedLine (raw : Bool) : Nat → Run (List Mark × Bool)
  | 0 => return ([], false)
  | n + 1 => do
    let text := ((← readLine 0).toOption.getD "").toList.filter (· != '\x00')
    if raw then
      return ((text.filter (· != '\n')).map fun c => (c, false), text.getLast? == some '\n')
    else
      let (marks, goesOn) := unescapeLine text
      if goesOn then
        let (more, ended) ← readMarkedLine raw n
        return (marks ++ more, ended)
      else return (marks, text.getLast? == some '\n')

/-- `read`. -/
def readVariables : Builtin := fun args => do
  let (flags, names) ← options ['r'] ['p'] args
  if names.isEmpty then refuse "arg count"
  let (line, ended) ← readMarkedLine (flags.any (·.1 == 'r')) 100000
  let fields := lineFields (← separators) names.length line
  for (name, i) in names.zipIdx do
    requireName name
    setVariable name ((fields[i]?).getD "")
  setStatus (if ended then 0 else 1)

end PatchSearch.Shell

/-!
Builtins for the working directory and for the rights that new files lack. A shell keeps the text
of its directory as it was reached, so two dots lead back along the text and not behind a link.
-/
namespace PatchSearch.Shell

open Run

/-- The text of the working directory. -/
def workingDirectory : Run String := do
  let m ← get
  return m.place.getD (octets (FileTree.positionText m.here))

/-- A path taken from a directory, without its dots. -/
def plainPath (directory path : String) : String :=
  let steps := if path.toList.head? == some '/' then path.splitOn "/"
    else directory.splitOn "/" ++ path.splitOn "/"
  let names := steps.foldl (fun names s =>
    if s.isEmpty || s == "." then names
    else if s == ".." then names.drop 1
    else s :: names) []
  "/" ++ String.intercalate "/" names.reverse

/-- Goes to a directory; whether there is one. -/
def enterDirectory (physical : Bool) (path : String) : Run Bool := do
  let before ← workingDirectory
  let text := plainPath before path
  let target := if physical then path else text
  match (← files).find (textOfOctets target) with
  | .ok (p, .directory) =>
    setVariable "OLDPWD" before
    exportVariable "OLDPWD"
    let shown := if physical then octets (FileTree.positionText p) else text
    modify fun m => { m with here := p, place := some shown }
    setVariable "PWD" shown
    exportVariable "PWD"
    return true
  | _ => return false

/-- The directories that a relative path is looked for in, with whether they are told. -/
def searchedDirectories (path : String) (given : Option String) : List (String × Bool) :=
  let isPlain := path.startsWith "/" || path == "." || path == ".." || path.startsWith "./" ||
    path.startsWith "../"
  match given with
  | none => [("", false)]
  | some s =>
    if isPlain then [("", false)]
    else (s.splitOn ":").map (fun d => (d, !d.isEmpty)) ++ [("", false)]

/-- `cd`. -/
def changeDirectory : Builtin := fun args => do
  let (flags, args) ← options ['L', 'P'] [] args
  let physical := flags.getLast?.any (·.1 == 'P')
  let (target, told) ← match args.head? with
    | some "-" => do pure ((← lookup? "OLDPWD").getD "", true)
    | some t => pure (t, false)
    | none => do pure ((← lookup? "HOME").getD "", false)
  let searched := searchedDirectories target (← lookup? "CDPATH")
  let rec go : List (String × Bool) → Run Unit
    | [] => refuse ("can\x27t cd to " ++ target)
    | (d, named) :: ds => do
      let path := if d.isEmpty then target else d ++ "/" ++ target
      if ← enterDirectory physical (if path.isEmpty then "." else path) then
        setStatus 0
        if told || named then say ((← workingDirectory) ++ "\n")
      else go ds
  go searched

/-- `pwd`. -/
def printDirectory : Builtin := fun args => do
  let (flags, _) ← options ['L', 'P'] [] args
  let m ← get
  if flags.getLast?.any (·.1 == 'P') then answer (octets (FileTree.positionText m.here) ++ "\n") 0
  else answer ((← workingDirectory) ++ "\n") 0

/-- Rights as letters. -/
def rightsText (n : Nat) : String :=
  (if n / 4 % 2 = 1 then "r" else "") ++ (if n / 2 % 2 = 1 then "w" else "") ++
    (if n % 2 = 1 then "x" else "")

/-- `umask`. -/
def setMask : Builtin := fun args => do
  let (flags, args) ← options ['S'] [] args
  let m ← get
  match args.head? with
  | none =>
    if flags.isEmpty then answer (octalText 4 m.mask ++ "\n") 0
    else
      let rights := clearBits 511 m.mask
      answer ("u=" ++ rightsText (rights / 64 % 8) ++ ",g=" ++ rightsText (rights / 8 % 8) ++
        ",o=" ++ rightsText (rights % 8) ++ "\n") 0
  | some a =>
    if a.toList.head?.any Char.isDigit then
      if a.toList.all fun c => '0' ≤ c && c ≤ '7' then
        modify fun m => { m with mask :=
          (a.toList.foldl (fun n c => 8 * n + (c.toNat - 48)) 0) % 512 }
        setStatus 0
      else refuse ("Illegal number: " ++ a)
    else
      let rights := clearBits 511 m.mask
      match changedRights? rights (a.length + 1) 0 rights a.toList with
      | some rights =>
        modify fun m => { m with mask := clearBits 511 rights }
        setStatus 0
      | none => refuse ("Illegal mode: " ++ a)

end PatchSearch.Shell
