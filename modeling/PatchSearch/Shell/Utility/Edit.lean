import PatchSearch.Shell.Utility.EditScript

/-!
Editing lines by a script: `sed`. Each line passes through the commands of the script as the space
of a cycle, and what is left of it is written at the end of the cycle. A second space holds text
from one cycle to another.
-/
namespace PatchSearch.Shell

open Run

/-- A line of an input: the number of the input, whether it is the last line there, and whether it
has no end. -/
structure InputLine where
  text : List Char
  input : Nat
  endsInput : Bool
  isOpen : Bool

/-- Where an edit writes to: what comes of an input, or a file. -/
inductive EditTarget where
  | output (input : Nat)
  | file (name : String)
  deriving DecidableEq

/-- What is put behind the line at the end of the cycle. -/
inductive QueuedText where
  | text (s : String)
  | file (name : String)

/-- How an edit goes about its work. -/
structure EditMode where
  silent : Bool := false
  /-- Whether each input is an edit of its own. -/
  separate : Bool := false
  ending : Char := '\n'
  /-- The width of lines that show all characters. -/
  width : Nat := 70
  /-- The names of the inputs. -/
  names : List String := []
  /-- The contents of files. -/
  library : List (String × String) := []

/-- What an edit has in hand: the space of the cycle, the text that is held, the lines still to
come, and what was written, last piece first. -/
structure Editing where
  mode : EditMode
  space : List Char := []
  held : List Char := []
  /-- Whether the space, or the text that is held, comes from a line without an end. -/
  isOpen : Bool := false
  heldOpen : Bool := false
  line : Nat := 0
  current : InputLine := ⟨[], 0, false, false⟩
  rest : List InputLine
  written : List (EditTarget × String) := []
  /-- Where the last line written still lacks its end. -/
  unended : List EditTarget := []
  queued : List QueuedText := []
  /-- The lines that are left of files read line by line. -/
  partly : List (String × List String) := []
  /-- The ranges that go on, by their commands, with the lines they end at if those are known. -/
  ranges : List (Nat × Option Nat) := []
  changed : Bool := false
  /-- The status of an edit that is over. -/
  ended : Option Nat := none
  fault : Option String := none
  /-- Whether the next cycle keeps the space. -/
  keeps : Bool := false
  /-- The expression used last. -/
  lastUsed : Option Regex := none

namespace Editing

def isLast (e : Editing) : Bool :=
  e.rest.isEmpty || e.mode.separate && e.current.endsInput

/-- Writes a text, which may lack the end of its line. -/
def writeTo (e : Editing) (t : EditTarget) (s : String) (isOpen : Bool) : Editing :=
  let front := if e.unended.contains t then String.ofList [e.mode.ending] else ""
  let unended := e.unended.filter (· != t)
  { e with
    written := (t, front ++ s) :: e.written
    unended := if isOpen then t :: unended else unended }

/-- Where an edit writes if not told otherwise. -/
def output (e : Editing) : EditTarget :=
  .output (if e.mode.separate then e.current.input else 0)

/-- Writes a text with the end of a line. -/
def write (e : Editing) (s : String) : Editing :=
  e.writeTo e.output (s ++ "\n") false

/-- Writes the space, whose line may have no end. -/
def writeSpaceTo (e : Editing) (t : EditTarget) : Editing :=
  let s := if e.isOpen then e.space else e.space ++ [e.mode.ending]
  e.writeTo t (String.ofList s) e.isOpen

def writeSpace (e : Editing) : Editing :=
  e.writeSpaceTo e.output

/-- The part of the space in front of its first line feed. -/
def firstPart (e : Editing) : String :=
  String.ofList (e.space.takeWhile (· != e.mode.ending) ++ [e.mode.ending])

/-- Writes what is queued. -/
def writeQueued (e : Editing) : Editing :=
  { e.queued.foldl (fun e q =>
      match q with
      | .text s => e.writeTo e.output s false
      | .file name =>
        match e.mode.library.lookup name with
        | some s => e.writeTo e.output s false
        | none => e) e with queued := [] }

/-- Ends the cycle: writes the space unless told otherwise, and what is queued. -/
def endCycle (e : Editing) (shows : Bool) : Editing :=
  (if shows && !e.mode.silent then e.writeSpace else e).writeQueued

/-- Takes the next line, in place of the space or behind it. -/
def take (e : Editing) (joined : Bool) : Editing :=
  match e.rest with
  | [] => e
  | l :: rest =>
    let isNew := e.mode.separate && l.input != e.current.input
    { e with
      space := if joined then e.space ++ e.mode.ending :: l.text else l.text
      line := if isNew then 1 else e.line + 1
      ranges := if isNew then [] else e.ranges
      isOpen := l.isOpen, current := l, rest }

/-- Whether an address holds for the present line. -/
def holds (e : Editing) : Address → Bool
  | .line n => e.line == n
  | .last => e.isLast
  | .matching r => (r.or e.lastUsed).any (·.isIn (String.ofList e.space))
  | .every first step =>
    if step = 0 then e.line == first else first ≤ e.line && (e.line - first) % step == 0
  | .behind _ => false
  | .multiple _ => false

/-- An edit that has just used an expression. -/
def withUsed (e : Editing) (r : Option Regex) : Editing :=
  { e with lastUsed := r.or e.lastUsed }

/-- An edit that has just looked at an address. -/
def looking (e : Editing) : Address → Editing
  | .matching r =>
    if r.isNone && e.lastUsed.isNone then
      { e with fault := some "no previous regular expression", ended := some 1 }
    else e.withUsed r
  | _ => e

/-- The line that a range ends at, if that is known when it starts. -/
def rangeEnd (e : Editing) : Address → Option Nat
  | .line n => some n
  | .behind n => some (e.line + n)
  | .multiple n => some (if n = 0 then e.line else (e.line / n + 1) * n)
  | _ => none

/-- Whether a command applies to the present line, and whether the line is the last of a range. -/
def applies (e : Editing) (i : Nat) (c : EditCommand) : Bool × Bool × Editing :=
  match c.first, c.second with
  | none, _ => (!c.negated, true, e)
  | some a, none => (e.holds a != c.negated, true, e.looking a)
  | some a, some b =>
    let startsAtOnce := match a with
      | .line 0 => e.line == 1
      | _ => false
    let e := e.looking (if startsAtOnce || e.ranges.lookup i == some none then b else a)
    let leave : Editing := { e with ranges := e.ranges.filter (·.1 != i) }
    match e.ranges.lookup i with
    | some (some k) =>
      if e.line < k then (!c.negated, false, e)
      else if e.line = k then (!c.negated, true, leave)
      else
        if e.holds a then (!c.negated, true, leave) else (c.negated, true, leave)
    | some none =>
      if e.holds b then (!c.negated, true, leave) else (!c.negated, e.isLast, e)
    | none =>
      if startsAtOnce && e.holds b then (!c.negated, true, e)
      else if e.holds a || startsAtOnce then
        let known := e.rangeEnd b
        if known.any (· ≤ e.line) then (!c.negated, true, e)
        else if known.isNone && (match b with
          | .last => e.isLast
          | _ => false) then (!c.negated, true, e)
        else (!c.negated, false, { e with ranges := (i, known) :: e.ranges })
      else (c.negated, true, e)

end Editing

/-- How letters are put in until told otherwise. -/
structure LetterCase where
  /-- For all letters that follow, and for the next one only. -/
  all : Option Char := none
  next : Option Char := none

/-- A replacement with the whole match and its groups put in, and letters changed in case. -/
def fillReplacement (whole : List Char) (groups : List (Nat × List Char)) :
    Nat → LetterCase → List Char → List Char
  | 0, _, _ => []
  | n + 1, k, cs =>
    let cased (k : LetterCase) (c : Char) : Char :=
      match k.next.or k.all with
      | some 'U' => c.toUpper
      | some 'u' => c.toUpper
      | some 'L' => c.toLower
      | some 'l' => c.toLower
      | _ => c
    let put (text rest : List Char) : List Char :=
      match text with
      | [] => fillReplacement whole groups n k rest
      | c :: text =>
        let later := { k with next := none }
        cased k c :: text.map (cased later) ++ fillReplacement whole groups n later rest
    match cs with
    | [] => []
    | '&' :: cs => put whole cs
    | '\\' :: c :: cs =>
      if c.isDigit then
        put (if c == '0' then whole else (groups.lookup (c.toNat - 48)).getD []) cs
      else if c == 'U' || c == 'L' then fillReplacement whole groups n ⟨some c, none⟩ cs
      else if c == 'E' then fillReplacement whole groups n {} cs
      else if c == 'u' || c == 'l' then
        fillReplacement whole groups n { k with next := some c } cs
      else put [c] cs
    | c :: cs => put [c] cs

/-- A line with matches replaced, and whether there were any. -/
def substituteLine (r : Regex) (replacement : List Char) (everywhere : Bool) (nth : Nat)
    (line : List Char) : List Char × Bool :=
  let found := (r.matchesOf line).drop (nth - 1)
  let chosen := if everywhere then found else found.take 1
  let (out, done) := chosen.foldl (fun (state : List (List Char) × Nat) (m : Nat × Regex.Place) =>
    let whole := (line.take m.2.position).drop m.1
    (fillReplacement whole m.2.groups (replacement.length + 1) {} replacement ::
      (line.take m.1).drop state.2 :: state.1, m.2.position)) ([], 0)
  (out.reverse.flatten ++ line.drop done, !chosen.isEmpty)

/-- Characters made visible: octets that do not print as their codes, in lines of some width. -/
def visibleLines (width : Nat) (s : String) : String :=
  let digit (n : Nat) : Char := Char.ofNat (48 + n % 8)
  let signs (c : Char) : List Char :=
    match c with
    | '\\' => ['\\', '\\']
    | '\x07' => ['\\', 'a']
    | '\x08' => ['\\', 'b']
    | '\x0c' => ['\\', 'f']
    | '\n' => ['\\', 'n']
    | '\r' => ['\\', 'r']
    | '\t' => ['\\', 't']
    | '\x0b' => ['\\', 'v']
    | c =>
      let n := c.toNat
      if 32 ≤ n && n < 127 then [c] else ['\\', digit (n / 64), digit (n / 8), digit n]
  let (out, _) := s.toList.foldl (fun (state : List Char × Nat) c =>
    let part := signs c
    let (out, column) := if 0 < width && width - 1 < state.2 + part.length
      then ('\n' :: '\\' :: state.1, 0) else state
    (part.reverse ++ out, column + part.length)) ([], 0)
  String.ofList out.reverse ++ "$"

/-- What comes after a command. -/
inductive EditNext where
  | goOn (i : Nat)
  | endCycle (shows : Bool)

namespace Editing

/-- The next line of a file that is read line by line, queued behind the line. -/
def queueLine (e : Editing) (name : String) : Editing :=
  let lines := (e.partly.lookup name).getD
    (((e.mode.library.lookup name).map splitLines).getD [])
  match lines with
  | [] => e
  | l :: rest =>
    { e with
      queued := e.queued ++ [.text (l ++ "\n")]
      partly := (name, rest) :: e.partly.filter (·.1 != name) }

/-- Where a file of a name leads. -/
def targetOf (e : Editing) (name : String) : EditTarget :=
  if name == "/dev/stdout" && !e.mode.separate then .output 0 else .file name

/-- Replaces matches in the space. -/
def substitute (e : Editing) (s : Substitution) : Editing :=
  let e := e.looking (.matching s.pattern)
  match e.lastUsed with
  | none => e
  | some r =>
    let (space, changed) := substituteLine r s.replacement s.everywhere s.nth e.space
    let e := { e with space, changed := e.changed || changed }
    if changed then
      let e := if s.shown then e.writeSpace else e
      match s.file with
      | some name => e.writeSpaceTo (e.targetOf name)
      | none => e
    else e

/-- Applies the action of the command with a number. -/
def perform (script : List EditCommand) (i : Nat) (endsRange : Bool) (e : Editing) :
    EditAction → Editing × EditNext
  | .print => (e.writeSpace, .goOn (i + 1))
  | .printFirst => (e.writeTo e.output e.firstPart false, .goOn (i + 1))
  | .delete => (e, .endCycle false)
  | .deleteFirst =>
    if e.space.contains e.mode.ending then
      ({ e with space := (e.space.dropWhile (· != e.mode.ending)).drop 1, keeps := true },
        .endCycle false)
    else (e, .endCycle false)
  | .quit code silent =>
    if silent then ({ e with ended := some code, queued := [] }, .endCycle false)
    else ({ e with ended := some code }, .endCycle true)
  | .number => (e.write (toString e.line), .goOn (i + 1))
  | .fileName => (e.write ((e.mode.names[e.current.input]?).getD "-"), .goOn (i + 1))
  | .list width =>
    let octets := unspell (String.ofList e.space)
    (e.write (visibleLines (width.getD e.mode.width) octets), .goOn (i + 1))
  | .text place s =>
    let written := if s.isEmpty then e else e.writeTo e.output s false
    if place == 'i' then (written, .goOn (i + 1))
    else if place == 'c' then (if endsRange then written else e, .endCycle false)
    else (if s.isEmpty then e else { e with queued := e.queued ++ [.text s] }, .goOn (i + 1))
  | .substitute s => (e.substitute s, .goOn (i + 1))
  | .transliterate source target =>
    ({ e with space := e.space.map fun c =>
        if source.contains c then (target[source.idxOf c]?).getD c else c }, .goOn (i + 1))
  | .nextLine =>
    if e.isLast then (e, .endCycle true) else ((e.endCycle true).take false, .goOn (i + 1))
  | .joinLine =>
    if e.isLast then (e, .endCycle true) else (e.writeQueued.take true, .goOn (i + 1))
  | .store joined =>
    ({ e with
        held := if joined then e.held ++ e.mode.ending :: e.space else e.space
        heldOpen := e.isOpen }, .goOn (i + 1))
  | .recall joined =>
    ({ e with
        space := if joined then e.space ++ e.mode.ending :: e.held else e.held
        isOpen := e.heldOpen }, .goOn (i + 1))
  | .exchange => ({ e with
      space := e.held, held := e.space, isOpen := e.heldOpen, heldOpen := e.isOpen },
      .goOn (i + 1))
  | .clear => ({ e with space := [] }, .goOn (i + 1))
  | .insertFile name oneLine =>
    (if oneLine then e.queueLine name else { e with queued := e.queued ++ [.file name] },
      .goOn (i + 1))
  | .writeFile name firstLine =>
    (if firstLine then e.writeTo (e.targetOf name) e.firstPart false
      else e.writeSpaceTo (e.targetOf name), .goOn (i + 1))
  | .label _ => (e, .goOn (i + 1))
  | .block _ => (e, .goOn (i + 1))
  | .jump condition name =>
    let target := if name.isEmpty then script.length
      else (script.findIdx? fun c =>
        match c.action with
        | .label l => l == name
        | _ => false).getD script.length
    let jumps := condition == 'b' || e.changed == (condition == 't')
    let e := if condition == 'b' then e else { e with changed := false }
    (e, .goOn (if jumps then target else i + 1))

/-- Applies commands from one with a number on, up to the end of the cycle. -/
def runFrom (script : List EditCommand) : Nat → Nat → Editing → Editing
  | 0, _, e => { e with ended := some 1 }
  | n + 1, i, e =>
    match script[i]? with
    | none => e.endCycle true
    | some c =>
      let (applies, endsRange, e) := e.applies i c
      if e.fault.isSome then e
      else if applies then
        match perform script i endsRange e c.action with
        | (e, .goOn i) => if e.fault.isSome then e else runFrom script n i e
        | (e, .endCycle shows) => e.endCycle shows
      else
        match c.action with
        | .block size => runFrom script n (i + size + 1) e
        | _ => runFrom script n (i + 1) e

/-- The most commands in one cycle. -/
def maxCommands : Nat := 1000000

/-- Runs cycles until there are no more lines. -/
def runCycles (script : List EditCommand) : Nat → Editing → Editing
  | 0, e => e
  | n + 1, e =>
    if e.ended.isSome || e.rest.isEmpty && !e.keeps then e
    else
      let e := if e.keeps then { e with keeps := false } else e.take false
      runCycles script n (runFrom script maxCommands 0 { e with changed := false })

end Editing

/-- The lines of an input with a number. -/
def inputLines (ending : Char) (content : String) (i : Nat) : List InputLine :=
  let parts := content.splitOn (String.ofList [ending])
  let isOpen := parts.getLast? != some ""
  let lines := (if isOpen then parts else parts.dropLast).map String.toList
  (lines.dropLast.map fun l => ⟨l, i, false, false⟩) ++
    (lines.getLast?.map fun l => (⟨l, i, true, isOpen⟩ : InputLine)).toList

/-- What comes of an edit: its status, the pieces that it wrote, in order, the number of the last
input that it took a line from, whether it got to the end, and what went wrong. -/
structure Edited where
  status : Nat
  pieces : List (EditTarget × String)
  reached : Nat
  isWhole : Bool
  fault : Option String

/-- Texts edited by a script. -/
def editTexts (mode : EditMode) (script : List EditCommand) (contents : List String) : Edited :=
  let rest := (contents.zipIdx.map fun (s, i) => inputLines mode.ending s i).flatten
  let e := Editing.runCycles script (2 * contents.foldl (fun n s => n + s.length) 1)
    { mode, rest : Editing }
  ⟨e.ended.getD 0, e.written.reverse, e.current.input, e.ended.isNone, e.fault⟩

/-- Ends `sed` with a message about what it cannot go on without. -/
def failToEdit {β : Type} (text : String) : Run β :=
  fail "sed" 4 text

/-- The contents of inputs with their names, up to a directory if there is one. -/
def readUpToDirectory : List String → Run (List (String × String) × Option String)
  | [] => return ([], none)
  | name :: rest => do
    match ← readInput name with
    | .ok s =>
      let (contents, directory) ← readUpToDirectory rest
      return ((name, s) :: contents, directory)
    | .error cause =>
      if cause == "Is a directory" then return ([], some name)
      warn "sed" ("can\x27t read " ++ name ++ ": " ++ cause)
      setStatus 2
      readUpToDirectory rest

/-- A part of a script, and where it comes from. -/
structure ScriptPart where
  text : String
  /-- The file it was read from. -/
  file : Option String

/-- Where in some parts of a script a number of characters ends, in words. The number counts one
character between the parts. -/
def scriptPlace (parts : List ScriptPart) (count : Nat) : String :=
  let rec go : Nat → Nat → List ScriptPart → String
    | _, _, [] => ""
    | number, count, p :: rest =>
      if count ≤ p.text.length || rest.isEmpty then
        match p.file with
        | some name =>
          let front := (p.text.toList.take (count - 1)).filter (· == '\n')
          "file " ++ name ++ " line " ++ toString (front.length + 1) ++ ": "
        | none => "-e expression #" ++ toString number ++ ", char " ++ toString count ++ ": "
      else
        go (if p.file.isSome then number else number + 1) (count - p.text.length - 1) rest
  go 1 count parts

/-- How `sed` is called by a name. -/
def editUsage (name : String) : String :=
  "Usage: " ++ name ++ " [OPTION]... \x7bscript-only-if-no-other-script\x7d [input-file]...\n\n" ++
  "  -n, --quiet, --silent\n                 suppress automatic printing of pattern space\n" ++
  "      --debug\n                 annotate program execution\n" ++
  "  -e script, --expression=script\n" ++
  "                 add the script to the commands to be executed\n" ++
  "  -f script-file, --file=script-file\n" ++
  "                 add the contents of script-file to the commands to be executed\n" ++
  "  --follow-symlinks\n                 follow symlinks when processing in place\n" ++
  "  -i[SUFFIX], --in-place[=SUFFIX]\n" ++
  "                 edit files in place (makes backup if SUFFIX supplied)\n" ++
  "  -l N, --line-length=N\n" ++
  "                 specify the desired line-wrap length for the \x60l\x27 command\n" ++
  "  --posix\n                 disable all GNU extensions.\n" ++
  "  -E, -r, --regexp-extended\n" ++
  "                 use extended regular expressions in the script\n" ++
  "                 (for portability use POSIX -E).\n" ++
  "  -s, --separate\n                 consider files as separate rather than as a single,\n" ++
  "                 continuous long stream.\n" ++
  "      --sandbox\n" ++
  "                 operate in sandbox mode (disable e/r/w commands).\n" ++
  "  -u, --unbuffered\n" ++
  "                 load minimal amounts of data from the input files and flush\n" ++
  "                 the output buffers more often\n" ++
  "  -z, --null-data\n                 separate lines by NUL characters\n" ++
  "      --help     display this help and exit\n" ++
  "      --version  output version information and exit\n\n" ++
  "If no -e, --expression, -f, or --file option is given, then the first\n" ++
  "non-option argument is taken as the sed script to interpret.  All\n" ++
  "remaining arguments are names of input files; if no input files are\n" ++
  "specified, then the standard input is read.\n\n"

/-- Ends `sed` with a text that tells how it is called. -/
def editMisuse {β : Type} : Run β := do
  tell (editUsage (← ownName "sed"))
  setStatus 1
  halt

/-- What `sed` understands. -/
def editOptions : OptionNames :=
  { plain := "nErsuzαβγδ", valued := "efl", attached := "i"
    long := [("quiet", 'n'), ("silent", 'n'), ("regexp-extended", 'E'), ("expression", 'e'),
      ("file", 'f'), ("in-place", 'i'), ("separate", 's'), ("posix", 'α'), ("null-data", 'z'),
      ("unbuffered", 'u'), ("line-length", 'l'), ("debug", 'β'), ("sandbox", 'γ'),
      ("follow-symlinks", 'δ'), ("zero-terminated", 'z')] }

/-- The parts of the script that options give, in order. -/
def scriptParts (o : Options) : Run (List ScriptPart) := do
  let mut parts := []
  for (c, value) in o.flags do
    if c == 'e' then parts := parts ++ [⟨value, none⟩]
    if c == 'f' then
      match ← readInput value with
      | .ok s => parts := parts ++ [⟨String.intercalate "\n" (splitLines s), some value⟩]
      | .error cause => failToEdit ("couldn\x27t open file " ++ value ++ ": " ++ cause)
  return parts

/-- The name of the copy that is kept of a file. -/
def backupName (suffix name : String) : String :=
  let last := (baseName name).getD name
  let copy := if suffix.toList.contains '*' then String.intercalate last (suffix.splitOn "*")
    else last ++ suffix
  if copy.toList.contains '/' then copy
  else String.ofList (name.toList.take (name.length - last.length)) ++ copy

/-- The inputs to edit in place. -/
def readInPlace : List String → Run (List (String × String))
  | [] => return []
  | name :: rest => do
    match (← find name), (← readInput name) with
    | .ok (_, .directory), _ => failToEdit ("couldn\x27t edit " ++ name ++ ": not a regular file")
    | _, .ok s => return (name, s) :: (← readInPlace rest)
    | _, .error cause =>
      warn "sed" ("can\x27t read " ++ name ++ ": " ++ cause)
      setStatus 2
      readInPlace rest

/-- Stores what came of each file that was edited in place. -/
def storeEdited (r : Edited) (suffix : String) (inputs : List (String × String)) : Run Unit := do
  for ((name, old), i) in inputs.zipIdx do
    if r.isWhole || i ≤ r.reached then
      if !suffix.isEmpty then discard (storeText (backupName suffix name) old)
      let new := (r.pieces.filter (·.1 == .output i)).map Prod.snd
      discard (storeText name (String.join new))

/-- Applies a script to inputs. -/
def applyEdit (o : Options) (script : List EditCommand) (quiet : Bool) (operands : List String) :
    Run Unit := do
  let inPlace := o.has 'i'
  let mut writers : List (String × Option Channel) := []
  for name in (EditScript.filesWritten script).eraseDups do
    match ← openForWriting (unspell name) .overwrite with
    | .ok c => writers := writers ++ [(name, some c)]
    | .error e => failToEdit ("couldn\x27t open file " ++ name ++ ": " ++ causeText e)
  let mut library := []
  for name in (EditScript.filesRead script).eraseDups do
    match ← readInput (if name == "/dev/stdin" then "-" else unspell name) with
    | .ok s => library := library ++ [(name, spell s)]
    | .error _ => pure ()
  let (inputs, directory) ←
    if inPlace then pure ((← readInPlace operands), none)
    else readUpToDirectory (if operands.isEmpty then ["-"] else operands)
  let mode : EditMode :=
    { silent := quiet, separate := inPlace || o.has 's'
      ending := if o.has 'z' then '\x00' else '\n'
      width := (((o.value? 'l').bind integer?).map Int.toNat).getD 70
      names := inputs.map fun f => spell f.1, library }
  let edited := editTexts mode script (inputs.map fun f => spell f.2)
  let r := { edited with pieces := edited.pieces.map fun p => (p.1, unspell p.2) }
  for (target, text) in r.pieces do
    match target with
    | .output _ => if !inPlace then emit "sed" text
    | .file name => discard (writeTo ((writers.lookup name).getD none) text)
  if inPlace then storeEdited r ((o.value? 'i').getD "") inputs
  if let some text := r.fault then
    fail "sed" 1 ("-e expression #1, char 0: " ++ text)
  if let some name := directory then
    failToEdit ("read error on " ++ name ++ ": Is a directory")
  if r.status != 0 then setStatus r.status

/-- `sed`. -/
def editStream : Utility := fun args => do
  match Options.read editOptions true args with
  | .error e =>
    warn "sed" e.message
    editMisuse
  | .ok o =>
    setStatus 0
    let given ← scriptParts o
    if given.isEmpty && o.operands.isEmpty then editMisuse
    let (parts, operands) := if given.isEmpty then ([⟨o.operands.headD "", none⟩], o.operands.drop 1)
      else (given, o.operands)
    let text := spell (String.intercalate "\n" (parts.map ScriptPart.text))
    match EditScript.read (o.has 'E' || o.has 'r') text with
    | .error fault =>
      if fault.message.startsWith "character class" then failToEdit fault.message
      let front := unspell (String.ofList (text.toList.take (text.length - fault.left)))
      fail "sed" 1 (scriptPlace parts front.length ++ fault.message)
    | .ok script =>
      if let some name := EditScript.missingLabel? script then
        failToEdit ("can\x27t find label for jump to \x60" ++ name ++ "\x27")
      let first := ((parts.head?.map ScriptPart.text).getD "")
      applyEdit o script (o.has 'n' || first == "#n" || first.startsWith "#n\n") operands

end PatchSearch.Shell
