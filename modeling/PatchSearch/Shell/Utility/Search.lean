import PatchSearch.Shell.Regex.Rich
import PatchSearch.Shell.Pattern
import PatchSearch.Shell.Utility.Paths
import PatchSearch.Shell.Utility.Streams

/-!
Searching lines: `grep` selects the lines that hold a match of one of its patterns, and tells
them, their number, or the names of their files. What stands around a line can be told with it.
-/
namespace PatchSearch.Shell

open Run

/-- An expression whose matches stand apart from other words, or fill the line. -/
def bordered (words whole : Bool) (r : Regex) : Regex :=
  let word : Regex := .one (Regex.wordClass false)
  if whole then .both (.edge .start) (.both r (.edge .finish))
  else if words then .both (.behind false word) (.both r (.ahead false word))
  else r

/-- An expression that matches where one of several does. -/
def oneOf : List Regex → Regex
  | [] => .one ⟨false, []⟩
  | [r] => r
  | r :: rs => .either r (oneOf rs)

/-- The files below names, for a search through directories; links on the way count as what they
lead to if they are `followed`. -/
def filesBelowNames (files : FileTree) (followed : Bool) (names : List String) : List String :=
  names.flatMap fun name =>
    match files.find (path name) with
    | .ok (p, .directory) =>
      (treeFrom files p).filterMap fun (inside, e) =>
        let found := namedBelow name inside
        match e.entry with
        | .file _ => some found
        | .link _ => if followed && files.isFile (path found) then some found else none
        | .directory => none
    | _ => [name]

/-- What is looked for, and what is told of it. -/
structure Selection where
  pattern : Regex
  o : Options
  /-- How many lines are told in front of a chosen one and behind it, if some were asked for. -/
  before : Option Nat
  behind : Option Nat
  /-- How many lines are chosen at most. -/
  most : Option Nat

namespace Selection

def chooses (s : Selection) (line : String) : Bool :=
  s.pattern.isIn (spell line) != s.o.has 'v'

/-- The matches in a line that are not empty, with the number of octets in front of each. -/
def found (s : Selection) (line : String) : List (Nat × String) :=
  let cs := (spell line).toList
  (s.pattern.matchesOf cs).filterMap fun m =>
    if m.2.position ≤ m.1 then none
    else some ((unspell (String.ofList (cs.take m.1))).length,
      unspell (String.ofList ((cs.take m.2.position).drop m.1)))

/-- A line with its number and the number of octets in front of it. -/
structure Numbered where
  line : String
  number : Nat
  offset : Nat

/-- The lines of a text with their numbers. -/
def numbered (lines : List String) : List Numbered :=
  ((lines.foldl (fun (state : Nat × Nat × List Numbered) l =>
    (state.1 + 1, state.2.1 + l.length + 1, ⟨l, state.1, state.2.1⟩ :: state.2.2))
    (1, 0, [])).2.2).reverse

/-- The lines to tell and whether they are chosen. A line that is too far from the one before is
set apart by an empty entry. -/
def shownLines (s : Selection) (lines : List Numbered) (chosen : List Nat) :
    List (Option (Numbered × Bool)) :=
  let before := s.before.getD 0
  let behind := s.behind.getD 0
  let grouped := (s.before.isSome || s.behind.isSome) && !s.o.has 'ζ'
  /- The next chosen number, the last line told, and how far the lines behind the last one go. -/
  let rec go : List Numbered → List Nat → Option Nat → Nat → List (Option (Numbered × Bool))
    | [], _, _, _ => []
    | l :: ls, chosen, last, reach =>
      let isChosen := chosen.head? == some l.number
      let isNear := chosen.head?.any (· ≤ l.number + before)
      let chosen := if isChosen then chosen.drop 1 else chosen
      let reach := if isChosen then l.number + behind else reach
      if isNear || l.number ≤ reach then
        let gap := grouped && last.any fun k => k + 1 < l.number
        (if gap then [none] else []) ++ some (l, isChosen) :: go ls chosen (some l.number) reach
      else go ls chosen last reach
  go lines chosen none 0

/-- How an input is called. -/
def inputName (s : Selection) (name : String) : String :=
  if name == "-" then (s.o.value? 'δ').getD "(standard input)" else name

/-- What is put between the groups of lines. -/
def groupSeparator (s : Selection) : String :=
  (s.o.value? 'ε').getD "--"

/-- What is told of one input, given whether inputs are named: whether anything was found, the
text, and whether some of it is no text. -/
def report (s : Selection) (labelled : Bool) (name content : String) : Bool × String × Bool :=
  let shown := s.inputName name
  let nameEnd := if s.o.has 'Z' then "\x00" else ""
  let label (mark : String) : String :=
    if labelled then shown ++ (if s.o.has 'Z' then "\x00" else mark) else ""
  let ending := if s.o.has 'z' then "\x00" else "\n"
  let parts := content.splitOn ending
  let lines := numbered (if parts.getLast? == some "" then parts.dropLast else parts)
  let chosen := (lines.filter fun l => s.chooses l.line).map (·.number)
  let chosen := match s.most with
    | some n => chosen.take n
    | none => chosen
  let isFound := !chosen.isEmpty
  let listed := shown ++ (if nameEnd.isEmpty then "\n" else nameEnd)
  let isBinary := !s.o.has 'a' && !s.o.has 'z' && content.toList.contains '\x00'
  if isBinary && s.o.has 'I' then (false, if s.o.has 'L' then listed else "", false)
  else if s.o.has 'q' then (isFound, "", false)
  else if s.o.has 'l' then (isFound, if isFound then listed else "", false)
  else if s.o.has 'L' then (isFound, if isFound then "" else listed, false)
  else if s.o.has 'c' then (isFound, label ":" ++ toString chosen.length ++ "\n", false)
  else if isBinary then (isFound, "", isFound)
  else
    let isText (l : String) : Bool := s.o.has 'a' || s.o.has 'o' || !(spell l).toList.any isStray
    let shownHere := s.shownLines lines chosen
    let front (l : Numbered) (offset : Nat) (mark : String) : String :=
      label mark ++ (if s.o.has 'n' then toString l.number ++ mark else "") ++
        (if s.o.has 'b' then toString offset ++ mark else "")
    let text := shownHere.map fun entry =>
      match entry with
      | none => s.groupSeparator ++ "\n"
      | some (l, isChosen) =>
        let mark := if isChosen then ":" else "-"
        if s.o.has 'o' then
          if isChosen && !s.o.has 'v' then
            String.join ((s.found l.line).map fun (k, part) =>
              front l (l.offset + k) mark ++ part ++ ending)
          else ""
        else if isText l.line then front l l.offset mark ++ l.line ++ ending
        else ""
    (isFound, String.join text, shownHere.any fun entry => entry.any fun x => !isText x.1.line)

end Selection

/-- What `grep` understands. -/
def searchOptions : OptionNames :=
  { counting := some 'C', plain := "qvicLlnEFGPwxosrRhHaIyUzZTbuζ", valued := "emfABCdDαβγδε"
    long := [("quiet", 'q'), ("silent", 'q'), ("invert-match", 'v'), ("ignore-case", 'i'),
      ("count", 'c'), ("files-with-matches", 'l'), ("files-without-match", 'L'),
      ("line-number", 'n'), ("extended-regexp", 'E'), ("fixed-strings", 'F'),
      ("basic-regexp", 'G'), ("perl-regexp", 'P'), ("word-regexp", 'w'), ("line-regexp", 'x'),
      ("only-matching", 'o'), ("no-messages", 's'), ("recursive", 'r'),
      ("dereference-recursive", 'R'), ("no-filename", 'h'), ("with-filename", 'H'),
      ("text", 'a'), ("regexp", 'e'), ("file", 'f'), ("max-count", 'm'), ("after-context", 'A'),
      ("before-context", 'B'), ("context", 'C'), ("color", 'U'), ("colour", 'U'),
      ("byte-offset", 'b'), ("line-buffered", 'u'), ("null-data", 'z'), ("null", 'Z'),
      ("binary", 'U'), ("initial-tab", 'T'), ("directories", 'd'), ("devices", 'D'),
      ("include", 'α'), ("exclude", 'β'), ("exclude-dir", 'γ'), ("label", 'δ'),
      ("group-separator", 'ε'), ("no-group-separator", 'ζ')] }

/-- Ends a search with a hint how it is called. -/
def searchUsage {β : Type} (program : String) : Run β := do
  tell ("Usage: " ++ program ++ " [OPTION]... PATTERNS [FILE]...\nTry \x27" ++ program ++
    " --help\x27 for more information.\n")
  setStatus 2
  halt

/-- A number that an option gives. -/
def searchNumber (program : String) (o : Options) (c : Char) (fault : String → String) :
    Run (Option Nat) := do
  match o.value? c with
  | none => return none
  | some text =>
    match integer? text with
    | some n =>
      if n < 0 then
        if c == 'm' then return none else fail program 2 (fault text)
      return some n.toNat
    | none => fail program 2 (fault text)

/-- The expression that some texts spell. -/
def searchPattern (program : String) (o : Options) (kind : Option Char) (texts : List String) :
    Run Regex := do
  let folds := o.has 'i' || o.has 'y'
  let settle (r : Regex) : Regex := bordered (o.has 'w') (o.has 'x') r
  match kind with
  | some 'P' =>
    if 1 < texts.length then fail program 2 "the -P option only supports a single pattern"
    match Regex.Rich.read folds (texts.headD "") with
    | .ok r => return .settled (settle r)
    | .error e => fail program 2 e
  | some 'F' =>
    let r := oneOf (texts.map Regex.literal)
    return settle (if folds then r.foldCase else r)
  | _ =>
    let style := if kind == some 'E' then RegexStyle.extended false else RegexStyle.basic false
    let mut rs := []
    for t in texts do
      match Regex.read style t with
      | .ok r => rs := rs ++ [r]
      | .error e => fail program 2 e
    let r := oneOf rs
    return settle (if folds then r.foldCase else r)

/-- Whether the last name of a path matches one of some patterns. -/
def namedLike (patterns : List String) (name : String) : Bool :=
  let last := ((name.splitOn "/").getLast?.getD "").toList
  patterns.any fun p => matchesPattern (pattern (p.toList.map (·, false))) last

/-- Whether a search goes through directories. -/
def isDeep (o : Options) : Bool :=
  o.has 'r' || o.has 'R' || o.value? 'd' == some "recurse"

/-- The inputs of a search. -/
def searchInputs (o : Options) (operands : List String) : Run (List String) := do
  let deep := isDeep o
  let names := if !operands.isEmpty then operands else if deep then ["."] else ["-"]
  let t ← files
  let found := if deep then filesBelowNames t (o.has 'R') names else names
  let shown := if deep && operands.isEmpty then
      found.map fun n => if n.startsWith "./" then String.ofList (n.toList.drop 2) else n
    else found
  let left (n : String) : Bool := (n.splitOn "/").dropLast.any fun d =>
    namedLike (o.values 'γ') d && !operands.contains d
  return shown.filter fun n =>
    (o.values 'α').isEmpty && (o.values 'β').isEmpty && (o.values 'γ').isEmpty || n == "-" ||
      ((o.values 'α').isEmpty || namedLike (o.values 'α') n) && !namedLike (o.values 'β') n &&
        !left n

/-- `grep`, or a variant of it whose notation is fixed by its name. -/
def selectLines (program : String) (kindOfName : Option Char) : Utility := fun args => do
  match Options.read searchOptions true args with
  | .error e =>
    warn program e.message
    searchUsage program
  | .ok o =>
    let mut texts := o.values 'e'
    for file in o.values 'f' do
      match ← readInput file with
      | .ok s => texts := texts ++ splitLines s
      | .error cause => fail program 2 (shownName file ++ ": " ++ cause)
    let isGiven := (o.value? 'e').isSome || (o.value? 'f').isSome
    let operands := if isGiven then o.operands else o.operands.drop 1
    if !isGiven then
      match o.operands.head? with
      | some text => texts := [text]
      | none => searchUsage program
    let kinds := (o.flags.map Prod.fst).filter ['E', 'F', 'G', 'P'].contains
    if kinds.contains 'P' && kinds.any (· != 'P') then
      fail program 2 "conflicting matchers specified"
    let kind := kinds.getLast?.or kindOfName
    let around (text : String) : String := text ++ ": invalid context length argument"
    let context ← searchNumber program o 'C' around
    let before ← searchNumber program o 'B' around
    let behind ← searchNumber program o 'A' around
    let most ← searchNumber program o 'm' fun _ => "invalid max count"
    let parts := texts.flatMap fun t => t.splitOn "\n"
    if kind == some 'E' then
      for t in parts do
        for text in Regex.warnings (RegexStyle.extended false) (t.length + 1) true t.toList do
          warn program ("warning: " ++ text)
    let pattern ← searchPattern program o kind (parts.map spell)
    let selection : Selection :=
      { pattern, o, before := before.or context, behind := behind.or context, most }
    if (most == some 0 || o.has 'v' && !o.has 'x' && parts.all (·.isEmpty) && !parts.isEmpty) &&
        !o.has 'L' then
      setStatus 1
      halt
    let inputs ← searchInputs o operands
    let deep := isDeep o
    let labelled := match o.last? ['h', 'H'] with
      | some c => c == 'H'
      | none => 1 < inputs.length || deep && operands.length != 1 ||
          deep && inputs != operands
    let mut isFound := false
    let mut hasFailed := false
    for name in inputs do
      match ← readInput name with
      | .ok s =>
        let (found, text, isBinary) := selection.report labelled name s
        emit program text
        if isBinary then warn program (selection.inputName name ++ ": binary file matches")
        if found then isFound := true
        if found && o.has 'q' then
          setStatus 0
          halt
      | .error cause =>
        if !(o.value? 'd' == some "skip" && cause == "Is a directory") then
          if !o.has 's' then warn program (name ++ ": " ++ cause)
          hasFailed := true
    setStatus (if hasFailed then 2 else if isFound then 0 else 1)

end PatchSearch.Shell
