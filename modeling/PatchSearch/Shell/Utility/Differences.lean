import PatchSearch.Shell.Calendar.Basic
import PatchSearch.Shell.Difference.Report
import PatchSearch.Shell.Difference.Merged
import PatchSearch.Shell.Difference.Search
import PatchSearch.Shell.Regex.Reader
import PatchSearch.Shell.Utility.Compare

/-!
The lines that turn one file into another: `diff`, also for all files of two directories. What is
told has one of several forms; where files are not text it is only told that they differ.
-/
namespace PatchSearch.Shell

open Run Difference

/-- The form of a report. -/
inductive ReportForm where
  | normal
  | unified
  | contextual
  | script
  | forwardScript
  | countedScript
  | columns
  | merged

namespace ReportForm

/-- Whether the form can show that a line has no end. -/
def showsOpenLines : ReportForm → Bool
  | script | forwardScript => false
  | _ => true

end ReportForm

/-- How files are compared. -/
structure DifferenceMode where
  o : Options
  report : ReportForm := .normal
  context : Nat := 0
  rule : LineRule := {}
  lines : LineForm := {}
  columns : ColumnForm := {}
  merged : MergeForm := {}
  trivial : Option (String → Bool) := none
  /-- What stands behind the heading of a hunk. -/
  headingPattern : Option Regex := none
  /-- Lines that are kept of what both files have at their ends. -/
  margin : Nat := 0
  /-- Names of files that are left out. -/
  excluded : List String := []
  /-- The options as they were given. -/
  given : String := ""

/-- What a name stands for in a comparison. -/
inductive Compared where
  | missing
  | directory
  | readable (item : Option Item)

namespace Compared

def isDirectory : Compared → Bool
  | directory => true
  | _ => false

def isMissing : Compared → Bool
  | missing => true
  | _ => false

/-- The kind of file in words. -/
def kind : Compared → String
  | missing => "missing file"
  | directory => "directory"
  | readable (some x) =>
    match x.entry with
    | .file content => if content.isEmpty then "regular empty file" else "regular file"
    | .directory => "directory"
    | .link _ => "symbolic link"
  | readable none => "character special file"

/-- When it was changed last. -/
def changed (now : Nat) : Compared → Nat
  | readable (some x) => x.changed
  | readable none => now
  | _ => 0

end Compared

/-- What a name stands for, or why that cannot be said. -/
def comparedAt (t : FileTree) (name : String) : Except FileError Compared := do
  if name == "-" || deviceNames.contains name || name.startsWith "/dev/" then
    return .readable none
  let (_, x) ← t.findItem (path name)
  return if x.entry.isDirectory then .directory else .readable (some x)

/-- A name as a heading shows it: between quotes if it holds blanks or the like. -/
def headingName (s : String) : String :=
  if s.toList.any fun c => isSpace c || c == '"' || c == '\\' || c.toNat < 32 then
    let shown (c : Char) : String :=
      match c with
      | '"' => "\\\""
      | '\\' => "\\\\"
      | '\n' => "\\n"
      | '\t' => "\\t"
      | c => String.singleton c
    "\"" ++ String.join (s.toList.map shown) ++ "\""
  else s

namespace DifferenceMode

/-- Whether equal files give no output. -/
def isSilent (m : DifferenceMode) : Bool :=
  match m.report with
  | .columns => m.columns.changesOnly
  | .merged => m.merged.same.isEmpty || m.merged.same == "%=" && m.merged.sameLine.isEmpty
  | _ => true

/-- A content as it is compared. -/
def prepared (m : DifferenceMode) (s : String) : List String :=
  let lines := fullLines s
  let ended := if m.report.showsOpenLines then lines
    else lines.map fun l => if l.endsWith "\n" then l else l ++ "\n"
  if m.o.has 'ρ' then
    ended.map fun l =>
      if l.endsWith "\x0d\n" then String.ofList (l.toList.take (l.length - 2)) ++ "\n" else l
  else ended

/-- The name of one of two files in messages. -/
def label (m : DifferenceMode) (isFirst : Bool) (name : String) : String :=
  ((m.o.values 'L')[if isFirst then 0 else 1]?).getD name

/-- The line of a heading for one of two files. -/
def headingLine (m : DifferenceMode) (now : Nat) (sign : String) (isFirst : Bool) (name : String)
    (side : Compared) : String :=
  let format := match m.report with
    | .contextual => "%a %b %e %H:%M:%S %Y"
    | _ => "%Y-%m-%d %H:%M:%S.%N %z"
  match (m.o.values 'L')[if isFirst then 0 else 1]? with
  | some label => sign ++ " " ++ label ++ "\n"
  | none => sign ++ " " ++ headingName name ++ "\t" ++
      (Moment.ofNanos (side.changed now)).format format ++ "\n"

/-- The report on two texts without any heading. -/
def reportOn (m : DifferenceMode) (c : Comparison) : String :=
  match m.report with
  | .normal => c.normal
  | .unified => c.unified m.context m.headingPattern
  | .contextual => c.contextual m.context m.headingPattern
  | .script => c.script
  | .forwardScript => c.forwardScript
  | .countedScript => c.countedScript
  | .columns => c.columns m.columns
  | .merged => c.merged m.merged

/-- The difference of two contents. -/
def comparison (m : DifferenceMode) (x y : String) : Comparison :=
  let (left, right) := (m.prepared x, m.prepared y)
  let changes := changesBetween m.rule (m.o.has 'd') m.margin left right
  { left := left.toArray, right := right.toArray, changes, form := m.lines, trivial := m.trivial }

/-- Raises the status. -/
def atLeast (n : Nat) : Run Unit := do
  setStatus (max n (← status))

/-- Whether a content is no text. -/
def isBinary (s : String) : Bool :=
  (s.toList.take 4096).contains '\x00'

/-- Compares two contents that were read. -/
def compareContents (m : DifferenceMode) (isInside : Bool) (a b : String) (sideA sideB : Compared)
    (x y : String) : Run Unit := do
  let (nameA, nameB) := (m.label true a, m.label false b)
  let differ (word : String) : Run Unit :=
    emit "diff" (word ++ " " ++ nameA ++ " and " ++ nameB ++ " differ\n")
  let same : Run Unit := do
    if m.o.has 's' then emit "diff" ("Files " ++ nameA ++ " and " ++ nameB ++ " are identical\n")
  if !m.o.has 'a' && (isBinary x || isBinary y) then
    if x == y then same
    else if m.o.has 'q' then
      atLeast 1
      differ "Files"
    else
      atLeast 2
      differ "Binary files"
  else
    let c := m.comparison x y
    let isChanged := !c.hunks.isEmpty
    if isChanged then atLeast 1
    if m.o.has 'q' then
      if isChanged then differ "Files" else same
    else
      if isChanged || !m.isSilent then
        let now := (← files).now
        let body := m.reportOn c
        let heading := match m.report with
          | .unified => m.headingLine now "---" true a sideA ++ m.headingLine now "+++" false b sideB
          | .contextual =>
            m.headingLine now "***" true a sideA ++ m.headingLine now "---" false b sideB
          | _ => ""
        let command := if isInside then
            "diff" ++ m.given ++ " " ++ headingName a ++ " " ++ headingName b ++ "\n"
          else ""
        if !body.isEmpty || !m.isSilent then emit "diff" (command ++ heading ++ body)
      if !isChanged then same
    if !m.report.showsOpenLines then
      for (name, s) in [(nameA, x), (nameB, y)] do
        if !s.isEmpty && !s.endsWith "\n" then
          warn "diff" (name ++ ": No newline at end of file\n")
          atLeast 2

/-- Compares two files of which at most one is missing. -/
def compareReadable (m : DifferenceMode) (isInside : Bool) (a b : String) (sideA sideB : Compared) :
    Run Unit := do
  let content (name : String) (side : Compared) : Run (Option String) := do
    if side.isMissing then return some ""
    match ← readInput name with
    | .ok s => return some s
    | .error cause =>
      warn "diff" (name ++ ": " ++ cause)
      atLeast 2
      return none
  let x ← content a sideA
  let y ← if a == b then pure x else content b sideB
  match x, y with
  | some x, some y => m.compareContents isInside a b sideA sideB x y
  | _, _ => return

/-- Whether a name is left out. -/
def leavesOut (m : DifferenceMode) (name : String) : Bool :=
  m.excluded.any fun p => matchesPattern (pattern (p.toList.map (·, false))) name.toList

/-- Compares what two names stand for. The number bounds the depth of directories. -/
def compareSides (m : DifferenceMode) :
    Nat → Bool → String → String → Compared → Compared → Run Unit
  | 0, _, _, _, _, _ => return
  | n + 1, isInside, a, b, sideA, sideB => do
    let t ← files
    let isEmptySide (side other : Compared) : Bool := side.isMissing && other.isDirectory
    if (sideA.isDirectory || isEmptySide sideA sideB) &&
        (sideB.isDirectory || isEmptySide sideB sideA) then
      if isInside && !m.o.has 'r' then
        emit "diff" ("Common subdirectories: " ++ a ++ " and " ++ b ++ "\n")
      else if a == b then
        if m.o.has 's' && !isInside then return
      else
        let namesIn (d : String) : List String :=
          match t.find (path d) with
          | .ok (p, _) =>
            ((t.namesBelow p).map octets).filter fun name => !m.leavesOut name &&
              (isInside || match m.o.value? 'S' with
                | some s => !(name < s)
                | none => true)
          | .error _ => []
        let here := namesIn a
        let there := namesIn b
        for name in (here ++ there.filter (!here.contains ·)).mergeSort fun x y => !(y < x) do
          let (x, y) := (below a name, below b name)
          let only (place : String) : Run Unit := do
            atLeast 1
            emit "diff" ("Only in " ++ place ++ ": " ++ name ++ "\n")
          let side (has : Bool) (name : String) : Run (Option Compared) := do
            if !has then return some .missing
            match comparedAt t name with
            | .ok s => return some s
            | .error e =>
              warn "diff" (name ++ ": " ++ causeText e)
              atLeast 2
              return none
          if !there.contains name && !m.o.has 'N' then only a
          else if !here.contains name && !m.o.has 'N' && !m.o.has 'P' then only b
          else
            let sideX ← side (here.contains name) x
            let sideY ← side (there.contains name) y
            match sideX, sideY with
            | some sideX, some sideY => compareSides m n true x y sideX sideY
            | _, _ => pure ()
    else if sideA.isDirectory || sideB.isDirectory then
      atLeast 1
      emit "diff" ("File " ++ m.label true a ++ " is a " ++ sideA.kind ++ " while file " ++
        m.label false b ++ " is a " ++ sideB.kind ++ "\n")
    else m.compareReadable isInside a b sideA sideB

/-- Compares two operands. A file is compared with the file of its name in a directory. -/
def compareOperands (m : DifferenceMode) (a b : String) : Run Unit := do
  let t ← files
  let absent (name : String) : Run (Option Compared) := do
    match comparedAt t name with
    | .ok side => return some side
    | .error e => do
      if e == .notFound && (m.o.has 'N' || m.o.has 'P' && name == a) then
        return some .missing
      warn "diff" (name ++ ": " ++ causeText e)
      atLeast 2
      return none
  let depth := t.items.length + 1
  let last (name : String) : String := (lastPart? name).getD name
  let kind (name : String) : Option Compared := (comparedAt t name).toOption
  let isDirectory (name : String) : Bool := (kind name).any Compared.isDirectory
  let isFile (name : String) : Bool := (kind name).any fun s => !s.isDirectory
  let (a, b) ←
    if isDirectory a && isFile b || isFile a && isDirectory b then
      if a == "-" || b == "-" then
        fail "diff" 2 "cannot compare \x27-\x27 to a directory"
      pure (if isDirectory a then (below a (last b), b) else (a, below b (last a)))
    else pure (a, b)
  match ← absent a, ← absent b with
  | some .missing, some .missing =>
    for name in [a, b] do
      warn "diff" (name ++ ": No such file or directory")
    atLeast 2
  | some sideA, some sideB => m.compareSides depth false a b sideA sideB
  | _, _ => return

end DifferenceMode

/-- What `diff` understands. -/
def differenceOptions : OptionNames :=
  { plain := "abBcdeEfHilnNpPqrstTuvwyZρλσβνδκ", valued := "CDFILSUWxXτοχGμηφψωαγΣ"
    attached := "υζκ"
    counting := some '#'
    long := [("ignore-blank-lines", 'B'), ("brief", 'q'), ("context", 'ζ'), ("unified", 'υ'),
      ("ed", 'e'), ("rcs", 'n'), ("normal", 'ν'), ("side-by-side", 'y'), ("width", 'W'),
      ("left-column", 'λ'), ("suppress-common-lines", 'σ'), ("show-c-function", 'p'),
      ("show-function-line", 'F'), ("label", 'L'), ("expand-tabs", 't'), ("initial-tab", 'T'),
      ("tabsize", 'τ'), ("suppress-blank-empty", 'β'), ("paginate", 'l'), ("recursive", 'r'),
      ("no-dereference", 'δ'), ("new-file", 'N'), ("unidirectional-new-file", 'P'),
      ("ignore-file-name-case", 'δ'), ("no-ignore-file-name-case", 'δ'), ("exclude", 'x'),
      ("exclude-from", 'X'), ("starting-file", 'S'), ("from-file", 'φ'), ("to-file", 'ψ'),
      ("ignore-case", 'i'), ("ignore-tab-expansion", 'E'), ("ignore-trailing-space", 'Z'),
      ("ignore-space-change", 'b'), ("ignore-all-space", 'w'), ("ignore-matching-lines", 'I'),
      ("text", 'a'), ("strip-trailing-cr", 'ρ'), ("ifdef", 'D'), ("old-group-format", 'ο'),
      ("new-group-format", 'χ'), ("changed-group-format", 'G'), ("unchanged-group-format", 'μ'),
      ("line-format", 'η'), ("old-line-format", 'ω'), ("new-line-format", 'α'),
      ("unchanged-line-format", 'γ'), ("minimal", 'd'), ("horizon-lines", 'Σ'),
      ("speed-large-files", 'H'), ("color", 'κ'), ("report-identical-files", 's'),
      ("forward-ed", 'f')] }

/-- The arguments that are options or their values, as a heading repeats them. -/
def optionWords (names : OptionNames) : List String → List String
  | [] => []
  | "--" :: _ => ["--"]
  | "-" :: rest => optionWords names rest
  | arg :: rest =>
    let lacksValue : Bool :=
      match arg.toList with
      | '-' :: '-' :: cs =>
        !cs.contains '=' && match Options.longName? names (String.ofList cs) with
          | some c => names.valued.toList.contains c
          | none => false
      | '-' :: cs =>
        match Options.letters names cs with
        | .ok (_, some _) => true
        | _ => false
      | _ => false
    if !arg.startsWith "-" then optionWords names rest
    else
      match lacksValue, rest with
      | true, value :: rest => arg :: value :: optionWords names rest
      | _, rest => arg :: optionWords names rest

/-- Ends `diff` with a message about its arguments. -/
def differenceMisused {β : Type} (text : String) : Run β :=
  comparisonMisused "diff" text

/-- A pattern among the options. -/
def differencePattern (s : String) : Run Regex := do
  match Regex.read (RegexStyle.basic false) s with
  | .ok r => return r
  | .error e => fail "diff" 2 (s ++ ": " ++ e)

/-- The form of the report that an option asks for. -/
def reportFormOf? : Char → Option ReportForm
  | 'ν' => some .normal
  | 'u' | 'υ' | 'U' => some .unified
  | 'c' | 'ζ' | 'C' => some .contextual
  | 'e' => some .script
  | 'f' => some .forwardScript
  | 'n' => some .countedScript
  | 'y' => some .columns
  | 'D' | 'ο' | 'χ' | 'G' | 'μ' | 'η' | 'ω' | 'α' | 'γ' => some .merged
  | _ => none

/-- A letter for each form. -/
def ReportForm.letter : ReportForm → Char
  | .normal => 'n'
  | .unified => 'u'
  | .contextual => 'c'
  | .script => 'e'
  | .forwardScript => 'f'
  | .countedScript => 'r'
  | .columns => 'y'
  | .merged => 'D'

/-- The form of the report and the lines around a change. -/
def reportChoice (o : Options) : Run (Option ReportForm × Nat) := do
  let mut form : Option ReportForm := none
  let mut context : Nat := 0
  let mut isExplicit := false
  for (c, value) in o.flags do
    if ['u', 'υ', 'U', 'c', 'ζ', 'C'].contains c then
      let n ← if value.isEmpty && (c == 'u' || c == 'c' || c == 'υ' || c == 'ζ') then pure 3
        else
          match integer? value with
          | some n => pure n.toNat
          | none => differenceMisused ("invalid context length \x27" ++ value ++ "\x27")
      if !(value.isEmpty) then isExplicit := true
      context := max context n
    if let some new := reportFormOf? c then
      match form with
      | some old =>
        if old.letter != new.letter then
          differenceMisused "conflicting output style options"
      | none => pure ()
      form := some new
  let around := form.any fun f => f.letter == 'u' || f.letter == 'c'
  match (o.value? '#').bind integer? with
  | some n =>
    if around && (context < n.toNat || n.toNat < context && !isExplicit) then context := n.toNat
  | none => pure ()
  return (form, context)

/-- A size among the options. -/
def differenceSize (what : String) (o : Options) (c : Char) (plain : Nat) : Run Nat := do
  match o.value? c with
  | none => return plain
  | some s =>
    match integer? s with
    | some n =>
      if n ≤ 0 then differenceMisused ("invalid " ++ what ++ " \x27" ++ s ++ "\x27")
      return n.toNat
    | none => differenceMisused ("invalid " ++ what ++ " \x27" ++ s ++ "\x27")

/-- The formats that options ask for. -/
def mergeFormOf (o : Options) : MergeForm :=
  let base : MergeForm := match o.value? 'D' with
    | some name => MergeForm.conditional name
    | none => {}
  let line (c : Char) : String := ((o.value? c).orElse fun _ => o.value? 'η').getD "%l\n"
  let old := (o.value? 'ο').getD ((o.value? 'G').getD base.old)
  let new := (o.value? 'χ').getD ((o.value? 'G').getD base.new)
  { same := (o.value? 'μ').getD base.same
    old, new
    changed := (o.value? 'G').getD (if o.has 'D' then base.changed else old ++ new)
    sameLine := line 'γ'
    oldLine := line 'ω'
    newLine := line 'α' }

/-- The mode that options ask for. -/
def differenceModeOf (o : Options) (args : List String) : Run DifferenceMode := do
  let (form, context) ← reportChoice o
  let width ← differenceSize "width" o 'W' 130
  let tabSize ← differenceSize "tabsize" o 'τ' 8
  for value in o.values 'κ' do
    if !(["", "never", "always", "auto"].contains value) then
      differenceMisused ("invalid color \x27" ++ value ++ "\x27")
  let functions := if o.has 'p' then some "^[[:alpha:]$_]" else none
  let patterns ← (functions.toList ++ o.values 'F').mapM differencePattern
  let trivials ← (o.values 'I').mapM differencePattern
  let mut excluded := o.values 'x'
  for name in o.values 'X' do
    match ← readInput name with
    | .ok s => excluded := excluded ++ splitLines s
    | .error cause => fail "diff" 2 (name ++ ": " ++ cause)
  let (form, context) := match form with
    | some f => (f, context)
    | none => if o.has 'p' then (.contextual, 3) else (.normal, context)
  let squeezes := o.has 'b'
  let trivial : Option (String → Bool) :=
    if o.has 'B' || !trivials.isEmpty then
      some fun line =>
        let cs := line.toList.takeWhile (· != '\n')
        let rest := if squeezes || o.has 'w' then cs.dropWhile isSpace
          else if o.has 'Z' && cs.all isSpace then [] else cs
        o.has 'B' && rest.isEmpty || trivials.any fun r => r.isIn (spell (String.ofList cs))
    else none
  return {
    o
    report := form
    context
    rule := {
      foldsCase := o.has 'i', expandsTabs := o.has 'E', dropsTrailing := o.has 'Z'
      squeezesBlanks := squeezes, dropsBlanks := o.has 'w', tabSize }
    lines := {
      expandsTabs := o.has 't', leadsWithTab := o.has 'T', baresEmpty := o.has 'β', tabSize }
    columns := {
      width, tabSize, expandsTabs := o.has 't', leftOnly := o.has 'λ', changesOnly := o.has 'σ' }
    merged := mergeFormOf o
    trivial
    headingPattern := patterns.head?.map fun r => patterns.tail.foldl Regex.either r
    margin := max context (((o.value? 'Σ').bind integer?).getD 0).toNat
    excluded
    given := String.join ((optionWords differenceOptions args).map fun w => " " ++ shownWord w) }

/-- `diff`. -/
def compareLines : Utility := fun args =>
  withComparisonOptions "diff" differenceOptions (fun o => do
    let m ← differenceModeOf o args
    match o.value? 'φ', o.value? 'ψ', o.operands with
    | some a, _, bs => for b in bs do m.compareOperands a b
    | none, some b, as => for a in as do m.compareOperands a b
    | none, none, [a, b] => m.compareOperands a b
    | none, none, [] | none, none, [_] =>
      differenceMisused ("missing operand after " ++ inQuotes (args.getLast?.getD "diff"))
    | none, none, _ :: _ :: extra :: _ =>
      differenceMisused ("extra operand " ++ inQuotes extra)) args

end PatchSearch.Shell
