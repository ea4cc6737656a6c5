import PatchSearch.Shell.Calendar.Reader
import PatchSearch.Shell.Difference.Patch
import PatchSearch.Shell.Utility.Compare

/-!
Files changed by differences that were written down: `patch`. A patch for a file is put in hunk by
hunk; hunks that find no place are kept in a file of their own, and so is a file that was changed
where the patch did not fit exactly.
-/
namespace PatchSearch.Shell

open Run Difference

/-- How patches are put in. -/
structure PatchMode where
  o : Options
  /-- How many slashes are dropped from names, with all in front of them; all if none is told. -/
  strip : Option Nat
  fuzz : Nat
  /-- The file to change, where it is given. -/
  target : Option String

/-- How certain it is that a file does not exist on one side of a patch. -/
inductive Absence where
  | no
  | likely
  | certain
  deriving DecidableEq

/-- What is done about a patch that seems to be in place, or the wrong way round. -/
inductive Doubt where
  | skip
  | anyway
  | turn

/-- How far a patch for a file is put in. -/
structure PatchCourse where
  patching : Patching
  isReversed : Bool
  skips : Bool := false
  /-- Whether something did not fit exactly. -/
  mismatched : Bool := false
  failed : Nat := 0
  rejects : String := ""

/-- Whether the first line of a hunk and the line at a place end in different ways. -/
def PatchCourse.hasOtherEnds (c : PatchCourse) (h : PatchHunk) (place : Int) : Bool :=
  let isEnded (s : String) : Bool := 2 ≤ s.length && s.endsWith "\n"
  match h.oldLines.head?, c.patching.text[(place - 1).toNat]? with
  | some a, some b =>
    0 < place && isEnded a && isEnded b && a.endsWith "\x0d\n" != b.endsWith "\x0d\n"
  | _, _ => false

namespace PatchMode

def isSilent (m : PatchMode) : Bool :=
  m.o.last? ['s', 'β'] == some 's'

def isVerbose (m : PatchMode) : Bool :=
  m.o.last? ['s', 'β'] == some 'β'

/-- The file that everything goes to, if there is one. -/
def output? (m : PatchMode) : Option String :=
  m.o.value? 'o'

/-- Tells how it goes: with the output, unless the changed file goes there. -/
def inform (m : PatchMode) (text : String) : Run Unit := do
  if m.output? == some "-" then tell text else emit "patch" text

/-- Asks about a patch; without a terminal nobody answers. -/
def doubt (m : PatchMode) (isReversed : Bool) (text : String) : Run Doubt := do
  if m.o.has 'N' || !(m.o.has 'f' && m.isSilent) then emit "patch" text
  if m.o.has 'N' then
    m.inform "  Skipping patch.\n"
    return .skip
  else if m.o.has 'f' then
    if !m.isSilent then m.inform "  Applying it anyway.\n"
    return .anyway
  else if m.o.has 't' then
    m.inform (if isReversed then "  Ignoring -R.\n" else "  Assuming -R.\n")
    return .turn
  else
    emit "patch" ((if isReversed then "  Ignore" else "  Assume") ++ " -R? [n] \n")
    emit "patch" "Apply anyway? [n] \n"
    if !m.isSilent then m.inform "Skipping patch.\n"
    return .skip

/-- A name without so much in front of it; nothing if it has less. -/
def stripped? (m : PatchMode) (name : String) : Option String :=
  let rec go (left : Nat) : List Char → Option (List Char)
    | [] => none
    | '/' :: cs =>
      let rest := cs.dropWhile (· == '/')
      if left ≤ 1 then some rest else go (left - 1) cs
    | _ :: cs => go left cs
  let collapsed := name.toList.splitBy fun a b => !(a == '/' && b != '/')
  let kept := match m.strip with
    | none => (((collapsed.getLast?).getD []).reverse.takeWhile (· != '/')).reverse
    | some 0 => name.toList
    | some n => (go n (String.join (collapsed.map String.ofList)).toList).getD []
  if kept.isEmpty then none else some (String.ofList kept)

/-- What counts of a name: nothing is named by the null device. -/
def nameOf? (m : PatchMode) (n : Option PatchName) : Option String :=
  (n.filter (·.name != "/dev/null")).bind fun n => m.stripped? n.name

/-- Whether a name in front of hunks says that there is no file: it is the null device, or the time
is the beginning of all times, in some part of the world. -/
def tellsNothing (n : Option PatchName) : Bool :=
  match n with
  | none => false
  | some n =>
    n.name == "/dev/null" || !n.time.isEmpty &&
      match readDate? 0 n.time with
      | some t => -90000 * Moment.second < t && t < 93600 * Moment.second
      | none => false

/-- Whether the file exists in the old or the new version. -/
def absence (p : FilePatch) (isNew : Bool) : Absence :=
  let isEmptySide (h : PatchHunk) : Bool :=
    match p.form with
    | .normal => false
    | .unified => (if isNew then h.right else h.left) = 0
    | .contextual => if isNew then h.right = 0 && h.newLines.isEmpty else h.left = 0
  if (if isNew then p.isDropped else p.isNew) then .certain
  else if (p.hunks.head?.any isEmptySide) then
    if tellsNothing (if isNew then p.new else p.old) then .certain else .likely
  else .no

/-- The number of directories in front of a name. -/
def directoriesIn (name : String) : Nat :=
  (pathNames name).length - 1

/-- Whether a name stays below the directory where it is used. -/
def isSafeName (name : String) : Bool :=
  !name.startsWith "/" && !(name.splitOn "/").contains ".."

/-- The best of some names: with the fewest directories, a short last part, and short in all. Names
that lead elsewhere are told and left out. -/
def bestName (m : PatchMode) (names : List String) : Run (Option String) := do
  let key (name : String) : List Nat :=
    [directoriesIn name, ((lastPart? name).getD "").length, name.length]
  let least := names.foldl (fun (best : Option (List Nat)) name =>
    match best with
    | some k => some (if key name < k then key name else k)
    | none => some (key name)) none
  let best := (names.filter fun name => some (key name) == least).eraseDups
  for name in best.takeWhile (!isSafeName ·) do
    m.inform ("Ignoring potentially dangerous file name " ++ shownWord name ++ "\n")
  return best.find? isSafeName

/-- The file that a patch is for. -/
def targetOf (m : PatchMode) (p : FilePatch) : Run (Option String) := do
  if m.target.isSome then return m.target
  let t ← files
  let sides := [m.nameOf? p.old, m.nameOf? p.new].filterMap id
  let names := if sides.isEmpty then (m.nameOf? p.index).toList else sides
  let existing := names.filter fun name => (t.findLink (path name)).isOk
  match ← m.bestName existing with
  | some name => return some name
  | none =>
    if absence p false == .no && absence p true == .no then return none
    else
      let missing (name : String) : Nat :=
        ((ancestorPaths (path name)).drop 1).countP fun d =>
          !d.isEmpty && !t.isDirectory d
      let least := names.foldl (fun n name => min n (missing name)) 1000
      m.bestName (names.filter fun name => missing name = least)

/-- Whether two lines are the same. -/
def sameLine (m : PatchMode) (a b : String) : Bool :=
  let rec spaced : List Char → List Char
    | [] => []
    | c :: cs =>
      let rest := spaced cs
      if c == ' ' || c == '\t' then (if rest.isEmpty || rest.head? == some ' ' then rest else ' ' :: rest)
      else c :: rest
  if m.o.has 'l' then
    spaced (withoutFeed a).toList == spaced (withoutFeed b).toList
  else a == b

/-- The lines in front of a patch, as they are shown to find the file. -/
def leadText (p : FilePatch) : String :=
  if p.lead.isEmpty then "(No leading text...)\n" else
    "The text leading up to this was:\n--------------------------\n" ++
      String.join (p.lead.map fun l => "|" ++ withoutFeed l ++ "\n") ++
      "--------------------------\n"

/-- Tells that no file is found for a patch. -/
def tellUnknown (m : PatchMode) (p : FilePatch) : Run Unit := do
  if !m.isSilent then
    m.inform ("can\x27t find file to patch at input line " ++ toString p.line ++ "\n")
    if p.form != .normal then
      m.inform ("Perhaps you " ++ (if m.strip.isNone then "should have used the" else "used the wrong") ++
        " -p or --strip option?\n")
  m.inform (leadText p)
  if m.o.has 'f' || m.o.has 't' then m.inform "No file to patch.  Skipping patch.\n"
  else
    emit "patch" "File to patch: \nSkip this patch? [y] \n"
    if !m.isSilent then m.inform "Skipping patch.\n"

/-- The lines in front of rejected hunks. -/
def rejectHeading (m : PatchMode) (p : FilePatch) (isReversed : Bool) (signs : String × String) :
    String :=
  let line (sign : String) (n : Option PatchName) : String :=
    match n, m.nameOf? n with
    | some n, some name => sign ++ " " ++ name ++ n.time ++ "\n"
    | _, _ => sign ++ " /dev/null\n"
  let (first, second) := if isReversed then (p.new, p.old) else (p.old, p.new)
  let index := if p.old.isSome || p.new.isSome then "" else
    match m.nameOf? p.index with
    | some name => "Index: " ++ name ++ "\n"
    | none => ""
  index ++ line signs.1 first ++ line signs.2 second

/-- A rejected hunk. -/
def rejectText (m : PatchMode) (p : FilePatch) (h : PatchHunk) (grown : Int) : String :=
  let isUnified := match m.o.value? 'φ' with
    | some s => s == "unified"
    | none => p.form == PatchForm.unified
  if isUnified then h.unified grown else h.contextual grown (p.form != PatchForm.normal)

/-- Looks for the place of a hunk, with more and more fuzz. A first hunk that has none may be in
place already, or the wrong way round. -/
def findPlace (m : PatchMode) (isFirst : Bool) (h : PatchHunk) :
    Nat → Nat → PatchCourse → Run (PatchCourse × Option (Int × PatchHunk) × Nat)
  | 0, fuzz, c => return (c, none, fuzz)
  | n + 1, fuzz, c => do
    match c.patching.placeOf? m.sameLine h fuzz with
    | some place =>
      let isExact := fuzz = 0 && place = h.first
      return ({ c with mismatched := c.mismatched || !isExact }, some (place, h), fuzz)
    | none =>
      let c := { c with mismatched := true }
      let isDoubtful := isFirst && !m.o.has 'f' && c.isReversed == m.o.has 'R'
      let turned := if isDoubtful then c.patching.placeOf? m.sameLine h.reversed fuzz else none
      match turned with
      | none => findPlace m isFirst h n (fuzz + 1) c
      | some place =>
        let words := if c.isReversed then "Unreversed" else "Reversed (or previously applied)"
        match ← m.doubt c.isReversed (words ++ " patch detected!") with
        | .turn => return ({ c with isReversed := !c.isReversed }, some (place, h.reversed), fuzz)
        | .anyway => findPlace m false h n (fuzz + 1) c
        | .skip => return ({ c with skips := true }, none, fuzz)

/-- Puts in a hunk of a patch, which has a number. -/
def putHunk (m : PatchMode) (p : FilePatch) (hasText : Bool) (c : PatchCourse)
    (hunk : PatchHunk × Nat) : Run PatchCourse := do
  let h := if c.isReversed then hunk.1.reversed else hunk.1
  let fuzz := min m.fuzz (max h.frontContext h.backContext)
  let (c, found, fuzz) ←
    if c.skips then pure (c, none, 0) else m.findPlace (hunk.2 = 1) h (fuzz + 1) 0 c
  let number := "Hunk #" ++ toString hunk.2
  let applied := found.bind fun (place, h) =>
    if place = 1 && hasText && absence p c.isReversed == .certain then none
    else (c.patching.apply h place).map (place, ·)
  match applied with
  | some (place, q) =>
    if m.isVerbose || !m.isSilent && (fuzz != 0 || q.moved != 0) then
      let offset := if q.moved = 0 then "" else
        " (offset " ++ toString q.moved ++ (if q.moved = 1 then " line)" else " lines)")
      m.inform (number ++ " succeeded at " ++ toString (place + c.patching.grown) ++
        (if fuzz = 0 then "" else " with fuzz " ++ toString fuzz) ++ offset ++ ".\n")
    return { c with patching := q }
  | none =>
    let h := if c.isReversed then hunk.1.reversed else hunk.1
    let place := match found with
      | some (place, _) => place
      | none => (h.first : Int)
    let signs := if p.form == .unified then ("---", "+++") else ("***", "---")
    let heading := if c.failed = 0 then m.rejectHeading p c.isReversed signs else ""
    let place := place + c.patching.grown
    if m.isVerbose || !c.skips && !m.isSilent then
      let endings := if c.skips || !c.hasOtherEnds h place then "" else " (different line endings)"
      m.inform (number ++ (if c.skips then " ignored" else " FAILED") ++ " at " ++ toString place ++
        endings ++ ".\n")
    return { c with
      failed := c.failed + 1
      rejects := c.rejects ++ heading ++ m.rejectText p h c.patching.grown }

/-- The name that a file is kept under. -/
def keptName (m : PatchMode) (t : FileTree) (name : String) : String :=
  let (prefixText, base) := (m.o.value? 'B', m.o.value? 'Y')
  let numbered := match m.o.value? 'V' with
    | some s => s == "t" || s == "numbered"
    | none => false
  if prefixText.isSome || base.isSome then
    let last := (lastPart? name).getD name
    let front := String.ofList (name.toList.take (name.length - last.length))
    (prefixText.getD "") ++ front ++ (base.getD "") ++ last ++ (m.o.value? 'z').getD ""
  else ({ numbered, suffix := (m.o.value? 'z').getD ".orig" } : Backup).nameOf t name

/-- Makes the directories that a name needs. -/
def makeDirectoriesFor (name : String) : Run Unit :=
  onFiles fun t => ((), match (ancestorPaths (path name))[1]? with
    | some d => (t.makeDirs d).2
    | none => t)

/-- Removes directories above a name as long as they are empty. -/
def removeEmptyAbove (name : String) : Run Unit :=
  onFiles fun t => ((), ((ancestorPaths (path name)).drop 1).foldl (fun t d =>
    match t.findLink d with
    | .ok (p, .directory) =>
      if !d.isEmpty && p != t.here && (t.namesBelow p).isEmpty then t.remove p else t
    | _ => t) t)

/-- Keeps a file as it was; where there is none, an empty one. -/
def keepOld (m : PatchMode) (name : String) : Run Unit := do
  let kept := m.keptName (← files) name
  makeDirectoriesFor kept
  let t ← files
  match t.findLink (path name), t.resolve false (path kept) with
  | .ok (p, _), .ok q => onFiles fun t => ((), t.move p q)
  | .error _, .ok q => onFiles fun t => ((), t.put q (.file ByteArray.empty))
  | _, .error _ => return

/-- Puts a new version of a file in place, with the rights of the old one. -/
def putVersion (name text : String) (rights : Option Nat) : Run Unit := do
  makeDirectoriesFor name
  onFiles fun t => ((),
    match t.resolve false (path name) with
    | .error _ => t
    | .ok p =>
      let u := t.put p (.file (octetBytes text))
      match rights with
      | some rights => u.changeAt p fun x => { x with rights }
      | none => u)

/-- Stores what came of a patch. -/
def store (m : PatchMode) (p : FilePatch) (written : List String) (name : String)
    (old : Option Item) (c : PatchCourse) : Run Bool := do
  let text := c.patching.result
  let keeps := (m.o.has 'b' || m.o.last? ['χ', 'ν'] != some 'ν' && (c.mismatched || c.failed != 0)) &&
    !written.contains name
  let isGone := absence p (!c.isReversed) == .certain
  let isLeft := !text.isEmpty && isGone
  if isLeft && !m.isSilent then
    m.inform ("Not deleting file " ++ shownWord name ++ " as content differs from patch\n")
  if !m.o.has 'δ' then
    if keeps then m.keepOld name
    if text.isEmpty && (m.o.has 'E' || isGone) then
      if let .ok q := (← files).resolve false (path name) then
        onFiles fun t => ((), t.remove q)
      if !keeps then removeEmptyAbove name
    else
      if old.isNone && c.failed != 0 then
        fail "patch" 2 ("**** Can\x27t reopen file " ++ shownWord name ++
          " : No such file or directory")
      putVersion name text (p.rights.or (old.map Item.rights))
  return isLeft

/-- Tells how many hunks were rejected, and keeps them. -/
def keepRejects (m : PatchMode) (p : FilePatch) (name : Option String) (c : PatchCourse) :
    Run Unit := do
  let count := p.hunks.length
  m.inform (toString c.failed ++ " out of " ++ toString count ++
    (if count = 1 then " hunk " else " hunks ") ++ if c.skips then "ignored" else "FAILED")
  match name, m.o.value? 'r' with
  | none, _ | _, some "-" => m.inform "\n"
  | some name, given =>
    if m.o.has 'δ' then m.inform "\n"
    else
      let goal := given.getD (name ++ ".rej")
      m.inform (" -- saving rejects to file " ++ shownWord goal ++ "\n")
      discard <| storeText goal c.rejects

/-- Puts in a patch for a file. The files that were written so far and whether all went well; the
same after it. -/
def patchFile (m : PatchMode) (log : List String × Bool) (p : FilePatch) :
    Run (List String × Bool) := do
  let start : PatchCourse := { patching := { text := #[] }, isReversed := m.o.has 'R' }
  let skipped (name : Option String) (isReversed : Bool) : Run (List String × Bool) := do
    let c ← (p.hunks.zipIdx 1).foldlM (m.putHunk p false) { start with skips := true, isReversed }
    if let some fault := p.fault then fail "patch" 2 ("**** " ++ fault)
    m.keepRejects p name c
    return (log.1, false)
  let blocked (name : String) (t : FileTree) : Bool :=
    match t.findLink (path name) with
    | .error .notADirectory => true
    | _ => false
  if m.isVerbose then
    let form := match p.form with
      | .unified => "a unified diff"
      | .contextual => "a new-style context diff"
      | .normal => "a normal diff"
    m.inform ("Hmm...  " ++ (if p.lead.length + 1 < p.line then "The next patch l" else "L") ++
      "ooks like " ++ form ++ " to me...\n")
  let name ← m.targetOf p
  let t ← files
  if name.any fun name => m.target.isNone && blocked name t then
    m.inform ("Invalid file name " ++ shownWord (name.getD "") ++ " -- skipping patch\n")
    return (log.1, false)
  let item (name : String) : Option Item := ((t.findLinkItem (path name)).map Prod.snd).toOption
  let old := name.bind item
  let isEmpty := match old.map Item.entry with
    | some (.file content) => content.isEmpty
    | some _ => false
    | none => true
  let looksTurned := name.isSome &&
    match absence p (m.o.has 'R' != isEmpty) with
    | .certain => !(isEmpty && old.isSome && absence p (m.o.has 'R') == .likely)
    | .likely => isEmpty
    | .no => false
  let isReversed ←
    if looksTurned then
      let what := if old.isNone then ("delete", "does not exist")
        else if isEmpty then ("empty out", "is already empty")
        else ("create", "already exists")
      let words := "The next patch" ++ (if m.o.has 'R' then ", when reversed," else "") ++
        " would " ++ what.1 ++ " the file " ++ shownWord (name.getD "") ++ ",\nwhich " ++ what.2 ++ "!"
      match ← m.doubt (m.o.has 'R') words with
      | .skip => return ← skipped none (m.o.has 'R')
      | .turn => pure (!m.o.has 'R')
      | .anyway => pure (m.o.has 'R')
    else pure (m.o.has 'R')
  if !m.isSilent then
    if p.indent != 0 then
      m.inform ("(Patch is indented " ++ toString p.indent ++
        (if p.indent = 1 then " space" else " spaces") ++ ".)\n")
    if p.dropsReturns && !m.o.has 'η' then
      m.inform "(Stripping trailing CRs from patch; use --binary to disable.)\n"
  match name with
  | none =>
    m.tellUnknown p
    skipped none isReversed
  | some name =>
    if m.isVerbose then m.inform (leadText p)
    let goal := m.output?.getD name
    match old.map Item.entry with
    | some .directory | some (.link _) =>
      m.inform ("File " ++ shownWord name ++ " is not a regular file -- refusing to patch\n")
      skipped (some goal) isReversed
    | entry =>
      if !m.isSilent then
        m.inform ((if m.o.has 'δ' then "checking" else "patching") ++ " file " ++ shownWord goal ++
          (if goal == name then "" else " (read from " ++ shownWord name ++ ")") ++ "\n")
        if m.isVerbose then m.inform "Using Plan A...\n"
      let text := match entry with
        | some (.file content) => octetsOfBytes content
        | _ => ""
      let c ← (p.hunks.zipIdx 1).foldlM (m.putHunk p (!text.isEmpty))
        { start with patching := { text := (fullLines text).toArray }, isReversed }
      if let some fault := p.fault then fail "patch" 2 ("**** " ++ fault)
      let isLeft ←
        if c.skips then pure false
        else
          match m.output? with
          | none => m.store p log.1 name old c
          | some "-" => do
            emit "patch" c.patching.result
            pure false
          | some output => do
            if let .ok channel ← openForWriting output .append then
              discard <| writeTo (some channel) c.patching.result
            pure false
      if c.failed != 0 then m.keepRejects p (some goal) c
      return (name :: log.1, log.2 && c.failed = 0 && !isLeft)

end PatchMode

/-- What `patch` understands. -/
def patchOptions : OptionNames :=
  { plain := "bcEeflnNRstTuvZδνχβηι", valued := "BdDFgiopPrVxYzφ"
    long := [("backup", 'b'), ("prefix", 'B'), ("context", 'c'), ("directory", 'd'),
      ("ifdef", 'D'), ("ed", 'e'), ("remove-empty-files", 'E'), ("force", 'f'), ("fuzz", 'F'),
      ("get", 'g'), ("input", 'i'), ("ignore-whitespace", 'l'), ("normal", 'n'), ("forward", 'N'),
      ("output", 'o'), ("strip", 'p'), ("reject-file", 'r'), ("reverse", 'R'), ("quiet", 's'),
      ("silent", 's'), ("batch", 't'), ("set-time", 'T'), ("unified", 'u'), ("version", 'v'),
      ("version-control", 'V'), ("debug", 'x'), ("basename-prefix", 'Y'), ("suffix", 'z'),
      ("set-utc", 'Z'), ("dry-run", 'δ'), ("verbose", 'β'), ("binary", 'η'),
      ("no-backup-if-mismatch", 'ν'), ("backup-if-mismatch", 'χ'), ("posix", 'ι'),
      ("reject-format", 'φ'), ("follow-symlinks", 'ι')] }

/-- A number among the options of `patch`. -/
def patchNumber (what s : String) : Run Nat := do
  if !s.isEmpty && s.toList.all Char.isDigit then return (s.toNat?).getD 0
  else fail "patch" 2 ("**** " ++ what ++ " " ++ s ++ " is not a number")

/-- `patch`. -/
def patchFiles : Utility :=
  withComparisonOptions "patch" patchOptions fun o => do
    if let some extra := o.operands[2]? then comparisonMisused "patch" (extra ++ ": extra operand")
    let strip ← match o.value? 'p' with
      | some s => some <$> patchNumber "strip count" s
      | none => pure none
    let fuzz ← match o.value? 'F' with
      | some s => patchNumber "fuzz factor" s
      | none => pure 2
    if (o.values 'z').contains "" then fail "patch" 2 "**** backup suffix is empty"
    if let some d := o.value? 'd' then
      match ← find d with
      | .ok (p, .directory) => modify fun m => { m with here := p }
      | .ok _ =>
        fail "patch" 2 ("**** Can\x27t change to directory " ++ shownWord d ++ " : Not a directory")
      | .error e =>
        fail "patch" 2 ("**** Can\x27t change to directory " ++ shownWord d ++ " : " ++ causeText e)
    let source := (o.value? 'i').or (o.operands[1]?)
    let text ← match ← readInput (source.getD "-") with
      | .ok s => pure s
      | .error e =>
        fail "patch" 2 ("**** Can\x27t open patch file " ++ shownWord (source.getD "-") ++ " : " ++ e)
    let m : PatchMode := { o, strip, fuzz, target := o.operands.head? }
    if let some output := m.output? then
      if output != "-" then discard <| storeText output ""
    let accepts (form : PatchForm) : Bool :=
      match o.last? ['c', 'n', 'u', 'e'], form with
      | none, _ => true
      | some 'c', .contextual => true
      | some 'n', .normal => true
      | some 'u', .unified => true
      | _, _ => false
    let lines := (fullLines text).zipIdx 1 |>.map fun (l, i) => (⟨i, l⟩ : PatchText)
    let (patches, isLeft) := filePatches accepts m.target.isSome (o.has 'η') (lines.length + 1) lines
    if patches.isEmpty then
      if m.isVerbose then m.inform "Hmm...  I can\x27t seem to find a patch in there anywhere.\n"
      if !text.isEmpty then fail "patch" 2 "**** Only garbage was found in the patch input."
    else
      let (_, isFine) ← patches.foldlM m.patchFile ([], true)
      if m.isVerbose then
        m.inform (if isLeft then "Hmm...  Ignoring the trailing garbage.\ndone\n" else "done\n")
      setStatus (if isFine then 0 else 1)

end PatchSearch.Shell
