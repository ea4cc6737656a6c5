import PatchSearch.Shell.Pattern
import PatchSearch.Shell.Octets
import PatchSearch.Shell.Redirect
import Std.Data.HashMap

/-!
Words of rules: names set apart by blanks, patterns with a percent sign that stands for a stem, and
the parts of file names.
-/
namespace PatchSearch.Shell.Rebuild

/-- The words of a text. -/
def wordsOf (s : String) : List String :=
  ((s.toList.splitBy fun a b => isSpace a == isSpace b).filter fun g =>
    !(g.head?.any isSpace)).map String.ofList

def joinWords (ws : List String) : String :=
  String.intercalate " " ws

/-- A text without blanks at both ends. -/
def trimmed (s : String) : String :=
  String.ofList (((s.toList.dropWhile isSpace).reverse.dropWhile isSpace).reverse)

/-- The parts of a pattern around its first percent sign. A backslash in front of a percent sign
takes its meaning away. -/
def percentParts? (front : List Char) : List Char → Option (String × String)
  | [] => none
  | '\\' :: '%' :: cs => percentParts? ('%' :: front) cs
  | '%' :: cs => some (String.ofList front.reverse, String.ofList cs)
  | c :: cs => percentParts? (c :: front) cs

def hasPercent (s : String) : Bool :=
  (percentParts? [] s.toList).isSome

/-- What the percent sign of a pattern stands for in a word. -/
def stemBetween? (front back word : String) : Option String :=
  let n := word.length
  if front.length + back.length ≤ n && word.startsWith front && word.endsWith back then
    some (String.ofList ((word.toList.drop front.length).take (n - front.length - back.length)))
  else none

/-- Whether a word fits a pattern, and the stem if the pattern has one. -/
def stem? (pattern word : String) : Option String :=
  match percentParts? [] pattern.toList with
  | some (front, back) => stemBetween? front back word
  | none => if pattern == word then some "" else none

/-- A pattern with a stem in place of its percent sign. -/
def withStem (pattern stem : String) : String :=
  match percentParts? [] pattern.toList with
  | some (front, back) => front ++ stem ++ back
  | none => pattern

/-- A word after a replacement for words that fit a pattern. -/
def replacedWord (pattern replacement word : String) : String :=
  match percentParts? [] pattern.toList with
  | some (front, back) =>
    match stemBetween? front back word with
    | some stem => withStem replacement stem
    | none => word
  | none => if pattern == word then replacement else word

/-- A text with one text in place of another one. -/
def substituted (old new s : String) : String :=
  if old.isEmpty then s ++ new else String.intercalate new (s.splitOn old)

/-- A text with a new ending for each word that has an old one. -/
def withEndings (old new s : String) : String :=
  joinWords ((wordsOf s).map (replacedWord ("%" ++ old) ("%" ++ new)))

/-- The part of a name up to its last slash. -/
def frontOf (name : String) : String :=
  let cs := name.toList.reverse.dropWhile (· != '/')
  if cs.isEmpty then "./" else String.ofList cs.reverse

/-- The part of a name behind its last slash. -/
def backOf (name : String) : String :=
  String.ofList ((name.toList.reverse.takeWhile (· != '/')).reverse)

/-- The last point of a name and what follows, if it is in the last part. -/
def endingOf (name : String) : String :=
  let back := name.toList.reverse
  let ending := back.takeWhile fun c => c != '.' && c != '/'
  match back.drop ending.length with
  | '.' :: _ => String.ofList ('.' :: ending.reverse)
  | _ => ""

/-- A name without its ending. -/
def bareName (name : String) : String :=
  String.ofList (name.toList.take (name.length - (endingOf name).length))

/-- A name without `./` in front, which makes no difference. -/
def plainName (name : String) : String :=
  let rec go : Nat → List Char → List Char
    | n + 1, '.' :: '/' :: cs =>
      let rest := cs.dropWhile (· == '/')
      if rest.isEmpty then '.' :: '/' :: cs else go n rest
    | _, cs => cs
  String.ofList (go name.length name.toList)

/-- The words of a text in order, each of them once. -/
def sortedWords (s : String) : List String :=
  let sorted := (wordsOf s).mergeSort fun a b => !(b < a)
  sorted.foldr (fun w ws => if ws.head? == some w then ws else w :: ws) []

/-- Words of two lists joined one by one. -/
def pairedWords : List String → List String → List String
  | a :: as, b :: bs => (a ++ b) :: pairedWords as bs
  | [], bs => bs
  | as, [] => as

/-- A path without empty parts, points and steps back. -/
def absolutePath (here name : String) : String :=
  let whole := if name.startsWith "/" then name else here ++ "/" ++ name
  let parts := (whole.splitOn "/").foldl (fun done part =>
    if part.isEmpty || part == "." then done
    else if part == ".." then done.drop 1
    else part :: done) []
  "/" ++ String.intercalate "/" parts.reverse


end PatchSearch.Shell.Rebuild

/-!
Rules for building files: targets, what they need, and recipes that make them, with settings whose
values stand in all of these. A build works on a book of such rules and notes there what it knows of
each file.
-/
namespace PatchSearch.Shell.Rebuild

open Run

/-- Where the value of a setting comes from. -/
inductive Origin where
  | builtIn
  | environment
  | file
  | commandLine
  | overriding
  | automatic
  deriving DecidableEq

namespace Origin

def name : Origin → String
  | builtIn => "default"
  | environment => "environment"
  | file => "file"
  | commandLine => "command line"
  | overriding => "override"
  | automatic => "automatic"

/-- How much an origin counts. -/
def weight : Origin → Nat
  | builtIn => 0
  | environment => 1
  | file => 2
  | commandLine => 4
  | overriding => 5
  | automatic => 6

end Origin

/-- A named value. -/
structure Setting where
  value : String
  /-- Whether the value is expanded each time it is asked for. -/
  isDeferred : Bool := true
  origin : Origin := .file
  /-- Whether commands see it, if that was said. -/
  exported : Option Bool := none
  /-- Where it got its value. -/
  place : Option (String × Nat) := none

/-- How a setting gets its value. -/
inductive Setter where
  | deferred
  | direct
  | added
  | missingOnly
  | output
  deriving DecidableEq

/-- A setting as it stands in a text. -/
structure Assignment where
  name : String
  setter : Setter
  value : String
  overrides : Bool := false
  exported : Option Bool := none

/-- Lines of commands, and where the first of them stands. -/
structure Recipe where
  file : Option String
  line : Nat
  lines : List String

/-- What is needed for a target by one of its rules. -/
structure Need where
  name : String
  /-- Whether it only has to be there first. -/
  orderOnly : Bool := false
  deriving DecidableEq

/-- What makes a target: what it needs, the recipe, and the stem that it was found by. -/
structure Rule where
  needs : List Need := []
  recipe : Option Recipe := none
  stem : String := ""
  /-- Targets that the recipe makes at the same time. -/
  siblings : List String := []

/-- A rule for all targets that fit its patterns. -/
structure PatternRule where
  targets : List String
  needs : List Need
  recipe : Option Recipe
  /-- Whether it counts only if what it needs is there. -/
  isFinal : Bool := false

/-- What is said about a file in rules. -/
structure Target where
  /-- Whether a rule has it as its target. -/
  isTarget : Bool := false
  rule : Rule := {}
  /-- Rules that each count by themselves. -/
  separate : List Rule := []
  settings : List Assignment := []

/-- How far a file has come. -/
inductive Progress where
  | untouched
  | busy
  | finished (ok : Bool)
  /-- It would have to be made, which is only asked. -/
  | wanted
  deriving DecidableEq

/-- When a file was changed last: not at all, if there is no such file. -/
inductive Age where
  | missing
  | changed (nanos : Nat)
  | newest
  deriving DecidableEq

namespace Age

def isMissing : Age → Bool
  | missing => true
  | _ => false

/-- Whether one file was changed later than another one. -/
def isLater : Age → Age → Bool
  | missing, _ => false
  | _, missing => true
  | changed m, .changed n => n < m
  | newest, .changed _ => true
  | _, newest => false

end Age

/-- What a build knows of a file. -/
structure Knowledge where
  progress : Progress := .untouched
  age : Option Age := none
  /-- Whether rules for patterns were tried. -/
  triedPatterns : Bool := false
  /-- Whether it is made on the way to something else only. -/
  isPassing : Bool := false
  parent : Option String := none
  /-- The path that it was found at in a directory to search. -/
  foundAt : Option String := none

/-- How a build goes about its work. -/
structure BuildMode where
  silent : Bool := false
  onlyPrints : Bool := false
  onlyAsks : Bool := false
  touches : Bool := false
  keepsGoing : Bool := false
  ignoresErrors : Bool := false
  always : Bool := false
  level : Nat := 0
  printsDirectory : Bool := false
  hidesDirectory : Bool := false
  environmentWins : Bool := false
  withoutBuiltIn : Bool := false
  letters : String := ""
  /-- Directories to look for further texts in. -/
  included : List String := []
  /-- Files that count as old, and as new. -/
  oldFiles : List String := []
  newFiles : List String := []
  warnsUndefined : Bool := false

/-- The rules of a build and its state. -/
structure Book where
  mode : BuildMode := {}
  settings : Std.HashMap String Setting := {}
  /-- Settings that hold only inside of something, innermost first. -/
  scopes : List (Std.HashMap String Setting) := []
  targets : Std.HashMap String Target := {}
  /-- All names that rules mention. -/
  mentioned : Std.HashMap String Unit := {}
  patterns : List PatternRule := []
  patternSettings : List (String × Assignment) := []
  /-- Directories to look for files in whose names fit a pattern. -/
  searched : List (String × List String) := []
  endings : List String := []
  goal : Option String := none
  known : Std.HashMap String Knowledge := {}
  /-- Deferred settings that are being expanded. -/
  expanding : List String := []
  /-- Where the text that is read or the recipe that is expanded stands. -/
  place : Option (String × Nat) := none
  exportsAll : Bool := false
  /-- How many command lines were started. -/
  started : Nat := 0
  /-- Files that were made on the way and go at the end. -/
  passing : List String := []
  /-- Texts that could not be read, with the place where they were asked for. -/
  unread : List (String × Option (String × Nat)) := []

/-- A step of a build; it stops with a status. -/
abbrev Build := ExceptT Nat (StateT Book Run)

namespace Build

def run {α : Type} (x : Run α) : Build α :=
  monadLift x

def book : Build Book :=
  getThe Book

/-- The name that messages start with. -/
def ownName : Build String := do
  let m ← run get
  let name := ((m.name.splitOn "/").getLast?).getD m.name
  let level := (← book).mode.level
  return if level = 0 then name else name ++ "[" ++ toString level ++ "]"

/-- Tells a message. -/
def tellText (text : String) : Build Unit := do
  let name ← ownName
  run (tell (name ++ ": " ++ text ++ "\n"))

/-- Tells a message at the present place in a text. -/
def tellHere (text : String) : Build Unit := do
  match (← book).place with
  | some (file, line) => run (tell (file ++ ":" ++ toString line ++ ": " ++ text ++ "\n"))
  | none => tellText text

/-- Ends the build with a message. -/
def stopHere {α : Type} (text : String) : Build α := do
  tellHere ("*** " ++ text ++ ".  Stop.")
  throw 2

def stop {α : Type} (text : String) : Build α := do
  tellText ("*** " ++ text ++ ".  Stop.")
  throw 2

/-- Writes a line of output. -/
def print (text : String) : Build Unit :=
  run (do discard <| write 1 text)

/-- Runs a step with the settings of a scope in front. -/
def withScope {α : Type} (scope : Std.HashMap String Setting) (x : Build α) : Build α := do
  modifyThe Book fun b => { b with scopes := scope :: b.scopes }
  let a ← x
  modifyThe Book fun b => { b with scopes := b.scopes.drop 1 }
  return a

/-- The setting of a name. -/
def setting? (name : String) : Build (Option Setting) := do
  let b ← book
  return (b.scopes.findSome? fun s => s[name]?).orElse fun _ => b.settings[name]?

/-- What is known of a file. -/
def known (name : String) : Build Knowledge := do
  return ((← book).known[name]?).getD {}

def changeKnown (name : String) (f : Knowledge → Knowledge) : Build Unit :=
  modifyThe Book fun b => { b with known := b.known.insert name (f ((b.known[name]?).getD {})) }

def target (name : String) : Build Target := do
  return ((← book).targets[name]?).getD {}

def changeTarget (name : String) (f : Target → Target) : Build Unit :=
  modifyThe Book fun b => { b with
    targets := b.targets.insert name (f ((b.targets[name]?).getD {}))
    mentioned := b.mentioned.insert name () }

/-- Gives a value to a setting unless one counts more that is there. -/
def put (name : String) (s : Setting) : Build Unit := do
  let environmentWins := (← book).mode.environmentWins
  modifyThe Book fun b =>
    match b.settings[name]? with
    | some old =>
      let weight (o : Origin) : Nat := if environmentWins && o == .environment then 3 else o.weight
      if weight s.origin < weight old.origin then b
      else
        let exported := s.exported.orElse fun _ => old.exported
        { b with settings := b.settings.insert name { s with exported } }
    | none => { b with settings := b.settings.insert name s }

/-- The text of the directory. -/
def place : Build String := do
  return octets (FileTree.positionText (← run get).here)

/-- The files that a pattern stands for; nothing if there are none. -/
def filesLike (pattern : String) : Build (List String) := do
  let t ← run files
  let marks := pattern.toList.map fun c => (c, false)
  let found := globField t marks
  if isPattern marks then
    let isThere (name : String) : Bool := (t.findLink (textOfOctets name)).toOption.isSome
    return if found == [pattern] then found.filter isThere else found
  return found.filter fun f => (t.find (textOfOctets f)).toOption.isSome

/-- Words with the files that their patterns stand for in their place. -/
def spread (words : List String) : Build (List String) := do
  let mut all : List (List String) := []
  for w in words do
    if isPattern (w.toList.map fun c => (c, false)) then
      let found ← filesLike w
      all := (if found.isEmpty then [w] else found) :: all
    else all := [w] :: all
  return all.reverse.flatten

end Build

end PatchSearch.Shell.Rebuild

/-!
Expanding texts: references to settings and calls of functions are replaced by their values. What a
function does with its arguments is told apart from how they are found, since some functions expand
their arguments themselves.
-/
namespace PatchSearch.Shell.Rebuild

open Run

/-- A part of a text that is expanded. -/
inductive Piece where
  | text (s : String)
  /-- What stands between the brackets of a reference. -/
  | reference (opening : Char) (body : String)
  deriving Inhabited

/-- The bracket that closes another one. -/
def closing (c : Char) : Char :=
  if c == '(' then ')' else '\x7d'

/-- What stands before the bracket that closes, with brackets of the same kind in pairs, and what
follows. -/
def upToClosing? (opening : Char) : Nat → List Char → List Char → Option (List Char × List Char)
  | _, _, [] => none
  | depth, taken, c :: cs =>
    if c == closing opening then
      match depth with
      | 0 => some (taken.reverse, cs)
      | depth + 1 => upToClosing? opening depth (c :: taken) cs
    else upToClosing? opening (if c == opening then depth + 1 else depth) (c :: taken) cs

/-- The pieces of a text; nothing if a reference does not end. The number bounds the text. -/
def pieces? : Nat → List Char → Option (List Piece)
  | 0, _ => some []
  | _, [] => some []
  | n + 1, '$' :: cs =>
    match cs with
    | [] => some [.text "$"]
    | '$' :: rest => (pieces? n rest).map (.text "$" :: ·)
    | c :: rest =>
      if c == '(' || c == '\x7b' then do
        let (body, rest) ← upToClosing? c 0 [] rest
        let more ← pieces? n rest
        return .reference c (String.ofList body) :: more
      else (pieces? n rest).map (.reference '(' (String.singleton c) :: ·)
  | n + 1, cs =>
    let plain := cs.takeWhile (· != '$')
    (pieces? n (cs.drop plain.length)).map (.text (String.ofList plain) :: ·)

/-- Arguments set apart by commas outside of brackets, at most so many; the last one keeps further
commas. -/
def argumentsOf (opening : Char) (most : Nat) : Nat → List Char → List Char → List String
  | _, taken, [] => [String.ofList taken.reverse]
  | depth, taken, c :: cs =>
    if c == ',' && depth = 0 && most != 1 then
      String.ofList taken.reverse :: argumentsOf opening (most - 1) 0 [] cs
    else
      let depth := if c == opening then depth + 1 else if c == closing opening then depth - 1
        else depth
      argumentsOf opening most depth (c :: taken) cs

/-- A function: the least and the largest number of arguments, none for any, and whether they are
expanded before it is called. -/
structure Function where
  least : Nat
  most : Nat
  expands : Bool := true

/-- The functions by name. -/
def functions : List (String × Function) :=
  [("abspath", ⟨0, 1, true⟩), ("addprefix", ⟨2, 2, true⟩), ("addsuffix", ⟨2, 2, true⟩),
    ("and", ⟨1, 0, false⟩), ("basename", ⟨0, 1, true⟩), ("call", ⟨1, 0, true⟩),
    ("dir", ⟨0, 1, true⟩), ("error", ⟨0, 1, true⟩), ("eval", ⟨0, 1, true⟩),
    ("file", ⟨1, 2, true⟩), ("filter", ⟨2, 2, true⟩), ("filter-out", ⟨2, 2, true⟩),
    ("findstring", ⟨2, 2, true⟩), ("firstword", ⟨0, 1, true⟩), ("flavor", ⟨0, 1, true⟩),
    ("foreach", ⟨3, 3, false⟩), ("if", ⟨2, 3, false⟩), ("info", ⟨0, 1, true⟩),
    ("join", ⟨2, 2, true⟩), ("lastword", ⟨0, 1, true⟩), ("notdir", ⟨0, 1, true⟩),
    ("or", ⟨1, 0, false⟩), ("origin", ⟨0, 1, true⟩), ("patsubst", ⟨3, 3, true⟩),
    ("realpath", ⟨0, 1, true⟩), ("shell", ⟨0, 1, true⟩), ("sort", ⟨0, 1, true⟩),
    ("strip", ⟨0, 1, true⟩), ("subst", ⟨3, 3, true⟩), ("suffix", ⟨0, 1, true⟩),
    ("value", ⟨0, 1, true⟩), ("warning", ⟨0, 1, true⟩), ("wildcard", ⟨0, 1, true⟩),
    ("word", ⟨2, 2, true⟩), ("wordlist", ⟨3, 3, true⟩), ("words", ⟨0, 1, true⟩)]

/-- What expansion asks of those who use it: how a program becomes another one, and how a text is
read as rules. -/
structure Surroundings where
  become : List String → Run FileError
  evaluate : String → Build Unit

/-- The value of a function that only works on the texts of its arguments. -/
def pureFunction? (name : String) (args : List String) : Option String :=
  let each (f : String → String) (s : String) : String := joinWords ((wordsOf s).map f)
  match name, args with
  | "subst", [old, new, s] => some (substituted old new s)
  | "patsubst", [p, r, s] => some (each (replacedWord (trimmed p) (trimmed r)) s)
  | "strip", [s] => some (each id s)
  | "findstring", [s, t] => some (if (t.splitOn s).length > 1 || s.isEmpty then s else "")
  | "filter", [ps, s] =>
    some (joinWords ((wordsOf s).filter fun w => (wordsOf ps).any fun p => (stem? p w).isSome))
  | "filter-out", [ps, s] =>
    some (joinWords ((wordsOf s).filter fun w => (wordsOf ps).all fun p => (stem? p w).isNone))
  | "sort", [s] => some (joinWords (sortedWords s))
  | "words", [s] => some (toString (wordsOf s).length)
  | "firstword", [s] => some ((wordsOf s).headD "")
  | "lastword", [s] => some ((wordsOf s).getLastD "")
  | "dir", [s] => some (each frontOf s)
  | "notdir", [s] => some (joinWords (((wordsOf s).map backOf).filter (!·.isEmpty)))
  | "suffix", [s] => some (joinWords (((wordsOf s).map endingOf).filter (!·.isEmpty)))
  | "basename", [s] => some (each bareName s)
  | "addsuffix", [x, s] => some (each (· ++ x) s)
  | "addprefix", [x, s] => some (each (x ++ ·) s)
  | "join", [a, b] => some (joinWords (pairedWords (wordsOf a) (wordsOf b)))
  | _, _ => none

/-- A whole number among arguments, or the end of the build. -/
def argumentNumber (function ordinal s : String) : Build Nat := do
  let s' := trimmed s
  if s'.isEmpty || !s'.toList.all Char.isDigit then
    Build.stopHere ("non-numeric " ++ ordinal ++ " argument to \x27" ++ function ++
      "\x27 function: \x27" ++ s ++ "\x27")
  return ((integer? s').getD 0).toNat

/-- Starts a command line in a shell. -/
def startShell (s : Surroundings) (command : String)
    (inside : List (Nat × Channel) → List (Nat × Channel)) : Build Nat := do
  Build.run <| start (fun cs => inside (cs.filter (·.1 < keptFrom))) do
    let e ← s.become ["/bin/sh", "-c", command]
    tell ("make: /bin/sh: " ++ causeText e ++ "\n")
    setStatus 127

/-- What a command prints, in one line. -/
def outputOf (s : Surroundings) (command : String) : Build String := do
  let i ← Build.run (newPipe "")
  let d := keptFrom + (← Build.run get).keeping
  Build.run (modify fun m => { m with keeping := m.keeping + 1 })
  Build.run (setChannel d (some (.source i)))
  let child ← startShell s command fun cs => (1, .sink i) :: cs.filter (·.1 != 1)
  let text ← Build.run (readAll (.source i))
  Build.run (setChannel d none)
  Build.run (discard (waitEnd child))
  let cs := (text.toOption.getD "").toList
  let kept := (cs.reverse.dropWhile (· == '\n')).reverse
  return String.ofList (kept.map fun c => if c == '\n' then ' ' else c)

/-- The names of automatic settings with a letter for directories or names behind them. -/
def automaticPart? (name : String) : Option (String × Bool) :=
  match name.toList with
  | [c, 'D'] => if "@%*<?^+|".toList.contains c then some (String.singleton c, true) else none
  | [c, 'F'] => if "@%*<?^+|".toList.contains c then some (String.singleton c, false) else none
  | _ => none

/-- The directory of a name, without a slash behind it. -/
def directoryPart (name : String) : String :=
  let front := frontOf name
  if front == "/" then front else String.ofList front.toList.dropLast

mutual

/-- A text with its references replaced. The number bounds their depth. -/
def expand (s : Surroundings) : Nat → String → Build String
  | 0, _ => return ""
  | n + 1, text => do
    if !text.toList.contains '$' then return text
    match pieces? (text.length + 1) text.toList with
    | none => Build.stopHere "unterminated variable reference"
    | some ps =>
      let parts ← ps.mapM fun p =>
        match p with
        | .text t => pure t
        | .reference opening body => reference s n opening body
      return String.join parts

/-- The value of what stands in a reference. -/
def reference (s : Surroundings) : Nat → Char → String → Build String
  | 0, _, _ => return ""
  | n + 1, opening, body => do
    let word := body.toList.takeWhile fun c => !(c == ' ' || c == '\t' || c == '\n')
    let rest := body.toList.drop word.length
    match functions.lookup (String.ofList word), rest with
    | some f, _ :: _ =>
      let name := String.ofList word
      let args := argumentsOf opening f.most 0 [] (rest.dropWhile fun c => isSpace c)
      if args.length < f.least then
        Build.stopHere ("insufficient number of arguments (" ++ toString args.length ++
          ") to function \x27" ++ name ++ "\x27")
      let args ← if f.expands then args.mapM (expand s n) else pure args
      callFunction s n name args
    | _, _ =>
      let body ← expand s n body
      match body.splitOn ":" with
      | name :: more@(_ :: _) =>
        let change := String.intercalate ":" more
        match change.splitOn "=" with
        | old :: new@(_ :: _) =>
          let value ← valueOf s n name
          let new := String.intercalate "=" new
          return if hasPercent old then
              joinWords ((wordsOf value).map (replacedWord old new))
            else withEndings old new value
        | _ => valueOf s n body
      | _ => valueOf s n body

/-- The value of a setting. -/
def valueOf (s : Surroundings) : Nat → String → Build String
  | 0, _ => return ""
  | n + 1, name => do
    match ← Build.setting? name with
    | some v =>
      if !v.isDeferred then return v.value
      else if (← Build.book).expanding.contains name then
        modifyThe Book fun b => { b with place := v.place.orElse fun _ => b.place }
        Build.stopHere ("Recursive variable \x27" ++ name ++
          "\x27 references itself (eventually)")
      else
        let place := (← Build.book).place
        modifyThe Book fun b => { b with
          expanding := name :: b.expanding
          place := v.place.orElse fun _ => place }
        let value ← expand s n v.value
        modifyThe Book fun b => { b with expanding := b.expanding.drop 1, place }
        return value
    | none =>
      match automaticPart? name with
      | some (base, isDirectory) =>
        let words := wordsOf (← valueOf s n base)
        return joinWords (words.map (if isDirectory then directoryPart else backOf))
      | none =>
        match name with
        | "CURDIR" => Build.place
        | ".DEFAULT_GOAL" => return ((← Build.book).goal).getD ""
        | _ =>
          if (← Build.book).mode.warnsUndefined && !name.isEmpty then
            Build.tellHere ("warning: undefined variable \x27" ++ name ++ "\x27")
          return ""

/-- The first of some conditions whose value decides, with the value. -/
def firstDeciding (s : Surroundings) : Nat → Bool → String → List String → Build String
  | 0, _, last, _ => return last
  | _, _, last, [] => return last
  | n + 1, stopsAtText, _, arg :: args => do
    let value ← expand s n (trimmed arg)
    if value.isEmpty == !stopsAtText then return value
    else firstDeciding s n stopsAtText value args

/-- A text once for each of some words. -/
def forEachWord (s : Surroundings) : Nat → String → String → List String → Build (List String)
  | 0, _, _, _ => return []
  | _, _, _, [] => return []
  | n + 1, name, body, w :: ws => do
    let scope : Std.HashMap String Setting :=
      (∅ : Std.HashMap String Setting).insert name
        { value := w, isDeferred := false, origin := .automatic }
    let value ← Build.withScope scope (expand s n body)
    return value :: (← forEachWord s n name body ws)

/-- The value of a function. -/
def callFunction (s : Surroundings) : Nat → String → List String → Build String
  | 0, _, _ => return ""
  | n + 1, name, args => do
    match pureFunction? name args with
    | some value => return value
    | none =>
      match name, args with
      | "word", [k, t] =>
        let i ← argumentNumber "word" "first" k
        if i = 0 then
          Build.stopHere "first argument to \x27word\x27 function must be greater than 0"
        return (wordsOf t).getD (i - 1) ""
      | "wordlist", [k, l, t] =>
        let i ← argumentNumber "wordlist" "first" k
        let j ← argumentNumber "wordlist" "second" l
        if i = 0 then
          Build.stopHere ("invalid first argument to \x27wordlist\x27 function: \x27" ++
            toString i ++ "\x27")
        return joinWords (((wordsOf t).take j).drop (i - 1))
      | "wildcard", [t] =>
        return joinWords (← (wordsOf t).mapM Build.filesLike).flatten
      | "abspath", [t] =>
        let here ← Build.place
        return joinWords ((wordsOf t).map (absolutePath here))
      | "realpath", [t] =>
        let tree ← Build.run files
        return joinWords ((wordsOf t).filterMap fun w =>
          match tree.find (textOfOctets w) with
          | .ok (p, _) => some (octets (FileTree.positionText p))
          | .error _ => none)
      | "if", cond :: yes :: no =>
        let value ← expand s n (trimmed cond)
        if value.isEmpty then expand s n (no.headD "") else expand s n yes
      | "or", conds => firstDeciding s n true "" conds
      | "and", conds => firstDeciding s n false "" conds
      | "foreach", [var, list, body] =>
        let name := trimmed (← expand s n var)
        let words := wordsOf (← expand s n list)
        return joinWords (← forEachWord s n name body words)
      | "call", function :: given =>
        let function := trimmed function
        match functions.lookup function with
        | some f =>
          let given := if f.most = 0 || given.length ≤ f.most then given
            else given.take (f.most - 1) ++
              [String.intercalate "," (given.drop (f.most - 1))]
          callFunction s n function given
        | none =>
          match ← Build.setting? function with
          | none => return ""
          | some v =>
            let numbered := (function :: given).zipIdx
            let count := numbered.length
            let blank := (List.range (10 - count)).map fun i => ("", count + i)
            let scope := (numbered ++ blank).foldl (fun scope (value, i) =>
              scope.insert (toString i)
                { value, isDeferred := false, origin := .automatic : Setting }) ∅
            if v.isDeferred then Build.withScope scope (expand s n v.value) else return v.value
      | "value", [t] => return ((← Build.setting? t).map (·.value)).getD ""
      | "origin", [t] =>
        match ← Build.setting? t with
        | some v => return v.origin.name
        | none => return "undefined"
      | "flavor", [t] =>
        match ← Build.setting? t with
        | some v => return if v.isDeferred then "recursive" else "simple"
        | none => return "undefined"
      | "shell", [t] => outputOf s t
      | "eval", [t] =>
        s.evaluate t
        return ""
      | "info", [t] =>
        Build.print (t ++ "\n")
        return ""
      | "warning", [t] =>
        Build.tellHere t
        return ""
      | "error", [t] => Build.stopHere t
      | "file", how :: text =>
        let how := trimmed how
        let name := trimmed (String.ofList (how.toList.dropWhile fun c => c == '>' || c == '<'))
        let text := text.head?.map fun t => if t.endsWith "\n" then t else t ++ "\n"
        if how.startsWith "<" then
          match ← Build.run (openForReading name) with
          | .error _ => return ""
          | .ok c =>
            let cs := ((← Build.run (readAll c)).toOption.getD "").toList
            return String.ofList (if cs.getLast? == some '\n' then cs.dropLast else cs)
        else if how.startsWith ">" then
          let mode := if how.startsWith ">>" then OpenMode.append else .overwrite
          match ← Build.run (openForWriting name mode) with
          | .error e => Build.stopHere ("open: " ++ name ++ ": " ++ causeText e)
          | .ok c =>
            discard (Build.run (writeTo (some c) (text.getD "")))
            return ""
        else Build.stopHere ("file: invalid file operation: " ++ how)
      | _, _ => return ""

end

end PatchSearch.Shell.Rebuild
