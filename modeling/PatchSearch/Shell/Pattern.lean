import PatchSearch.Files.Tree
import PatchSearch.Shell.Octets

/-!
Patterns over whole texts: `*` stands for any text, `?` for any character, and a bracket for one
character of a class. A character that was quoted stands for itself. `matchesPattern` decides a
whole text; `cutPattern` removes the shortest or longest match at one end.
-/
namespace PatchSearch.Shell

/-- Characters by ranges, or all others. -/
structure CharClass where
  negated : Bool
  ranges : List (Char × Char)
  deriving Repr

namespace CharClass

/-- Whether a character belongs to a class. An octet without a character is in no complement. -/
def contains (k : CharClass) (c : Char) : Bool :=
  let isIn := k.ranges.any fun r => r.1 ≤ c && c ≤ r.2
  if k.negated then !isIn && !isStray c else isIn

/-- The ranges of a named class. -/
def named : String → List (Char × Char)
  | "alpha" => [('a', 'z'), ('A', 'Z')]
  | "digit" => [('0', '9')]
  | "alnum" => [('a', 'z'), ('A', 'Z'), ('0', '9')]
  | "upper" => [('A', 'Z')]
  | "lower" => [('a', 'z')]
  | "space" => [(' ', ' '), ('\t', '\r')]
  | "blank" => [(' ', ' '), ('\t', '\t')]
  | "punct" => [('!', '/'), (':', '@'), ('[', '\x60'), ('\x7b', '~')]
  | "xdigit" => [('0', '9'), ('a', 'f'), ('A', 'F')]
  | "cntrl" => [('\x00', '\x1f'), ('\x7f', '\x7f')]
  | "print" => [(' ', '~')]
  | "graph" => [('!', '~')]
  | _ => []

/-- A sign that stands between a bracket and a mark, such as `[.x.]`, and what comes after it. -/
def readSign? (mark : Char) : List (Char × Bool) → Option (String × List (Char × Bool))
  | cs =>
    let name := cs.takeWhile fun c => c.1 != mark && c.1 != ']'
    match cs.drop name.length with
    | (c, _) :: (']', _) :: rest =>
      if c == mark then some (String.ofList (name.map Prod.fst), rest) else none
    | _ => none

/-- One character of a bracket, perhaps between marks, and what comes after it. -/
def readEnd? : List (Char × Bool) → Option (Char × List (Char × Bool))
  | ('[', false) :: (mark, _) :: cs =>
    if mark == '.' || mark == '=' then
      match readSign? mark cs with
      | some (name, rest) => name.toList.head?.map (·, rest)
      | none => some ('[', (mark, false) :: cs)
    else some ('[', (mark, false) :: cs)
  | (c, _) :: cs => some (c, cs)
  | [] => none

/-- The ranges inside a bracket, up to its end. A quoted character stands for itself. -/
def readRanges : Nat → Bool → List (Char × Bool) →
    Option (List (Char × Char) × List (Char × Bool))
  | 0, _, _ => none
  | _, _, [] => none
  | _ + 1, false, (']', false) :: cs => some ([], cs)
  | n + 1, _, ('[', false) :: (':', q) :: cs =>
    match readSign? ':' cs with
    | some (name, rest) =>
      (readRanges n false rest).map fun (rs, rest) => (named name ++ rs, rest)
    | none => (readRanges n false ((':', q) :: cs)).map fun (rs, rest) => (('[', '[') :: rs, rest)
  | n + 1, _, cs =>
    match readEnd? cs with
    | none => none
    | some (c, ('-', false) :: rest) =>
      match rest, readEnd? rest with
      | (']', false) :: _, _ =>
        (readRanges n false (('-', true) :: rest)).map fun (rs, rest) => ((c, c) :: rs, rest)
      | _, some (d, rest) =>
        (readRanges n false rest).map fun (rs, rest) => ((c, d) :: rs, rest)
      | _, none => none
    | some (c, rest) => (readRanges n false rest).map fun (rs, rest) => ((c, c) :: rs, rest)

/-- A class after its opening bracket, which one of some marks negates; nothing if the bracket is
never closed. -/
def readMarked? (marks : List Char) (cs : List (Char × Bool)) :
    Option (CharClass × List (Char × Bool)) :=
  let negated := match cs with
    | (c, false) :: _ => marks.contains c
    | _ => false
  (readRanges (cs.length + 1) true (if negated then cs.drop 1 else cs)).map
    fun (ranges, rest) => (⟨negated, ranges⟩, rest)

/-- A class of a regular expression after its opening bracket. -/
def read? (cs : List Char) : Option (CharClass × List Char) :=
  (readMarked? ['^'] (cs.map (·, false))).map fun (k, rest) => (k, rest.map Prod.fst)

end CharClass

inductive PatternItem where
  | one (c : Char)
  | any
  | oneOf (k : CharClass)
  | many

/-- The pattern that characters spell, each with a mark whether it was quoted. -/
def patternOf : Nat → List (Char × Bool) → List PatternItem
  | 0, _ => []
  | _, [] => []
  | n + 1, (c, quoted) :: cs =>
    if quoted then .one c :: patternOf n cs
    else if c == '*' then .many :: patternOf n cs
    else if c == '?' then .any :: patternOf n cs
    else if c == '[' then
      match CharClass.readMarked? ['!', '^'] cs with
      | some (k, rest) => .oneOf k :: patternOf n rest
      | none => .one c :: patternOf n cs
    else .one c :: patternOf n cs

/-- The pattern of a marked text. -/
def pattern (cs : List (Char × Bool)) : List PatternItem :=
  patternOf cs.length cs

/-- Whether some end of a text passes a test. -/
def someEnd (test : List Char → Bool) : List Char → Bool
  | [] => test []
  | c :: cs => test (c :: cs) || someEnd test cs

/-- Whether a pattern stands for a whole text. -/
def matchesPattern : List PatternItem → List Char → Bool
  | [], cs => cs.isEmpty
  | .many :: ps, cs => someEnd (matchesPattern ps) cs
  | .one d :: ps, c :: cs => c == d && matchesPattern ps cs
  | .any :: ps, _ :: cs => matchesPattern ps cs
  | .oneOf k :: ps, c :: cs => k.contains c && matchesPattern ps cs
  | _ :: _, [] => false

/-- A text without its shortest or longest match at one end. -/
def cutPattern (atEnd longest : Bool) (p : List PatternItem) (cs : List Char) : List Char :=
  let lengths := List.range (cs.length + 1)
  let ordered := if longest then lengths.reverse else lengths
  let matched (n : Nat) : Bool :=
    matchesPattern p (if atEnd then cs.drop (cs.length - n) else cs.take n)
  match ordered.find? matched with
  | some n => if atEnd then cs.take (cs.length - n) else cs.drop n
  | none => cs

theorem matchesPattern_many (cs : List Char) : matchesPattern [.many] cs = true := by
  induction cs with
  | nil => rfl
  | cons c cs ih => simpa [matchesPattern, someEnd] using ih

end PatchSearch.Shell

/-!
Fields of words. An expanded word is a row of atoms: characters, marks that quotes leave behind,
and stretches that came from an expansion. Only such stretches are split at separators; a field
whose unquoted characters form a pattern is replaced by the names of the files that match it.
-/
namespace PatchSearch.Shell

/-- A character, and whether it stands for itself. -/
abbrev Mark := Char × Bool

/-- A piece of an expanded word. -/
inductive Atom where
  | char (c : Char) (isQuoted : Bool)
  /-- What quotes leave behind, so that a field stays even if it is empty. -/
  | trace
  /-- What an expansion yields. A character zero stands between two arguments; if `byArguments`
  holds, nothing else sets fields apart. -/
  | stretch (byArguments : Bool) (text : List Mark)

/-- A text outside of an expansion. -/
def literal (isQuoted : Bool) (s : String) : List Atom :=
  s.toList.map fun c => .char c isQuoted

/-- The characters of atoms. -/
def atomMarks (as : List Atom) : List Mark :=
  as.flatMap fun a =>
    match a with
    | .char c q => [(c, q)]
    | .trace => []
    | .stretch _ text => text.map fun (c, q) => (if c == '\x00' then ' ' else c, q)

def atomText (as : List Atom) : String :=
  String.ofList ((atomMarks as).map Prod.fst)

/-- The pattern that atoms spell. -/
def atomPattern (as : List Atom) : List PatternItem :=
  pattern (atomMarks as)

/-- A field under construction. -/
structure Splitting where
  /-- The fields so far, last one first. -/
  done : List (List Mark) := []
  /-- The characters of the present field, last one first, and whether quotes were met in it. -/
  chars : List Mark := []
  traced : Bool := false
  /-- Whether the last character was a blank separator. -/
  afterBlank : Bool := false
  byArguments : Bool := false

namespace Splitting

def add (s : Splitting) (m : Mark) : Splitting :=
  { s with chars := m :: s.chars, afterBlank := false }

/-- Ends the present field, even an empty one. -/
def close (s : Splitting) : Splitting :=
  { s with done := s.chars.reverse :: s.done, chars := [], traced := false }

/-- Takes a character of a stretch behind one that was set apart by arguments only or not. -/
def takeMark (separators : List Char) (afterArguments : Bool) (s : Splitting) (m : Mark) :
    Splitting :=
  let c := m.1
  let separates := c == '\x00' || !s.byArguments && separators.contains c
  let isBlank := separates && [' ', '\t', '\n', '\x00'].contains c
  if s.afterBlank then
    if isBlank then s
    else if separates then { s with afterBlank := false }
    else s.add m
  else if separates then
    let blank := !(afterArguments || s.byArguments) && isBlank
    if s.chars.isEmpty && !s.traced && blank then s
    else { s.close with afterBlank := blank }
  else s.add m

def take (separators : List Char) (s : Splitting) : Atom → Splitting
  | .char c q => { s with chars := (c, q) :: s.chars }
  | .trace => { s with traced := true }
  | .stretch byArguments text =>
    text.foldl (takeMark separators s.byArguments) { s with byArguments, afterBlank := false }

/-- All fields. -/
def finish (s : Splitting) : List (List Mark) :=
  if s.byArguments || s.traced || !s.chars.isEmpty then s.close.done.reverse else s.done.reverse

end Splitting

/-- The fields of atoms. -/
def fieldsOf (separators : List Char) (as : List Atom) : List (List Mark) :=
  (as.foldl (Splitting.take separators) {}).finish

example :
    (fieldsOf [' '] [.stretch false [('a', false), (' ', false), ('b', false)]]).length = 2 := by
  decide

/-- Whether a bracket closes in a text. -/
def closesBracket (cs : List Mark) : Bool :=
  (cs.drop 1).any fun m => m.1 == ']'

/-- Whether a name is a pattern. -/
def isPattern : List Mark → Bool
  | [] => false
  | (c, q) :: cs =>
    !q && (c == '*' || c == '?' || c == '[' && closesBracket (cs.takeWhile (·.1 != '/'))) ||
      isPattern cs

/-- The parts of a field between slashes. -/
def fieldParts (pending : List Mark) : List Mark → List (List Mark)
  | [] => [pending.reverse]
  | (c, q) :: cs =>
    if c == '/' then pending.reverse :: fieldParts [] cs else fieldParts ((c, q) :: pending) cs

/-- The names in a directory that match a part of a pattern. -/
def matchingNames (files : FileTree) (directory : String) (part : List Mark) : List String :=
  let path := if directory.isEmpty then "." else textOfOctets directory
  match files.find path with
  | .ok (p, .directory) =>
    let hidden := part.head?.any fun m => m.1 == '.'
    let names := (if hidden then [".", ".."] else []) ++ (files.namesBelow p).map octets
    names.filter fun n =>
      (hidden || n.toList.head? != some '.') && matchesPattern (pattern part) n.toList
  | _ => []

/-- The paths that match the rest of a pattern behind a path; `slash` tells whether a slash comes
before the next part. -/
def matchingPaths (files : FileTree) : List (List Mark) → String → List String
  | [], path => [path]
  | [last], path =>
    if isPattern last then (matchingNames files path last).map (path ++ ·)
    else
      let whole := path ++ String.ofList (last.map Prod.fst)
      if (files.findLink (textOfOctets whole)).toOption.isSome then [whole] else []
  | part :: rest, path =>
    if isPattern part then
      (matchingNames files path part).flatMap fun n => matchingPaths files rest (path ++ n ++ "/")
    else matchingPaths files rest (path ++ String.ofList (part.map Prod.fst) ++ "/")

/-- The files that a field matches in ascending order, or the field itself. -/
def globField (files : FileTree) (field : List Mark) : List String :=
  let text := String.ofList (field.map Prod.fst)
  if !isPattern field then [text]
  else
    match matchingPaths files (fieldParts [] field) "" with
    | [] => [text]
    | found => found.mergeSort fun a b => decide (a ≤ b)

end PatchSearch.Shell
