import PatchSearch.Shell.RecordScript.Token
import PatchSearch.Shell.Regex.Reader

/-!
The regular expressions of scripts. They are the extended ones without counted repetitions; a
backslash makes escapes as in texts, also between square brackets, and an operator that lacks its
operand is a fault.
-/
namespace PatchSearch.Shell.RecordScript

inductive PatternToken where
  | single (r : Regex)
  | opening
  | closing
  | bar
  | star
  | plus
  | option
  deriving Repr

/-- A character behind a backslash, marked as standing for itself. -/
def patternEscape (cs : List Char) : Char × List Char :=
  match cs with
  | 'x' :: _ => ((cs.head?).getD 'x', cs.drop 1)
  | _ =>
    match escape? cs with
    | some found => found
    | none => ((cs.head?).getD '\\', cs.drop 1)

/-- The characters of a class with those behind a backslash marked, up to the closing bracket. -/
def markedClass : Nat → List Char → List (Char × Bool)
  | 0, _ => []
  | _, [] => []
  | n + 1, '\\' :: c :: cs =>
    let (d, rest) := patternEscape (c :: cs)
    (d, true) :: markedClass n rest
  | n + 1, c :: cs => (c, false) :: markedClass n cs

/-- The tokens of a regular expression. `open'` counts the brackets that are open. -/
def patternTokens : Nat → Nat → List Char → Except String (List PatternToken)
  | 0, _, _ => .ok []
  | _, _, [] => .ok []
  | n + 1, depth, c :: cs => do
    let single (r : Regex) (rest : List Char) : Except String (List PatternToken) := do
      return .single r :: (← patternTokens n depth rest)
    match c with
    | '\\' =>
      if cs.isEmpty then single (Regex.letter '\\') cs
      else
        let (d, rest) := patternEscape cs
        single (Regex.letter d) rest
    | '.' => single Regex.anyChar cs
    | '^' => single (.edge .start) cs
    | '$' => single (.edge .finish) cs
    | '(' => return .opening :: (← patternTokens n (depth + 1) cs)
    | ')' =>
      if depth = 0 then single (Regex.letter ')') cs
      else return .closing :: (← patternTokens n (depth - 1) cs)
    | '|' => return .bar :: (← patternTokens n depth cs)
    | '*' => return .star :: (← patternTokens n depth cs)
    | '+' => return .plus :: (← patternTokens n depth cs)
    | '?' => return .option :: (← patternTokens n depth cs)
    | '[' =>
      match CharClass.readMarked? ['^'] (markedClass (cs.length + 1) cs) with
      | some (k, rest) => single (.one k) (rest.foldr (fun c cs =>
          if c.2 then '\\' :: c.1 :: cs else c.1 :: cs) [])
      | none => throw "bad class -- [], [^] or ["
    | _ => single (Regex.letter c) cs

def isStart : Regex → Bool
  | .edge .start => true
  | _ => false

/-- The repetitions behind a part. -/
def repetitions (r : Regex) : List PatternToken → Except String (Regex × List PatternToken)
  | .star :: ts =>
    if isStart r then throw "syntax error ^* or ^+" else repetitions (.repeated r 0 none false) ts
  | .plus :: ts =>
    if isStart r then throw "syntax error ^* or ^+" else repetitions (.repeated r 1 none false) ts
  | .option :: ts => repetitions (.repeated r 0 (some 1) false) ts
  | ts => .ok (r, ts)

mutual

/-- Alternatives up to a closing bracket or the end. The second number counts the brackets that
are open. -/
def patternChoice : Nat → Nat → List PatternToken → Except String (Regex × List PatternToken)
  | 0, _, ts => .ok (.nothing, ts)
  | n + 1, depth, ts => do
    let (a, ts) ← patternBranch n depth none ts
    match ts with
    | .bar :: ts =>
      let (b, ts) ← patternChoice n depth ts
      return (.either a b, ts)
    | _ => return (a, ts)

/-- A branch behind what has been read of it. -/
def patternBranch : Nat → Nat → Option Regex → List PatternToken →
    Except String (Regex × List PatternToken)
  | 0, _, done, ts => .ok (done.getD .nothing, ts)
  | n + 1, depth, done, ts => do
    let further (r : Regex) (ts : List PatternToken) : Except String (Regex × List PatternToken) := do
      let (r, ts) ← repetitions r ts
      patternBranch n depth (some (match done with
        | some d => .both d r
        | none => r)) ts
    match ts with
    | .single r :: ts => further r ts
    | .opening :: ts =>
      let (r, ts) ← patternChoice n (depth + 1) ts
      match ts with
      | .closing :: ts => further r ts
      | _ => throw "missing \x27)\x27"
    | _ =>
      match done, ts with
      | some d, [] => return (d, ts)
      | some d, .bar :: _ => return (d, ts)
      | some d, .closing :: _ => return (d, ts)
      | none, [] => throw (if 0 < depth then "missing \x27)\x27" else "missing operand")
      | _, _ => throw "missing operand"

end

/-- A regular expression, or what is wrong with it. An empty one matches anywhere. -/
def readPattern (source : String) : Except String Pattern := do
  let ts ← patternTokens (source.length + 1) 0 source.toList
  if ts.isEmpty then return ⟨source, .nothing⟩
  let (r, _) ← patternChoice (4 * ts.length + 4) 0 ts
  return ⟨source, r⟩

/-!
Splitting texts: into fields by a separator, and inputs into records. A blank separates by runs of
blanks, any other single character by itself, and a longer text as a regular expression.
-/

inductive Separator where
  /-- Runs of blanks, also at the edges. -/
  | blanks
  | single (c : Char)
  | pattern (r : Regex)
  /-- Between any two characters. -/
  | none

namespace Separator

/-- The separator of fields that a text stands for. -/
def ofText (s : String) : Except String Separator :=
  match s.toList with
  | [] => .ok .none
  | [' '] => .ok .blanks
  | [c] => .ok (.single c)
  | _ => (readPattern s).map fun p => .pattern p.regex

end Separator

/-- The first match from a place on that is not empty. The number bounds the places. -/
def firstFull? (r : Regex) : Nat → Regex.Place → Option (Nat × Regex.Place)
  | 0, _ => Option.none
  | n + 1, p =>
    match r.longestFrom p with
    | some q =>
      if p.position < q.position then
        some (p.position, { q with groups := [], restart := Option.none })
      else p.next?.bind fun (_, q) => firstFull? r n q
    | Option.none => p.next?.bind fun (_, q) => firstFull? r n q

/-- Where the matches from a place on start and end that do not overlap and are not empty. The
number bounds them. -/
def fullMatches (r : Regex) : Nat → Regex.Place → List (Nat × Nat)
  | 0, _ => []
  | n + 1, p =>
    match firstFull? r (p.rest.length + 1) p with
    | Option.none => []
    | some (start, q) => (start, q.position) :: fullMatches r n q

/-- The pieces of a text between places. -/
def between (cs : List Char) (position : Nat) : List (Nat × Nat) → List (List Char)
  | [] => [cs]
  | (start, finish) :: rest =>
    cs.take (start - position) :: between (cs.drop (finish - position)) finish rest

/-- The words of a text between blanks. -/
def blankWords : List Char → List Char → List (List Char)
  | word, [] => if word.isEmpty then [] else [word.reverse]
  | word, c :: cs =>
    if c == ' ' || c == '\t' || c == '\n' then
      if word.isEmpty then blankWords [] cs else word.reverse :: blankWords [] cs
    else blankWords (c :: word) cs

/-- The fields of a text. -/
def fieldsOf (separator : Separator) (s : String) : List String :=
  if s.isEmpty then []
  else
    match separator with
    | .blanks => (blankWords [] s.toList).map String.ofList
    | .single c => s.splitOn (String.singleton c)
    | .none => s.toList.map String.singleton
    | .pattern r =>
      let cs := s.toList
      (between cs 0 (fullMatches r (cs.length + 1) (Regex.lineFront cs))).map String.ofList

theorem fieldsOf_empty (separator : Separator) : fieldsOf separator "" = [] := by
  simp [fieldsOf]

/-- How an input is cut into records. -/
inductive RecordEnd where
  | single (c : Char)
  /-- Blank lines. -/
  | blankLines
  | pattern (r : Regex)

namespace RecordEnd

/-- What ends records when a text says so. -/
def ofText (s : String) : Except String RecordEnd :=
  match s.toList with
  | [] => .ok .blankLines
  | [c] => .ok (.single c)
  | _ => (readPattern s).map fun p => .pattern p.regex

/-- Whether an input has to be known as a whole before it can be cut. -/
def needsAll : RecordEnd → Bool
  | single _ => false
  | _ => true

/-- The first record of a text and what is behind it; nothing if the text may go on with it.
`isWhole` tells that nothing can follow. -/
def cut? (e : RecordEnd) (isWhole : Bool) (cs : List Char) : Option (List Char × List Char) :=
  match e with
  | single c =>
    let record := cs.takeWhile (· != c)
    match cs.drop record.length with
    | _ :: rest => some (record, rest)
    | [] => if isWhole && !record.isEmpty then some (record, []) else Option.none
  | blankLines =>
    let cs := cs.dropWhile (· == '\n')
    let rec go : List Char → List Char → List Char × List Char
      | done, [] => (done.reverse, [])
      | done, '\n' :: '\n' :: rest => (done.reverse, rest.dropWhile (· == '\n'))
      | done, c :: rest => go (c :: done) rest
    let (record, rest) := go [] cs
    let record := if rest.isEmpty && record.getLast? == some '\n' then record.dropLast else record
    if isWhole && !cs.isEmpty then some (record, rest) else Option.none
  | pattern r =>
    if !isWhole || cs.isEmpty then Option.none
    else
      match firstFull? r (cs.length + 1) (Regex.lineFront cs) with
      | some (start, q) => some (cs.take start, q.rest)
      | Option.none => some (cs, [])

end RecordEnd

end PatchSearch.Shell.RecordScript
