import PatchSearch.Shell.Regex.Basic

/-!
Reading regular expressions. What differs between the notations is which characters act as
operators by themselves and which behind a backslash, and what happens to an operator that has
nothing to act on.
-/
namespace PatchSearch.Shell

/-- A notation of regular expressions. -/
structure RegexStyle where
  /-- The operators that stand by themselves, and those that need a backslash. -/
  bare : List Char
  guarded : List Char
  /-- Whether `^` and `$` are edges anywhere, and no operator stands for itself. -/
  isFree : Bool
  /-- Whether an operator without anything to act on is a fault. -/
  isStrict : Bool

namespace RegexStyle

/-- The basic notation. -/
def basic (isStrict : Bool) : RegexStyle :=
  ⟨['*'], ['(', ')', '\x7b', '|', '+', '?'], false, isStrict⟩

/-- The extended notation. -/
def extended (isStrict : Bool) : RegexStyle :=
  ⟨['*', '(', ')', '\x7b', '|', '+', '?'], [], true, isStrict⟩

/-- The notation that `find` starts from. -/
def forPaths : RegexStyle :=
  ⟨['*', '+', '?'], ['(', ')', '|'], false, false⟩

end RegexStyle

namespace Regex

inductive Token where
  | single (r : Regex)
  | opening
  | closing
  | bar
  | times (least : Nat) (most : Option Nat)

def letter (c : Char) : Regex :=
  .one ⟨false, [(c, c)]⟩

/-- Any character at all. -/
def anyChar : Regex :=
  .one ⟨true, []⟩

/-- The most repetitions that bounds may ask for. -/
def maxBound : Nat := 32767

/-- Bounds behind their opening brace. A backslash stands before the closing one if it is
`guarded`. -/
def bounds (guarded : Bool) (cs : List Char) : Except String (Nat × Option Nat × List Char) :=
  let number (ds : List Char) : Option Nat := (integer? (String.ofList ds)).map Int.toNat
  let low := cs.takeWhile Char.isDigit
  let (least, most, rest) : Option Nat × Option Nat × List Char :=
    match cs.drop low.length with
    | ',' :: rest =>
      let high := rest.takeWhile Char.isDigit
      (some ((number low).getD 0), number high, rest.drop high.length)
    | rest => (number low, number low, rest)
  let closed := match guarded, rest with
    | false, '\x7d' :: rest => some rest
    | true, '\\' :: '\x7d' :: rest => some rest
    | _, _ => none
  let invalid : String := "Invalid content of \\\x7b\\\x7d"
  match least, closed with
  | some least, some rest =>
    if most.any (· < least) then .error invalid
    else if maxBound < max least (most.getD 0) then .error "Regular expression too big"
    else .ok (least, most, rest)
  | _, _ =>
    if cs.all fun c => c.isDigit || c == ',' then .error "Unmatched \\\x7b"
    else .error invalid

def wordClass (negated : Bool) : CharClass :=
  ⟨negated, CharClass.named "alnum" ++ [('_', '_'), ('À', Char.ofNat (strayBase - 1))]⟩

/-- What a character behind a backslash stands for. -/
def escaped (c : Char) : Regex :=
  match c with
  | 'w' => .one (wordClass false)
  | 'W' => .one (wordClass true)
  | 's' => .one ⟨false, CharClass.named "space"⟩
  | 'S' => .one ⟨true, CharClass.named "space"⟩
  | 'b' => .edge .word
  | 'B' => .edge .noWord
  | '<' => .edge .wordStart
  | '>' => .edge .wordEnd
  | '\x60' => .edge .start
  | '\x27' => .edge .finish
  | c => if '1' ≤ c && c ≤ '9' then .again (c.toNat - 48) else letter c

/-- The names of classes. -/
def classNames : List String :=
  ["alpha", "digit", "alnum", "upper", "lower", "space", "blank", "punct", "xdigit", "cntrl",
    "print", "graph"]

/-- The first name of a class in a bracket that there is no class of. -/
def unknownClass? : List Char → Option String
  | '[' :: ':' :: cs =>
    let name := String.ofList (cs.takeWhile fun c => c != ':' && c != ']')
    match cs.drop name.length with
    | ':' :: ']' :: _ => if classNames.contains name then unknownClass? cs else some name
    | _ => unknownClass? cs
  | _ :: cs => unknownClass? cs
  | [] => none

/-- A class behind its opening bracket. -/
def bracket (cs : List Char) : Except String (Regex × List Char) :=
  match CharClass.read? cs with
  | none => .error (if cs.isEmpty || cs == ['^'] then "Invalid regular expression"
      else "Unmatched [, [^, [:, [., or [=")
  | some (k, rest) =>
    let inside := cs.take (cs.length - rest.length - 1)
    if inside.head? == some ':' && inside.getLast? == some ':' && 2 < inside.length then
      .error "character class syntax is [[:space:]], not [:space:]"
    else if (unknownClass? inside).isSome then .error "Invalid character class name"
    else if k.ranges.any fun r => r.2 < r.1 then .error "Invalid range end"
    else .ok (.one k, rest)

/-- The operator that a character is. -/
def operator (style : RegexStyle) (guarded : Bool) (c : Char) (cs : List Char) :
    Except String (Option (Token × List Char)) :=
  match c with
  | '(' => .ok (some (.opening, cs))
  | ')' => .ok (some (.closing, cs))
  | '|' => .ok (some (.bar, cs))
  | '*' => .ok (some (.times 0 none, cs))
  | '+' => .ok (some (.times 1 none, cs))
  | '?' => .ok (some (.times 0 (some 1), cs))
  | _ =>
    match bounds guarded cs with
    | .ok (least, most, rest) => .ok (some (.times least most, rest))
    | .error e =>
      if guarded || style.isStrict || e.startsWith "Reg" || cs.contains '\x7d' && e.startsWith "Inv"
        && (cs.takeWhile (· != '\x7d')).all fun c => c.isDigit || c == ',' then .error e
      else .ok none

/-- The next token. `first` tells that nothing stands before it in its branch. -/
def token? (style : RegexStyle) (first : Bool) :
    List Char → Except String (Option (Token × List Char))
  | [] => .ok none
  | '\\' :: [] => .error "Trailing backslash"
  | '\\' :: c :: cs => do
    let plain : Option (Token × List Char) := some (.single (escaped c), cs)
    if !style.guarded.contains c then return plain
    if first && !style.isFree && (c == '+' || c == '?') then return some (.single (letter c), cs)
    return (← operator style true c cs).or plain
  | '.' :: cs => .ok (some (.single anyChar, cs))
  | '[' :: cs => (bracket cs).map fun (r, rest) => some (.single r, rest)
  | '^' :: cs =>
    .ok (some (.single (if style.isFree || first then .edge (.lineStart false) else letter '^'), cs))
  | '$' :: cs =>
    let atEnd := cs.isEmpty || style.isFree || match cs with
      | '\\' :: c :: _ => (c == ')' || c == '|') && style.guarded.contains c
      | _ => false
    .ok (some (.single (if atEnd then .edge (.lineEnd false) else letter '$'), cs))
  | c :: cs => do
    let plain : Option (Token × List Char) := some (.single (letter c), cs)
    if !style.bare.contains c || first && !style.isFree && ['*', '+', '?'].contains c then
      return plain
    if c == '\x7b' && first && style.isStrict then return some (.times 0 none, cs)
    return (← operator style false c cs).or plain

/-- How far a text is read: the number of groups, those that are complete, and the rest. -/
structure Reading where
  groups : Nat := 0
  complete : List Nat := []
  rest : List Char

/-- What is told about an operator that has nothing to act on. -/
def nothingToRepeat : String :=
  "Invalid preceding regular expression"

mutual

/-- Alternatives up to a closing bracket or the end. The first number bounds the steps, the second
one tells how many brackets are open. -/
def alternatives (style : RegexStyle) : Nat → Nat → Reading → Except String (Regex × Reading)
  | 0, _, s => .ok (.nothing, s)
  | n + 1, depth, s => do
    let (a, s) ← branch style n depth true .nothing s
    match ← token? style true s.rest with
    | some (.bar, rest) =>
      let (b, s) ← alternatives style n depth { s with rest }
      return (.either a b, s)
    | _ => return (a, s)

/-- A branch behind what has been read of it. -/
def branch (style : RegexStyle) : Nat → Nat → Bool → Regex → Reading →
    Except String (Regex × Reading)
  | 0, _, _, done, s => .ok (done, s)
  | n + 1, depth, first, done, s => do
    match ← token? style first s.rest with
    | none => return (done, s)
    | some (.bar, _) => return (done, s)
    | some (.closing, rest) =>
      if 0 < depth then return (done, s)
      else if style.isFree && !style.isStrict then
        times style n depth done (letter ')') false { s with rest }
      else throw "Unmatched ) or \\)"
    | some (.times _ _, rest) =>
      if style.isStrict then throw nothingToRepeat
      else branch style n depth first done { s with rest }
    | some (.opening, rest) =>
      let number := s.groups + 1
      let (r, s) ← alternatives style n (depth + 1) { s with groups := number, rest }
      match ← token? style false s.rest with
      | some (.closing, rest) =>
        times style n depth done (.group number r) false
          { s with rest, complete := number :: s.complete }
      | _ => throw "Unmatched ( or \\("
    | some (.single (.again k), rest) =>
      if !s.complete.contains k then throw "Invalid back reference"
      times style n depth done (.again k) false { s with rest }
    | some (.single (.edge (.lineStart ofAny)), rest) =>
      branch style n depth true (.both done (.edge (.lineStart ofAny))) { s with rest }
    | some (.single r, rest) => times style n depth done r false { s with rest }

/-- The bounds behind a part, and the branch from there on. -/
def times (style : RegexStyle) : Nat → Nat → Regex → Regex → Bool → Reading →
    Except String (Regex × Reading)
  | 0, _, done, r, _, s => .ok (.both done r, s)
  | n + 1, depth, done, r, isRepeated, s => do
    match ← token? style false s.rest with
    | some (.times least most, rest) =>
      if isRepeated && style.isStrict && !style.isFree then throw nothingToRepeat
      times style n depth done (.repeated r least most false) true { s with rest }
    | _ => branch style n depth false (.both done r) s

end

/-- A regular expression, or what is wrong with it. -/
def read (style : RegexStyle) (text : String) : Except String Regex := do
  let cs := text.toList
  let (r, _) ← alternatives style (4 * cs.length + 4) 0 { rest := cs }
  return r

/-- What is told about operators without anything to act on in a notation that lets them pass. -/
def warnings (style : RegexStyle) : Nat → Bool → List Char → List String
  | 0, _, _ => []
  | n + 1, first, cs =>
    match token? style first cs with
    | .ok (some (.times _ _, rest)) =>
      let sign := match cs with
        | '\x7b' :: _ => "\x7b...\x7d"
        | c :: _ => String.ofList [c]
        | [] => ""
      (if first && style.isFree then [sign ++ " at start of expression"] else []) ++
        warnings style n first rest
    | .ok (some (.opening, rest)) => warnings style n true rest
    | .ok (some (.bar, rest)) => warnings style n true rest
    | .ok (some (.closing, rest)) => warnings style n false rest
    | .ok (some (.single (.edge (.lineStart _)), rest)) => warnings style n true rest
    | .ok (some (_, rest)) => warnings style n false rest
    | _ => []

end Regex

end PatchSearch.Shell
