import PatchSearch.Shell.Regex.Reader

/-!
The rich notation of regular expressions: the extended one with repetitions that are sparing or
settled, groups with names, looks ahead and behind, marks for kinds of characters, and modes that
are switched on inside. Its matches are the first ones in the order of preference.
-/
namespace PatchSearch.Shell.Regex.Rich

/-- The modes that are on. -/
structure Modes where
  folds : Bool := false
  dotsAll : Bool := false
  manyLines : Bool := false
  spaced : Bool := false

/-- How far a text is read. -/
structure Reading where
  groups : Nat := 0
  names : List (String × Nat) := []
  modes : Modes := {}
  rest : List Char

def digitRanges : List (Char × Char) := [('0', '9')]

def blankRanges : List (Char × Char) := [(' ', ' '), ('\t', '\t'), ('\xa0', '\xa0')]

/-- The kinds of characters that letters stand for; a capital one stands for all others. -/
def kinds : List (Char × List (Char × Char)) :=
  [('d', digitRanges), ('w', (wordClass false).ranges), ('s', CharClass.named "space"),
    ('h', blankRanges), ('v', [('\n', '\r')])]

/-- The kind of characters that a letter behind a backslash stands for. -/
def kind? (c : Char) : Option CharClass :=
  if c == 'N' then some ⟨true, [('\n', '\n')]⟩
  else (kinds.lookup c.toLower).map fun ranges => ⟨c.isUpper, ranges⟩

/-- The ranges of all characters that are not in some ranges. -/
def outside (ranges : List (Char × Char)) : List (Char × Char) :=
  let ordered := ranges.mergeSort fun a b => a.1 ≤ b.1
  let (next, found) := ordered.foldl (fun (state : Nat × List (Char × Char)) r =>
    let before := if state.1 < r.1.toNat then
      [(Char.ofNat state.1, Char.ofNat (r.1.toNat - 1))] else []
    (max state.1 (r.2.toNat + 1), state.2 ++ before)) (0, [])
  found ++ if next ≤ 0x10FFFF then [(Char.ofNat next, Char.ofNat 0x10FFFF)] else []

/-- Ranges of the properties that a name stands for. -/
def property? (name : String) : Option (List (Char × Char)) :=
  let beyond := [('À', Char.ofNat (strayBase - 1))]
  match name with
  | "L" => some (CharClass.named "alpha" ++ beyond)
  | "Lu" => some (CharClass.named "upper")
  | "Ll" => some (CharClass.named "lower")
  | "N" => some digitRanges
  | "Nd" => some digitRanges
  | "P" => some (CharClass.named "punct")
  | "Z" => some blankRanges
  | "Zs" => some blankRanges
  | _ => none

def hexValue (cs : List Char) : Nat :=
  cs.foldl (fun n c => n * 16 +
    if c.isDigit then c.toNat - 48 else (c.toLower.toNat - 87)) 0

def isHex (c : Char) : Bool :=
  c.isDigit || ('a' ≤ c.toLower && c.toLower ≤ 'f')

/-- The character that a letter behind a backslash denotes, and what comes after it. -/
def denoted? (c : Char) (cs : List Char) : Option (Char × List Char) :=
  match c, cs with
  | 'n', _ => some ('\n', cs)
  | 't', _ => some ('\t', cs)
  | 'r', _ => some ('\r', cs)
  | 'f', _ => some ('\x0c', cs)
  | 'e', _ => some ('\x1b', cs)
  | 'a', _ => some ('\x07', cs)
  | '0', _ =>
    let ds := (cs.takeWhile fun c => '0' ≤ c && c ≤ '7').take 2
    some (Char.ofNat (ds.foldl (fun n c => n * 8 + (c.toNat - 48)) 0), cs.drop ds.length)
  | 'x', '\x7b' :: rest =>
    let ds := rest.takeWhile isHex
    some (Char.ofNat (hexValue ds), rest.drop (ds.length + 1))
  | 'x', _ =>
    let ds := (cs.takeWhile isHex).take 2
    some (Char.ofNat (hexValue ds), cs.drop ds.length)
  | c, _ => if c.isAlphanum then none else some (c, cs)

/-- The name behind a letter for a property, and what comes after it. -/
def propertyAt (negated : Bool) (cs : List Char) : Except String (CharClass × List Char) :=
  let (name, rest) := match cs with
    | '\x7b' :: cs =>
      let name := cs.takeWhile (· != '\x7d')
      (name, cs.drop (name.length + 1))
    | cs => (cs.take 1, cs.drop 1)
  let (negated, name) := match name with
    | '^' :: name => (!negated, name)
    | name => (negated, name)
  match property? (String.ofList name) with
  | some ranges => .ok (⟨negated, ranges⟩, rest)
  | none => .error "unknown property after \\P or \\p"

/-- The ranges of a class up to its closing bracket. -/
def classRanges : Nat → Bool → List Char → Except String (List (Char × Char) × List Char)
  | 0, _, _ => .error "missing terminating ] for character class"
  | _, _, [] => .error "missing terminating ] for character class"
  | n + 1, first, c :: cs => do
    if c == ']' && !first then return ([], cs)
    let goOn (ranges : List (Char × Char)) (rest : List Char) :
        Except String (List (Char × Char) × List Char) := do
      let (more, rest) ← classRanges n false rest
      return (ranges ++ more, rest)
    let ofClass (k : CharClass) : List (Char × Char) :=
      if k.negated then outside k.ranges else k.ranges
    let named? : Option (List (Char × Char) × List Char) := match c, cs with
      | '[', ':' :: cs =>
        let (negated, cs) := match cs with
          | '^' :: cs => (true, cs)
          | cs => (false, cs)
        let name := cs.takeWhile Char.isAlpha
        match cs.drop name.length with
        | ':' :: ']' :: rest =>
          some (ofClass ⟨negated, CharClass.named (String.ofList name)⟩, rest)
        | _ => none
      | _, _ => none
    match named?, c, cs with
    | some (ranges, rest), _, _ => goOn ranges rest
    | none, '\\', 'b' :: cs => goOn [('\x08', '\x08')] cs
    | none, '\\', d :: cs =>
      if d == 'p' || d == 'P' then
        let (k, rest) ← propertyAt (d == 'P') cs
        goOn (ofClass k) rest
      else
        match kind? d with
        | some k => goOn (ofClass k) cs
        | none =>
          let (low, rest) := (denoted? d cs).getD (d, cs)
          upTo n low rest
    | none, c, cs => upTo n c cs
where
  /-- The range from a character on, or the character alone, and the ranges behind it. -/
  upTo (n : Nat) (low : Char) (cs : List Char) :
      Except String (List (Char × Char) × List Char) := do
    let alone : Except String (List (Char × Char) × List Char) := do
      let (more, rest) ← classRanges n false cs
      return ((low, low) :: more, rest)
    match cs with
    | '-' :: ']' :: _ => alone
    | '-' :: '\\' :: d :: rest =>
      match (kind? d), denoted? d rest with
      | none, some (high, rest) =>
        if high < low then throw "range out of order in character class"
        let (more, rest) ← classRanges n false rest
        return ((low, high) :: more, rest)
      | _, _ => alone
    | '-' :: high :: rest =>
      if high < low then throw "range out of order in character class"
      let (more, rest) ← classRanges n false rest
      return ((low, high) :: more, rest)
    | _ => alone

/-- A class behind its opening bracket. -/
def bracket (cs : List Char) : Except String (CharClass × List Char) := do
  let (negated, cs) := match cs with
    | '^' :: cs => (true, cs)
    | cs => (false, cs)
  let (ranges, rest) ← classRanges (cs.length + 1) true cs
  return (⟨negated, ranges⟩, rest)

/-- A number at the start of a text. -/
def leading? (cs : List Char) : Option (Nat × List Char) :=
  let ds := cs.takeWhile Char.isDigit
  if ds.isEmpty then none
  else some (ds.foldl (fun n c => 10 * n + (c.toNat - 48)) 0, cs.drop ds.length)

/-- Bounds behind a part: how often, and what comes after them. -/
def bounds? (cs : List Char) : Except String (Option (Nat × Option Nat × List Char)) := do
  match cs with
  | '*' :: rest => return some (0, none, rest)
  | '+' :: rest => return some (1, none, rest)
  | '?' :: rest => return some (0, some 1, rest)
  | '\x7b' :: rest =>
    match leading? rest with
    | none => return none
    | some (least, '\x7d' :: rest) => return some (least, some least, rest)
    | some (least, ',' :: '\x7d' :: rest) => return some (least, none, rest)
    | some (least, ',' :: rest) =>
      match leading? rest with
      | some (most, '\x7d' :: rest) =>
        if most < least then throw "numbers out of order in \x7b\x7d quantifier"
        return some (least, some most, rest)
      | _ => return none
    | _ => return none
  | _ => return none

/-- A part that is repeated as bounds and their mark say. -/
def repeatedBy (r : Regex) (least : Nat) (most : Option Nat) (rest : List Char) :
    Regex × List Char :=
  match rest with
  | '?' :: rest => (.repeated r least most true, rest)
  | '+' :: rest => (.settled (.repeated r least most false), rest)
  | rest => (.repeated r least most false, rest)

/-- One character or a class under the modes that are on. -/
def folded (m : Modes) (k : CharClass) : Regex :=
  .one (if m.folds then foldClass k else k)

/-- Modes after letters that switch them. -/
def switched (m : Modes) (on : Bool) : List Char → Option Modes
  | [] => some m
  | '-' :: cs => switched m false cs
  | 'i' :: cs => switched { m with folds := on } on cs
  | 's' :: cs => switched { m with dotsAll := on } on cs
  | 'm' :: cs => switched { m with manyLines := on } on cs
  | 'x' :: cs => switched { m with spaced := on } on cs
  | _ => none

/-- The name up to a closing mark, and what comes after it. -/
def nameUpTo (close : Char) (cs : List Char) : String × List Char :=
  let name := cs.takeWhile (· != close)
  (String.ofList name, cs.drop (name.length + 1))

/-- The group that a number or a name refers to, counted back from here if it is negative. -/
def groupOf? (s : Reading) (name : String) : Option Nat :=
  match integer? name with
  | some k => if 0 < k then some k.toNat else some (s.groups + 1 - k.natAbs)
  | none => s.names.lookup name

/-- What a letter behind a backslash stands for. -/
def escape (s : Reading) (c : Char) (cs : List Char) : Except String (Regex × List Char) := do
  let reference (name : String) (rest : List Char) : Except String (Regex × List Char) :=
    match groupOf? s name with
    | some k => .ok (.again k, rest)
    | none => .error "reference to non-existent subpattern"
  match c, cs with
  | 'b', _ => return (.edge .word, cs)
  | 'B', _ => return (.edge .noWord, cs)
  | 'A', _ => return (.edge .start, cs)
  | 'G', _ => return (.edge .start, cs)
  | 'z', _ => return (.edge .finish, cs)
  | 'Z', _ => return (.edge .finish, cs)
  | 'K', _ => return (.restart, cs)
  | 'R', _ => return (.one ⟨false, [('\n', '\r')]⟩, cs)
  | 'g', '\x7b' :: rest => reference (nameUpTo '\x7d' rest).1 (nameUpTo '\x7d' rest).2
  | 'g', _ =>
    match leading? cs with
    | some (k, rest) => reference (toString k) rest
    | none => throw "a numbered reference must not be zero"
  | 'k', '\x7b' :: rest => reference (nameUpTo '\x7d' rest).1 (nameUpTo '\x7d' rest).2
  | 'k', '<' :: rest => reference (nameUpTo '>' rest).1 (nameUpTo '>' rest).2
  | 'k', '\x27' :: rest => reference (nameUpTo '\x27' rest).1 (nameUpTo '\x27' rest).2
  | _, _ =>
    if c == 'p' || c == 'P' then
      let (k, rest) ← propertyAt (c == 'P') cs
      return (.one k, rest)
    else if '1' ≤ c && c ≤ '9' then
      match leading? (c :: cs) with
      | some (k, rest) => return (.again k, rest)
      | none => return (folded s.modes ⟨false, [(c, c)]⟩, cs)
    else
      match kind? c with
      | some k => return (.one k, cs)
      | none =>
        match denoted? c cs with
        | some (d, rest) => return (folded s.modes ⟨false, [(d, d)]⟩, rest)
        | none => throw "unrecognized character follows \\"

mutual

/-- Alternatives up to a closing bracket or the end. -/
def alternatives : Nat → Reading → Except String (Regex × Reading)
  | 0, s => .ok (.nothing, s)
  | n + 1, s => do
    let (a, s) ← branch n .nothing s
    match s.rest with
    | '|' :: rest =>
      let (b, s) ← alternatives n { s with rest }
      return (.either a b, s)
    | _ => return (a, s)

/-- A branch behind what has been read of it. -/
def branch : Nat → Regex → Reading → Except String (Regex × Reading)
  | 0, done, s => .ok (done, s)
  | n + 1, done, s => do
    let put (r : Regex) (s : Reading) : Except String (Regex × Reading) := do
      match ← bounds? s.rest with
      | some (least, most, rest) =>
        let (r, rest) := repeatedBy r least most rest
        branch n (.both done r) { s with rest }
      | none => branch n (.both done r) s
    match s.rest with
    | [] => return (done, s)
    | '|' :: _ => return (done, s)
    | ')' :: _ => return (done, s)
    | '(' :: '?' :: '#' :: rest =>
      branch n done { s with rest := (rest.dropWhile (· != ')')).drop 1 }
    | '(' :: '?' :: rest =>
      let inside (names : Reading) (make : Regex → Regex) (rest : List Char) :
          Except String (Regex × Reading) := do
        let modes := s.modes
        let (r, s) ← alternatives n { names with rest }
        match s.rest with
        | ')' :: rest => put (make r) { s with rest, modes }
        | _ => throw "missing closing parenthesis"
      let called (close : Char) (rest : List Char) : Except String (Regex × Reading) :=
        let (name, rest) := nameUpTo close rest
        let number := s.groups + 1
        inside { s with groups := number, names := (name, number) :: s.names } (.group number) rest
      match rest with
      | ':' :: rest => inside s id rest
      | '=' :: rest => inside s (.ahead true) rest
      | '!' :: rest => inside s (.ahead false) rest
      | '>' :: rest => inside s .settled rest
      | '<' :: '=' :: rest => inside s (.behind true) rest
      | '<' :: '!' :: rest => inside s (.behind false) rest
      | '<' :: rest => called '>' rest
      | '\x27' :: rest => called '\x27' rest
      | 'P' :: '<' :: rest => called '>' rest
      | 'P' :: '=' :: rest =>
        let (name, rest) := nameUpTo ')' rest
        match groupOf? s name with
        | some k => put (.again k) { s with rest }
        | none => throw "reference to non-existent subpattern"
      | rest =>
        let letters := rest.takeWhile fun c => c.isAlpha || c == '-'
        match switched s.modes true letters, rest.drop letters.length with
        | some modes, ')' :: rest => branch n done { s with modes, rest }
        | some modes, ':' :: rest => inside { s with modes } id rest
        | _, _ => throw "unrecognized character after (? or (?-"
    | '(' :: rest =>
      let modes := s.modes
      let number := s.groups + 1
      let (r, s) ← alternatives n { s with groups := number, rest }
      match s.rest with
      | ')' :: rest => put (.group number r) { s with rest, modes }
      | _ => throw "missing closing parenthesis"
    | '[' :: rest =>
      let (k, rest) ← bracket rest
      put (folded s.modes k) { s with rest }
    | '.' :: rest =>
      put (.one ⟨true, if s.modes.dotsAll then [] else [('\n', '\n')]⟩) { s with rest }
    | '^' :: rest => put (.edge (.lineStart s.modes.manyLines)) { s with rest }
    | '$' :: rest => put (.edge (.lineEnd s.modes.manyLines)) { s with rest }
    | '\\' :: 'Q' :: rest =>
      let rec quoted : Regex → List Char → Regex × List Char
        | r, '\\' :: 'E' :: rest => (r, rest)
        | r, c :: rest => quoted (.both r (folded s.modes ⟨false, [(c, c)]⟩)) rest
        | r, [] => (r, [])
      let (r, rest) := quoted .nothing rest
      put r { s with rest }
    | '\\' :: 'E' :: rest => branch n done { s with rest }
    | '\\' :: c :: rest =>
      let (r, rest) ← escape s c rest
      put r { s with rest }
    | '\\' :: [] => throw "\\ at end of pattern"
    | c :: rest =>
      if s.modes.spaced && isSpace c then branch n done { s with rest }
      else if s.modes.spaced && c == '#' then
        branch n done { s with rest := rest.dropWhile (· != '\n') }
      else
        match ← bounds? s.rest with
        | some _ => throw "quantifier does not follow a repeatable item"
        | none => put (folded s.modes ⟨false, [(c, c)]⟩) { s with rest }

end

/-- The highest group that an expression asks for again. -/
def highestAgain : Regex → Nat
  | .again k => k
  | .both a b => max (highestAgain a) (highestAgain b)
  | .either a b => max (highestAgain a) (highestAgain b)
  | .repeated r _ _ _ => highestAgain r
  | .group _ r => highestAgain r
  | .ahead _ r => highestAgain r
  | .behind _ r => highestAgain r
  | .settled r => highestAgain r
  | _ => 0

/-- An expression of the rich notation with all of its ways to match, or what is wrong with it. -/
def read (folds : Bool) (text : String) : Except String Regex := do
  let cs := text.toList
  let (r, s) ← alternatives (4 * cs.length + 4) { modes := { folds }, rest := cs }
  if !s.rest.isEmpty then throw "unmatched closing parenthesis"
  if s.groups < highestAgain r then throw "reference to non-existent subpattern"
  return r

end PatchSearch.Shell.Regex.Rich
