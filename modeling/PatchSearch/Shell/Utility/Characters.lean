import PatchSearch.Shell.Pattern
import PatchSearch.Shell.Regex.Reader
import PatchSearch.Shell.Utility.Streams

/-!
Replacing, removing and turning round characters: `tr` maps the characters of one set to those of
another one, `rev` turns round each line and `tac` the order of lines.
-/
namespace PatchSearch.Shell

open Run

/-- A part of a set of characters. -/
inductive SetPiece where
  | one (c : Char)
  | range (first last : Char)
  | named (name : String)
  | alike (c : Char)
  /-- A character so many times, or as often as it takes if that is zero. -/
  | repeated (c : Char) (count : Nat)

namespace SetPiece

/-- Characters with a mark whether a backslash stood before them, read from an escaped text. -/
def unescape : Nat → List Char → List (Char × Bool)
  | 0, _ => []
  | _, [] => []
  | n + 1, '\\' :: c :: cs =>
    let ds := ((c :: cs).take 3).takeWhile fun d => '0' ≤ d && d ≤ '7'
    let value (ds : List Char) : Nat := ds.foldl (fun v d => 8 * v + (d.toNat - 48)) 0
    if !ds.isEmpty then
      let ds := if 255 < value ds then ds.take 2 else ds
      (Char.ofNat (value ds), true) :: unescape n ((c :: cs).drop ds.length)
    else
      ((match c with
        | 'n' => '\n'
        | 't' => '\t'
        | 'r' => '\r'
        | 'a' => '\x07'
        | 'b' => '\x08'
        | 'f' => '\x0c'
        | 'v' => '\x0b'
        | c => c), true) :: unescape n cs
  | n + 1, c :: cs => (c, false) :: unescape n cs

/-- Whether an unmarked character stands at the front. -/
def startsWith (c : Char) (cs : List (Char × Bool)) : Bool :=
  cs.head? == some (c, false)

/-- What stands before a mark with a closing bracket behind it, and the rest. -/
def upToClosing (mark : Char) : List (Char × Bool) → Option (List Char × List (Char × Bool))
  | (c, false) :: (']', false) :: rest =>
    if c == mark then some ([], rest)
    else (upToClosing mark ((']', false) :: rest)).map fun (cs, rest) => (c :: cs, rest)
  | (c, _) :: rest => (upToClosing mark rest).map fun (cs, rest) => (c :: cs, rest)
  | [] => none

/-- A character that is repeated, read behind the opening bracket. -/
def repetition (cs : List (Char × Bool)) :
    Except String (Option (SetPiece × List (Char × Bool))) :=
  match cs with
  | (c, _) :: ('*', false) :: rest =>
    let body := rest.takeWhile fun x => x != (']', false)
    match rest.drop body.length with
    | _ :: behind =>
      if body.any (·.2) then .ok none
      else
        let digits := body.map Prod.fst
        let base := if digits.head? == some '0' then 8 else 10
        let isDigit (d : Char) : Bool := d.isDigit && d.toNat - 48 < base
        if digits.all isDigit then
          let count := digits.foldl (fun n d => base * n + (d.toNat - 48)) 0
          .ok (some (repeated c count, behind))
        else
          .error ("invalid repeat count " ++ cited (String.ofList digits) ++
            " in [c*n] construct")
    | [] => .ok none
  | _ => .ok none

/-- Names of classes. -/
def classNames : List String :=
  ["alnum", "alpha", "blank", "cntrl", "digit", "graph", "lower", "print", "punct", "space",
    "upper", "xdigit"]

/-- The pieces that marked characters spell. -/
def read : Nat → List (Char × Bool) → Except String (List SetPiece)
  | 0, _ => .ok []
  | _, [] => .ok []
  | _, [(c, _)] => .ok [one c]
  | _, [(c, _), (d, _)] => .ok [one c, one d]
  | n + 1, (c, q) :: cs => do
    let plain : Except String (List SetPiece) :=
      match cs with
      | ('-', false) :: (d, _) :: rest => do
        if d < c then
          throw ("range-endpoints of \x27" ++ String.ofList [c, '-', d] ++
            "\x27 are in reverse collating sequence order")
        return range c d :: (← read n rest)
      | _ => do return one c :: (← read n cs)
    let repeatedOr (fallback : Except String (List SetPiece)) : Except String (List SetPiece) := do
      match ← repetition cs with
      | some (p, rest) => return p :: (← read n rest)
      | none => fallback
    if q || c != '[' then plain
    else
      match cs with
      | (mark, false) :: inner =>
        if mark != ':' && mark != '=' then repeatedOr plain
        else
          match upToClosing mark inner with
          | none => repeatedOr plain
          | some (name, rest) =>
            let text := String.ofList name
            if name.isEmpty then
              throw (if mark == ':' then "missing character class name \x27[::]\x27"
                else "missing equivalence class character \x27[==]\x27")
            else if mark == ':' then
              if classNames.contains text then return named text :: (← read n rest)
              else repeatedOr (.error ("invalid character class " ++ cited text))
            else
              match name with
              | [d] => return alike d :: (← read n rest)
              | _ => repeatedOr (.error (text ++
                  ": equivalence class operand must be a single character"))
      | _ => repeatedOr plain

/-- All characters. -/
def allChars : List Char :=
  (List.range 256).map Char.ofNat

/-- The characters of a piece; `fill` is how often a character without a count is repeated. -/
def chars (fill : Nat) : SetPiece → List Char
  | one c => [c]
  | range a b => (List.range (b.toNat + 1 - a.toNat)).map fun i => Char.ofNat (a.toNat + i)
  | named name => allChars.filter (CharClass.contains ⟨false, CharClass.named name⟩)
  | alike c => [c]
  | repeated c count => List.replicate (if count = 0 then fill else count) c

/-- The characters of pieces. A character without a count fills them up to a size. -/
def charsOf (size : Nat) (pieces : List SetPiece) : List Char :=
  let known := (pieces.map fun p => (p.chars 0).length).foldl (· + ·) 0
  pieces.flatMap (chars (size - known))

def isOpen : SetPiece → Bool
  | repeated _ 0 => true
  | _ => false

def isCase : SetPiece → Bool
  | named name => name == "lower" || name == "upper"
  | _ => false

/-- Where the classes of one case start in pieces. -/
def caseStarts (size : Nat) : List SetPiece → Nat → List Nat
  | [], _ => []
  | p :: ps, k =>
    (if p.isCase then [k] else []) ++ caseStarts size ps (k + (p.chars size).length)

/-- What is wrong with two sets of which the second one replaces the first one. -/
def translationFault? (others truncates : Bool) (first second : List SetPiece) :
    Option String :=
  let as := charsOf 0 first
  let as := if others then allChars.filter (!as.contains ·) else as
  let bs := charsOf as.length second
  let isAlike : SetPiece → Bool
    | alike _ => true
    | _ => false
  let isOtherClass : SetPiece → Bool
    | named name => name != "lower" && name != "upper"
    | _ => false
  let isClass : SetPiece → Bool
    | named _ => true
    | _ => false
  if first.any isOpen then some "the [c*] repeat construct may not appear in string1"
  else if 1 < (second.filter isOpen).length then
    some "only one [c*] repeat construct may appear in string2"
  else if second.any isAlike then
    some "[=c=] expressions may not appear in string2 when translating"
  else if second.any isOtherClass then
    some ("when translating, the only character classes that may appear in\n" ++
      "string2 are \x27upper\x27 and \x27lower\x27")
  else if !others && !(caseStarts 0 second 0).all fun k => (caseStarts 0 first 0).contains k then
    some "misaligned [:upper:] and/or [:lower:] construct"
  else if bs.length < as.length && !truncates && bs.isEmpty then
    some "when not truncating set1, string2 must be non-empty"
  else if bs.length < as.length && !truncates && second.getLast?.any isClass then
    some ("when translating with string1 longer than string2,\n" ++
      "the latter string must not end with a character class")
  else if others && first.any isClass && 1 < bs.eraseDups.length then
    some ("when translating with complemented character classes,\n" ++
      "string2 must map all characters in the domain to one")
  else none

end SetPiece

/-- A text with runs of one character of a set made single, behind some character. -/
def squeezed (set : Char → Bool) (before : Option Char) (cs : List Char) : List Char :=
  (cs.foldl (fun (state : Option Char × List Char) c =>
    if state.1 == some c && set c then state else (some c, c :: state.2)) (before, [])).2.reverse

/-- A table of all characters. -/
def characterTable (f : Char → Char) : Array Char :=
  (SetPiece.allChars.map f).toArray

/-- `tr`. -/
def translate : Utility :=
  withOptions "tr"
    { plain := "dscCt"
      long := [("delete", 'd'), ("squeeze-repeats", 's'), ("complement", 'c'),
        ("truncate-set1", 't')] }
    (fun o => do
      let most := if o.has 'd' && !o.has 's' then 1 else 2
      let least := if o.has 'd' == o.has 's' then 2 else 1
      let last := cited (o.operands.getLastD "")
      if o.operands.isEmpty then misuse "tr" 1 "missing operand"
      if o.operands.length < least then
        misuse "tr" 1 ("missing operand after " ++ last ++ "\n" ++
          if o.has 'd' then "Two strings must be given when both deleting and squeezing repeats."
          else "Two strings must be given when translating.")
      if most < o.operands.length then
        misuse "tr" 1 ("extra operand " ++ cited ((o.operands[most]?).getD "") ++
          if most = 1 && o.operands.length = 2 then
            "\nOnly one string may be given when deleting without squeezing repeats."
          else "")
      let pieces (s : String) : Run (List SetPiece) := do
        let slashes := (s.toList.reverse.takeWhile (· == '\\')).length
        if slashes % 2 = 1 then
          warn "tr" "warning: an unescaped backslash at end of string is not portable"
        match SetPiece.read (s.length + 1) (SetPiece.unescape (s.length + 1) s.toList) with
        | .ok ps => return ps
        | .error text => fail "tr" 1 text
      let first ← pieces ((o.operands[0]?).getD "")
      let second ← pieces ((o.operands[1]?).getD "")
      let others := o.has 'c' || o.has 'C'
      let translates := !o.has 'd' && 1 < o.operands.length
      if translates then
        if let some text := SetPiece.translationFault? others (o.has 't') first second then
          fail "tr" 1 text
      else
        if first.any SetPiece.isOpen then
          fail "tr" 1 "the [c*] repeat construct may not appear in string1"
        if second.any SetPiece.isOpen then
          fail "tr" 1 "the [c*] construct may appear in string2 only when translating"
      let named := SetPiece.charsOf 0 first
      let as := if others then SetPiece.allChars.filter (!named.contains ·) else named
      let bs := SetPiece.charsOf as.length second
      let pairs := (as.zip (bs ++ if o.has 't' then []
        else List.replicate (as.length - bs.length) (bs.getLastD ' '))).reverse
      let table := characterTable fun c => (pairs.lookup c).getD c
      let inFirst := characterTable fun c => if as.contains c then 'y' else 'n'
      let isIn (c : Char) : Bool := inFirst[c.toNat]? == some 'y'
      let squeezes := if o.operands.length < 2 then as else bs
      let change (before : Option Char) (cs : List Char) : List Char :=
        let cs := if o.has 'd' then cs.filter (!isIn ·)
          else if translates then cs.map fun c => (table[c.toNat]?).getD c else cs
        if o.has 's' then squeezed squeezes.contains before cs else cs
      match ← channel? 0 with
      | none => fail "tr" 1 "read error: Bad file descriptor"
      | some c =>
        let step (before : Option Char) (s : String) : Run (Option Char) := do
          let out := change before s.toList
          emit "tr" (String.ofList out)
          return out.getLast?.or before
        match ← foldPieces c step maxPieces none with
        | .ok _ => return
        | .error e => fail "tr" 1 ("read error: " ++ e.message))
    false

/-- The records of a text that separators end, or start if they are `leading`. -/
def recordsBetween (leading : Bool) (marks : List (Nat × Nat)) (cs : List Char) : List (List Char) :=
  let bounds := (marks.map fun m => if leading then m.1 else m.2).filter fun k =>
    0 < k && k < cs.length
  let starts := 0 :: bounds
  let ends := bounds ++ [cs.length]
  (starts.zip ends).map fun (a, b) => (cs.take b).drop a

/-- Where a separator stands in a text. -/
def separatorsIn (separator : List Char) : Nat → Nat → List Char → List (Nat × Nat)
  | 0, _, _ => []
  | _, _, [] => []
  | n + 1, k, c :: cs =>
    if !separator.isEmpty && separator.isPrefixOf (c :: cs) then
      (k, k + separator.length) ::
        separatorsIn separator n (k + separator.length) ((c :: cs).drop separator.length)
    else separatorsIn separator n (k + 1) cs

/-- `tac`. -/
def reverseLines : Utility :=
  withOptions "tac"
    { plain := "br", valued := "s"
      long := [("before", 'b'), ("regex", 'r'), ("separator", 's')] }
    fun o => do
      let separator := (o.value? 's').getD "\n"
      let separator := if separator.isEmpty then "\x00" else separator
      for input in operandsOrInput o do
        match ← readInput input with
        | .ok s =>
          if !o.has 'r' && !o.has 'b' && separator == "\n" then
            emit "tac" (String.join (fullLines s).reverse)
          else
            let cs := s.toList
            let marks ←
              if o.has 'r' then
                match Regex.read (RegexStyle.basic true) separator with
                | .ok r => pure ((r.matchesOf cs).map fun m => (m.1, m.2.position))
                | .error e => fail "tac" 1 e
              else pure (separatorsIn separator.toList (cs.length + 1) 0 cs)
            if !cs.isEmpty then
              emit "tac" (String.join
                (((recordsBetween (o.has 'b') marks cs).map String.ofList).reverse))
        | .error cause =>
          if (← find input).isOk then
            lament "tac" (shownName input ++ ": read error: Invalid argument")
          else lament "tac" ("failed to open " ++ inQuotes input ++ " for reading: " ++ cause)

/-- `rev`. -/
def reverseEach : Utility :=
  withOptions "rev" { plain := "0" } fun o => do
    for input in operandsOrInput o do
      match ← readInput input with
      | .ok s =>
        emit "rev" (onCharacters s fun s =>
          String.join ((fullLines s).map fun l =>
            let (text, ending) :=
              if l.endsWith "\n" then (l.toList.dropLast, "\n") else (l.toList, "")
            String.ofList text.reverse ++ ending))
      | .error cause => lament "rev" ("cannot open " ++ input ++ ": " ++ cause)

end PatchSearch.Shell
