import PatchSearch.Shell.Numerals
import PatchSearch.Shell.Utility.Streams

/-!
The order of names with versions in them. Runs of digits count as numbers, a tilde stands before
everything, the end of a name included, and letters stand before other characters. Endings such as
`.tar.gz` count only between names that are alike without them.
-/
namespace PatchSearch.Shell.Version

/-- How what stands first in a text ranks against what stands first in another one. -/
def rank : List Char → Int
  | [] => -1
  | c :: _ =>
    if c.isDigit then 0 else if c.isAlpha then c.toNat else if c == '~' then -2
    else c.toNat + 256

/-- Compares what stands in front of the next digits of two texts; the texts from there on if that
is alike. -/
def compareFronts : Nat → List Char → List Char → Ordering × List Char × List Char
  | 0, a, b => (.eq, a, b)
  | n + 1, a, b =>
    if (a.head?.all Char.isDigit) && (b.head?.all Char.isDigit) then (.eq, a, b)
    else
      match Ord.compare (rank a) (rank b) with
      | .eq => compareFronts n (a.drop 1) (b.drop 1)
      | o => (o, a, b)

/-- The number that the digits at the front of a text spell. -/
def leadingNumber (cs : List Char) : Nat :=
  (cs.takeWhile Char.isDigit).foldl (fun n c => 10 * n + (c.toNat - 48)) 0

/-- Compares texts part by part. -/
def compareParts : Nat → List Char → List Char → Ordering
  | 0, _, _ => .eq
  | n + 1, a, b =>
    if a.isEmpty && b.isEmpty then .eq
    else
      let (o, a, b) := compareFronts (a.length + b.length + 1) a b
      (o.then (Ord.compare (leadingNumber a) (leadingNumber b))).then
        (compareParts n (a.dropWhile Char.isDigit) (b.dropWhile Char.isDigit))

/-- Whether a text is an ending: points, each with a letter or a tilde and more of them or digits
behind it. -/
def isEnding : Nat → List Char → Bool
  | _, [] => true
  | n + 1, '.' :: c :: cs =>
    (c.isAlpha || c == '~') && isEnding n (cs.dropWhile fun d => d.isAlphanum || d == '~')
  | _, _ => false

/-- A name without its ending. At least one character stays. -/
def withoutEnding (cs : List Char) : List Char :=
  let lengths := (List.range cs.length).map (· + 1)
  match lengths.find? fun k => isEnding cs.length (cs.drop k) with
  | some k => cs.take k
  | none => cs

/-- Compares names. No name comes first, then `.`, then `..`, then the others that start with a
point. -/
def compare (a b : List Char) : Ordering :=
  let place (cs : List Char) : Nat :=
    match cs with
    | [] => 0
    | ['.'] => 1
    | ['.', '.'] => 2
    | '.' :: _ => 3
    | _ => 4
  let size := a.length + b.length + 1
  (Ord.compare (place a) (place b)).then <|
    (compareParts size (withoutEnding a) (withoutEnding b)).then (compareParts size a b)

example : compare "v1.9".toList "v1.10".toList = .lt := by decide +kernel

example : compare "a-1.tar.gz".toList "a-1.1.tar.gz".toList = .lt := by decide +kernel

end PatchSearch.Shell.Version

/-!
Putting lines in order: `sort`. A key is a part of a line between two places and is compared as
text, as a number, as a month or as a version; lines whose keys are all alike are compared as a
whole. Inputs that are in order can also be merged.
-/
namespace PatchSearch.Shell

open Run

/-- A place in a line: a field and a character in it, both from one on; zero as a character stands
for the end of the field. -/
structure KeyPlace where
  field : Nat
  char : Nat
  skipsBlanks : Bool

/-- A part of a line, and the letters that tell how it is compared. -/
structure SortKey where
  first : KeyPlace
  last : Option KeyPlace := none
  letters : List Char

namespace SortKey

/-- The letters of ways to compare. -/
def orderings : List Char :=
  ['b', 'd', 'f', 'g', 'h', 'i', 'M', 'n', 'R', 'r', 'V']

/-- A count at the start of a text, and the rest. -/
def count? (cs : List Char) : Option (Nat × List Char) :=
  let ds := cs.takeWhile Char.isDigit
  if ds.isEmpty then none
  else some (ds.foldl (fun n c => 10 * n + (c.toNat - 48)) 0, cs.drop ds.length)

/-- A place in the text of a key with its letters, and the rest. `least` is the character that is
meant if none is given. -/
def readPlace (whole message : String) (isFirst : Bool) (cs : List Char) :
    Except String (KeyPlace × List Char × List Char) := do
  let counted (message : String) (cs : List Char) : Except String (Nat × List Char) :=
    match count? cs with
    | some found => .ok found
    | none => .error (message ++ ": invalid count at start of " ++ cited (String.ofList cs))
  let invalid (cause : String) : String :=
    cause ++ ": invalid field specification " ++ cited whole
  let (field, rest) ← counted message cs
  if field = 0 then throw (invalid "field number is zero")
  let (char, rest) ← match rest with
    | '.' :: rest => do
      let (char, rest) ← counted "invalid number after \x27.\x27" rest
      if isFirst && char = 0 then throw (invalid "character offset is zero")
      pure (char, rest)
    | rest => pure (if isFirst then 1 else 0, rest)
  let letters := rest.takeWhile orderings.contains
  return (⟨field, char, letters.contains 'b'⟩, letters, rest.drop letters.length)

/-- A key from its text. -/
def read (s : String) : Except String SortKey := do
  let stray : Except String SortKey :=
    .error ("stray character in field spec: invalid field specification " ++ cited s)
  let (first, letters, rest) ← readPlace s "invalid number at field start" true s.toList
  match rest with
  | [] => return { first, letters }
  | ',' :: rest => do
    let (last, more, rest) ← readPlace s "invalid number after \x27,\x27" false rest
    if rest.isEmpty then return { first, last := some last, letters := letters ++ more }
    else stray
  | _ => stray

/-- The letters of a key that cannot stand together. -/
def clash? (letters : List Char) : Option String :=
  let has (c : Char) : Bool := letters.contains c
  let kinds := ['n', 'g', 'h', 'M'].countP has +
    (if has 'V' || has 'R' || has 'd' || has 'i' then 1 else 0)
  let shown := orderings.filter fun c =>
    has c && c != 'b' && c != 'r' && !(c == 'i' && has 'd')
  if 1 < kinds then some (String.ofList shown) else none

end SortKey

/-- Whether blanks set the parts of a line apart. -/
def isBlankChar (c : Char) : Bool :=
  c == ' ' || c == '\t'

/-- A line behind so many fields; the separators between them are skipped too. -/
def afterFields (separator : Option Char) : Nat → List Char → List Char
  | 0, cs => cs
  | n + 1, cs =>
    match separator with
    | some t => afterFields separator n ((cs.dropWhile (· != t)).drop 1)
    | none => afterFields separator n ((cs.dropWhile isBlankChar).dropWhile (!isBlankChar ·))

/-- The part of a line that a key names. -/
def keyText (separator : Option Char) (k : SortKey) (blanks : Bool) (line : List Char) :
    List Char :=
  let trimmed (skips : Bool) (cs : List Char) : List Char :=
    if skips || blanks then cs.dropWhile isBlankChar else cs
  let fromFirst := trimmed k.first.skipsBlanks (afterFields separator (k.first.field - 1) line)
  let start := fromFirst.drop (k.first.char - 1)
  match k.last with
  | none => start
  | some p =>
    let before := afterFields separator (p.field - 1) line
    let behind : List Char :=
      if p.char = 0 then
        match separator with
        | some t => before.dropWhile (· != t)
        | none => (before.dropWhile isBlankChar).dropWhile (!isBlankChar ·)
      else (trimmed p.skipsBlanks before).drop p.char
    start.take (start.length - behind.length)

/-- A decimal number at the start of a text: its sign, its digits without leading zeros, and those
behind the point. -/
def leadingDecimal (cs : List Char) : Bool × List Char × List Char :=
  let cs := cs.dropWhile isBlankChar
  let (negative, cs) := match cs with
    | '-' :: cs => (true, cs)
    | cs => (false, cs)
  let whole := cs.takeWhile Char.isDigit
  let places := match cs.drop whole.length with
    | '.' :: cs => cs.takeWhile Char.isDigit
    | _ => []
  (negative, whole.dropWhile (· == '0'), places)

/-- Compares texts octet by octet. -/
def compareOctets : List Char → List Char → Ordering
  | [], [] => .eq
  | [], _ => .lt
  | _, [] => .gt
  | a :: as, b :: bs =>
    match compare a.toNat b.toNat with
    | .eq => compareOctets as bs
    | o => o

/-- Compares texts by the decimal numbers that they start with. -/
def compareDecimals (a b : List Char) : Ordering :=
  let (negative, whole, places) := leadingDecimal a
  let (negative', whole', places') := leadingDecimal b
  let cut (cs : List Char) : List Char := (cs.reverse.dropWhile (· == '0')).reverse
  let (places, places') := (cut places, cut places')
  let isZero := whole.isEmpty && places.isEmpty
  let isZero' := whole'.isEmpty && places'.isEmpty
  let sign := if isZero then 1 else if negative then 0 else 2
  let sign' := if isZero' then 1 else if negative' then 0 else 2
  let size := (compare whole.length whole'.length).then
    ((compareOctets whole whole').then (compareOctets places places'))
  (compare (sign : Nat) sign').then (if sign = 0 then size.swap else size)

/-- The rank of the unit behind a number, such as `2K`; those of negative numbers lie below
zero. -/
def unitRank (cs : List Char) : Int :=
  let (negative, whole, places) := leadingDecimal cs
  let rest := (cs.dropWhile isBlankChar).dropWhile fun c => c.isDigit || c == '.' || c == '-'
  let unit : Int := match rest with
    | c :: _ => ("KMGTPEZY".toList.idxOf (if c == 'k' then 'K' else c) + 1 : Nat)
    | [] => 0
  if (whole ++ places).all (· == '0') || 8 < unit then 0
  else if negative then -unit else unit

/-- Compares texts by the floating point numbers that they start with. A text without one comes
first, then what is no number. -/
def compareFloats (a b : List Char) : Ordering :=
  match Numerals.float? a, Numerals.float? b with
  | none, none => .eq
  | none, some _ => .lt
  | some _, none => .gt
  | some (x, _), some (y, _) =>
    if x.isNaN || y.isNaN then (if x.isNaN then (if y.isNaN then .eq else .lt) else .gt)
    else if x < y then .lt else if y < x then .gt else .eq

/-- The rank of a month. -/
def monthRank (cs : List Char) : Nat :=
  let name := String.ofList (((cs.dropWhile isBlankChar).take 3).map Char.toUpper)
  let months := ["JAN", "FEB", "MAR", "APR", "MAY", "JUN", "JUL", "AUG", "SEP", "OCT", "NOV", "DEC"]
  if months.contains name then months.idxOf name + 1 else 0

/-- Compares texts as letters tell. -/
def compareBy (letters : List Char) (a b : List Char) : Ordering :=
  let has (c : Char) : Bool := letters.contains c
  let plain (cs : List Char) : List Char :=
    let cs := if has 'd' then cs.filter fun c => c.isAlphanum || isBlankChar c else cs
    let cs := if has 'i' then cs.filter fun c => 32 ≤ c.toNat && c.toNat < 127 else cs
    if has 'f' then cs.map Char.toUpper else cs
  let result :=
    if has 'n' then compareDecimals a b
    else if has 'g' then compareFloats a b
    else if has 'h' then (compare (unitRank a) (unitRank b)).then (compareDecimals a b)
    else if has 'M' then compare (monthRank a) (monthRank b)
    else if has 'V' then Version.compare (plain a) (plain b)
    else compareOctets (plain a) (plain b)
  if has 'r' then result.swap else result

/-- How lines are sorted. -/
structure SortOrder where
  separator : Option Char := none
  keys : List SortKey
  /-- The letters of keys that have none of their own. -/
  letters : List Char
  isStable : Bool

namespace SortOrder

/-- The letters that a key is compared by. -/
def lettersOf (s : SortOrder) (k : SortKey) : List Char :=
  if k.letters.isEmpty then s.letters else k.letters

/-- The parts of a line that are compared before the whole of it. -/
def parts (s : SortOrder) (line : String) : List (List Char) :=
  s.keys.map fun k =>
    keyText s.separator k (k.letters.isEmpty && s.letters.contains 'b') line.toList

/-- Compares the parts of lines. -/
def compareParts (s : SortOrder) (a b : List (List Char)) : Ordering :=
  (s.keys.zip (a.zip b)).foldl (fun o (k, x, y) => o.then (compareBy (s.lettersOf k) x y)) .eq

/-- Compares lines by their parts and, if those are alike, as a whole. -/
def compareLines (s : SortOrder) (a b : String × List (List Char)) : Ordering :=
  (s.compareParts a.2 b.2).then <|
    if s.isStable && !s.keys.isEmpty then .eq
    else
      let o := compareOctets a.1.toList b.1.toList
      if s.letters.contains 'r' then o.swap else o

/-- Lines in order. -/
def sort (s : SortOrder) (lines : List String) : List (String × List (List Char)) :=
  (lines.map fun l => (l, s.parts l)).mergeSort fun a b => s.compareLines a b != .gt

/-- Lists of lines merged: the least of their first lines comes next, of equal ones the one of the
first list. -/
def mergeAll (s : SortOrder) (inputs : List (List String)) : List (String × List (List Char)) :=
  (inputs.map fun ls => ls.map fun l => (l, s.parts l)).foldl
    (fun a b => a.merge b fun x y => s.compareLines x y != .gt) []

/-- Lines in order, of which only the first of equal ones stays. -/
def distinct (s : SortOrder) (lines : List (String × List (List Char))) :
    List (String × List (List Char)) :=
  (lines.foldl (fun (done : List (String × List (List Char))) l =>
    match done with
    | l' :: _ => if s.compareLines l' l == .eq then done else l :: done
    | [] => [l]) []).reverse

/-- The first line that stands behind a greater one, or behind an equal one if lines have to
differ, with its number. -/
def disorder? (s : SortOrder) (differ : Bool) (lines : List String) : Option (String × Nat) :=
  let keyed := lines.map fun l => (l, s.parts l)
  (((keyed.zip (keyed.drop 1)).zipIdx 2).find? fun p =>
    match s.compareLines p.1.1 p.1.2 with
    | .gt => true
    | .eq => differ
    | .lt => false).map fun p => (p.1.2.1, p.2)

end SortOrder

/-- What `sort` understands. -/
def sortOptions : OptionNames :=
  { plain := "rnufbsVdighMRcCzmδ", valued := "ktoSTωβ"
    long := [("reverse", 'r'), ("numeric-sort", 'n'), ("unique", 'u'), ("ignore-case", 'f'),
      ("stable", 's'), ("version-sort", 'V'), ("key", 'k'), ("field-separator", 't'),
      ("output", 'o'), ("check", 'c'), ("human-numeric-sort", 'h'), ("month-sort", 'M'),
      ("ignore-leading-blanks", 'b'), ("dictionary-order", 'd'), ("general-numeric-sort", 'g'),
      ("ignore-nonprinting", 'i'), ("merge", 'm'), ("random-sort", 'R'), ("sort", 'ω'),
      ("zero-terminated", 'z'), ("buffer-size", 'S'), ("temporary-directory", 'T'),
      ("parallel", 'β'), ("debug", 'δ')] }

/-- The ways to compare by their names. -/
def orderingWords : List (String × Char) :=
  [("general-numeric", 'g'), ("human-numeric", 'h'), ("month", 'M'), ("numeric", 'n'),
    ("random", 'R'), ("version", 'V')]

/-- Ends `sort` with a message. -/
def sortFailed {β : Type} (text : String) : Run β :=
  fail "sort" 2 text

/-- The order that options ask for. -/
def sortOrderOf (o : Options) : Run SortOrder := do
  let mut keys : List SortKey := []
  for text in o.values 'k' do
    match SortKey.read text with
    | .ok k => keys := keys ++ [k]
    | .error cause => sortFailed cause
  let mut separator : Option Char := none
  for t in o.values 't' do
    let given ← match t.toList with
      | [c] => pure c
      | ['\\', '0'] => pure '\x00'
      | [] => sortFailed "empty tab"
      | _ => sortFailed ("multi-character tab " ++ cited t)
    if separator.any (· != given) then sortFailed "incompatible tabs"
    separator := some given
  let mut letters : List Char := (o.flags.map Prod.fst).filter SortKey.orderings.contains
  for word in o.values 'ω' do
    match (wordOf? (orderingWords.map Prod.fst) word).bind fun w => orderingWords.lookup w with
    | some c => letters := letters ++ [c]
    | none => invalidWord "sort" "--sort" word (orderingWords.map Prod.fst)
  let all := letters
  let inherited (k : SortKey) : List Char := if k.letters.isEmpty then all else k.letters
  for k in if keys.isEmpty then [all] else keys.map inherited do
    if let some clash := SortKey.clash? k then
      sortFailed ("options \x27-" ++ clash ++ "\x27 are incompatible")
  if keys.isEmpty && all.any (· != 'r') then
    keys := [⟨⟨1, 1, false⟩, none, []⟩]
  return ⟨separator, keys, all, o.has 's' || o.has 'u'⟩

/-- Tells whether the lines of one input are in order. -/
def checkOrder (order : SortOrder) (o : Options) (quiet : Bool) (ending : Char) (input : String) :
    Run Unit := do
  match ← readInput input with
  | .error cause => sortFailed ("read failed: " ++ shownName input ++ ": " ++ cause)
  | .ok s =>
    if let some (line, i) := order.disorder? (o.has 'u') (linesEndedBy ending s) then
      if !quiet then warn "sort" (input ++ ":" ++ toString i ++ ": disorder: " ++ line)
      setStatus 1

/-- `sort`. -/
def sortLines : Utility :=
  withOptions "sort" sortOptions
    (fun o => do
      let order ← sortOrderOf o
      let ending := lineEnding (o.has 'z')
      let inputs := operandsOrInput o
      let isQuietWord (s : String) : Bool := s == "quiet" || s == "silent"
      let quiet := o.has 'C' || (o.values 'c').any isQuietWord
      let loud := (o.values 'c').any (!isQuietWord ·)
      if (o.values 'o').eraseDups.length > 1 then sortFailed "multiple output files specified"
      if loud && quiet then sortFailed "options \x27-cC\x27 are incompatible"
      if loud || quiet then
        let letter := if quiet then "C" else "c"
        if let some extra := o.operands[1]? then
          sortFailed ("extra operand " ++ inQuotes extra ++ " not allowed with -" ++ letter)
        if (o.value? 'o').isSome then
          sortFailed ("options \x27-" ++ letter ++ "o\x27 are incompatible")
      for input in inputs do
        if let .error e ← openInput input then
          sortFailed ("cannot read: " ++ shownName input ++ ": " ++ causeText e)
      if loud || quiet then checkOrder order o quiet ending (inputs.headD "-")
      else
        let mut contents : List (List String) := []
        for input in inputs do
          match ← readInput input with
          | .ok s => contents := contents ++ [linesEndedBy ending s]
          | .error cause =>
            sortFailed ("read failed: " ++ shownName input ++ ": " ++ cause)
        let sorted := if o.has 'm' then order.mergeAll contents else order.sort contents.flatten
        let kept := if o.has 'u' then order.distinct sorted else sorted
        let text := joinEndedBy ending (kept.map Prod.fst)
        match o.value? 'o' with
        | none => emit "sort" text
        | some target =>
          match ← storeText target text with
          | .ok () => return
          | .error cause => sortFailed ("open failed: " ++ shownName target ++ ": " ++ cause))
    true 2

end PatchSearch.Shell
