import PatchSearch.Shell.Utility.Basic
import PatchSearch.Shell.Utility.Streams

/-!
Lists of positions from one on, such as `1,4-6,9-`. Ranges that overlap are one range, and the
positions outside of some ranges are ranges again.
-/
namespace PatchSearch.Shell

/-- What is wrong with a list of positions. -/
inductive RangeFault where
  | zero
  | decreasing
  | endless
  | unclear
  | tooLarge (digits : String)
  | stray (text : String)

namespace RangeFault

/-- The fault in words, for positions in a line or for fields. -/
def message (ofFields : Bool) : RangeFault → String
  | zero => (if ofFields then "fields" else "byte/character positions") ++ " are numbered from 1"
  | decreasing => "invalid decreasing range"
  | endless => "invalid range with no endpoint: -"
  | unclear => if ofFields then "invalid field range" else "invalid byte or character range"
  | tooLarge digits =>
    (if ofFields then "field number " else "byte/character offset ") ++ cited digits ++
      " is too large"
  | stray text =>
    (if ofFields then "invalid field value " else "invalid byte/character position ") ++
      cited text

end RangeFault

/-- Positions from one on, as ranges that may have no end. -/
abbrev Ranges := List (Nat × Option Nat)

namespace Ranges

/-- A range of which a part is read: the number that is being read, and where the range starts if
a dash stood in front of that. -/
structure Unfinished where
  low : Option Nat := none
  digits : List Char := []

namespace Unfinished

def value (u : Unfinished) : Nat :=
  u.digits.reverse.foldl (fun n c => 10 * n + (c.toNat - 48)) 0

/-- The range that is read. -/
def finish (u : Unfinished) : Except RangeFault (Nat × Option Nat) :=
  match u.low with
  | none => if u.value = 0 then .error .zero else .ok (u.value, some u.value)
  | some low =>
    if u.digits.isEmpty then if low = 0 then .error .endless else .ok (low, none)
    else
      let low := max low 1
      if u.value < low then .error .decreasing else .ok (low, some u.value)

end Unfinished

/-- The ranges that a text lists; zero as the start of a range stands for no start. -/
def readFrom (u : Unfinished) : List Char → Except RangeFault Ranges
  | [] => do return [← u.finish]
  | c :: cs =>
    if c == '-' then
      if u.low.isSome then .error .unclear
      else if !u.digits.isEmpty && u.value = 0 then .error .zero
      else readFrom { low := some u.value } cs
    else if c == ',' || c == ' ' || c == '\t' then do
      let first ← u.finish
      return first :: (← readFrom {} cs)
    else if c.isDigit then
      let next := { u with digits := c :: u.digits }
      if next.value < 0xffffffffffffffff then readFrom next cs
      else
        .error (.tooLarge (String.ofList (next.digits.reverse ++ cs.takeWhile Char.isDigit)))
    else .error (.stray (String.ofList (c :: cs)))

/-- Whether a range reaches the start of a later one. -/
def reaches (r : Nat × Option Nat) (start : Nat) : Bool :=
  r.2.all (start ≤ ·)

/-- Ranges in order, of which those that overlap are joined. -/
def merged (ranges : Ranges) : Ranges :=
  let sorted := ranges.mergeSort fun a b => a.1 ≤ b.1
  (sorted.foldl (fun (done : Ranges) r =>
    match done with
    | r' :: rest =>
      if reaches r' r.1 then
        (r'.1, match r'.2, r.2 with
          | some m, some n => some (max m n)
          | _, _ => none) :: rest
      else r :: done
    | [] => [r]) []).reverse

/-- The positions from a start on that lie outside of ranges in order. -/
def outside (start : Nat) : Ranges → Ranges
  | [] => [(start, none)]
  | (low, high) :: rest =>
    (if start < low then [(start, some (low - 1))] else []) ++
      match high with
      | some n => outside (n + 1) rest
      | none => []

/-- The ranges that a text lists, in order. -/
def read (s : String) : Except RangeFault Ranges :=
  (readFrom {} s.toList).map merged

def contains (ranges : Ranges) (i : Nat) : Bool :=
  ranges.any fun r => r.1 ≤ i && reaches r i

/-- Whether a range starts at a position. -/
def startsAt (ranges : Ranges) (i : Nat) : Bool :=
  ranges.any fun r => r.1 == i

theorem contains_of_mem {ranges : Ranges} {low : Nat} {high : Option Nat}
    (h : (low, high) ∈ ranges) (hlow : high.all (low ≤ ·)) : ranges.contains low := by
  simp only [contains, List.any_eq_true]
  exact ⟨(low, high), h, by simp [reaches, hlow]⟩

end Ranges

/-!
Lines as rows of columns: `cut` takes columns out of lines, and `paste` puts the lines of inputs
beside each other.
-/

open Run

/-- The octets of a line in some ranges. A text stands between ranges if there is one. -/
def octetsIn (ranges : Ranges) (between : String) (line : String) : String :=
  let found := (line.toList.zipIdx 1).filter fun p => ranges.contains p.2
  String.join (found.zipIdx.map fun ((c, i), k) =>
    (if k != 0 && ranges.startsAt i then between else "") ++ String.singleton c)

/-- The fields of a line in some ranges; nothing of a line without a separator if `strict`. -/
def fieldsIn (ranges : Ranges) (separator between : String) (strict : Bool) (line : String) :
    Option String :=
  let fields := line.splitOn separator
  if fields.length < 2 then if strict then none else some line
  else some (between.intercalate
    (((fields.zipIdx 1).filter fun p => ranges.contains p.2).map Prod.fst))

/-- What `cut` understands. -/
def cutOptions : OptionNames :=
  { plain := "snzγ", valued := "cbfdο"
    long := [("delimiter", 'd'), ("fields", 'f'), ("characters", 'c'), ("bytes", 'b'),
      ("only-delimited", 's'), ("complement", 'γ'), ("output-delimiter", 'ο'),
      ("zero-terminated", 'z')] }

/-- `cut`. -/
def cutLines : Utility :=
  withOptions "cut" cutOptions fun o => do
    let misused {β : Type} (text : String) : Run β := misuse "cut" 1 text
    let isList (c : Char) : Bool := ['c', 'b', 'f'].contains c
    let mut given : Option String := none
    for (c, value) in o.flags do
      if isList c then
        if given.isSome then misused "only one list may be specified"
        given := some value
      if c == 'd' && 1 < value.length then misused "the delimiter must be a single character"
    let byFields := o.has 'f'
    match given with
    | none => misused "you must specify a list of bytes, characters, or fields"
    | some list =>
      if !byFields && o.has 'd' then
        misused "an input delimiter may be specified only when operating on fields"
      if !byFields && o.has 's' then
        misused "suppressing non-delimited lines makes sense\n\tonly when operating on fields"
      let ranges ← match Ranges.read list with
        | .ok r => pure (if o.has 'γ' then r.outside 1 else r)
        | .error e => misused (e.message byFields)
      let ending := lineEnding (o.has 'z')
      let separator := match o.value? 'd' with
        | some "" => "\x00"
        | some d => d
        | none => "\t"
      let cut (line : String) : Option String :=
        if byFields then
          fieldsIn ranges separator ((o.value? 'ο').getD separator) (o.has 's') line
        else some (octetsIn ranges ((o.value? 'ο').getD "") line)
      onInputs "cut" 1 (fun _ s =>
        emit "cut" (joinEndedBy ending ((linesEndedBy ending s).filterMap cut)))
        (operandsOrInput o)

/-- The delimiters that a text lists; a backslash gives some characters a meaning. -/
def delimitersIn : List Char → List String
  | '\\' :: c :: cs =>
    (match c with
      | 'b' => "\x08"
      | 'f' => "\x0c"
      | 'n' => "\n"
      | 'r' => "\r"
      | 't' => "\t"
      | 'v' => "\x0b"
      | '0' => ""
      | c => String.singleton c) :: delimitersIn cs
  | c :: cs => String.singleton c :: delimitersIn cs
  | [] => []

/-- Lines joined by delimiters that are used in turn. -/
def joinCycled (delimiters : List String) (items : List String) : String :=
  match items with
  | [] => ""
  | first :: rest =>
    rest.zipIdx.foldl (fun s (item, i) =>
      s ++ (delimiters[i % delimiters.length]?).getD "" ++ item) first

/-- A column of `paste`: the lines that are left of it, or the next ones of the shared input. -/
inductive Column where
  | lines (rest : List String)
  | shared

/-- The next line of each column, with the columns and the shared lines behind that. -/
def nextRow (columns : List Column) (shared : List String) :
    List (Option String) × List Column × List String :=
  columns.foldr (fun column k (shared : List String) =>
    match column with
    | .lines rest =>
      let (row, columns, shared) := k shared
      (rest.head? :: row, .lines (rest.drop 1) :: columns, shared)
    | .shared =>
      let (row, columns, shared') := k (shared.drop 1)
      (shared.head? :: row, .shared :: columns, shared')) (fun shared => ([], [], shared)) shared

/-- Rows of columns until all lines are used up. -/
def rowsOf : Nat → List Column → List String → List (List String)
  | 0, _, _ => []
  | n + 1, columns, shared =>
    let (row, columns, shared) := nextRow columns shared
    if row.all Option.isNone then [] else row.map (·.getD "") :: rowsOf n columns shared

/-- `paste`. -/
def pasteLines : Utility :=
  withOptions "paste"
    { plain := "sz", valued := "d"
      long := [("serial", 's'), ("delimiters", 'd'), ("zero-terminated", 'z')] }
    fun o => do
      let list := (o.value? 'd').getD "\t"
      if (list.toList.reverse.takeWhile (· == '\\')).length % 2 = 1 then
        fail "paste" 1 ("delimiter list ends with an unescaped backslash: " ++ list)
      let delimiters := match delimitersIn list.toList with
        | [] => [""]
        | ds => ds
      let ending := lineEnding (o.has 'z')
      let inputs := operandsOrInput o
      let mut opened : List (String × Option Channel) := []
      for input in inputs do
        match ← openInput input with
        | .ok c => opened := opened ++ [(input, c)]
        | .error e =>
          let text := shownName input ++ ": " ++ causeText e
          if o.has 's' then lament "paste" text else fail "paste" 1 text
      let content (c : Option Channel) : Run (List String × Option String) := do
        match c with
        | none => return ([], some "Bad file descriptor")
        | some c =>
          match ← readAll c with
          | .ok s => return (linesEndedBy ending s, none)
          | .error e => return ([], some e.message)
      let regret (name : String) (fault : Option String) : Run Unit := do
        if let some cause := fault then lament "paste" (shownName name ++ ": " ++ cause)
      if o.has 's' then
        for (name, c) in opened do
          let (lines, fault) ← content c
          emit "paste" (joinEndedBy ending [joinCycled delimiters lines])
          regret name fault
      else
        let mut columns : List Column := []
        let mut shared : List String := []
        for (name, c) in opened do
          if name == "-" then
            if !columns.any (fun | .shared => true | _ => false) then
              let (lines, fault) ← content c
              regret name fault
              shared := lines
            columns := columns ++ [.shared]
          else
            let (lines, fault) ← content c
            regret name fault
            columns := columns ++ [.lines lines]
        let height := columns.foldl (fun n column =>
          match column with
          | .lines ls => max n ls.length
          | .shared => max n shared.length) 0
        emit "paste" (joinEndedBy ending
          ((rowsOf (height + 1) columns shared).map (joinCycled delimiters)))

end PatchSearch.Shell
