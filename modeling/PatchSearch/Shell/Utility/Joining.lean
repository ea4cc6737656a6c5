import PatchSearch.Shell.Utility.Sorting

/-!
Joining: `join` walks through two inputs that are in the order of one of their fields and writes a
line for each two lines that are alike there. Lines without a partner are left out or written by
themselves.
-/
namespace PatchSearch.Shell

open Run

/-- A line of an input that is joined. -/
structure JoinLine where
  number : Nat
  text : String
  fields : List String

/-- A field of a joined line: the one that the inputs are joined by, or one of the first or of the
second input, from zero on. -/
inductive JoinField where
  | key
  | first (n : Nat)
  | second (n : Nat)

/-- How two inputs are joined. -/
structure JoinForm where
  firstKey : Nat := 0
  secondKey : Nat := 0
  separator : Option Char := none
  /-- What stands in place of a field that is missing or empty. -/
  filler : String := ""
  fields : List JoinField := []
  /-- How many fields each line has if that is fixed. -/
  counts : Option (Nat × Nat) := none
  ignoresCase : Bool := false
  showsPairs : Bool := true
  showsFirst : Bool := false
  showsSecond : Bool := false

/-- What is met while two inputs are joined. -/
inductive JoinStep where
  | line (text : String)
  /-- A line of an input that should stand before the one in front of it. -/
  | disorder (side : Nat) (l : JoinLine)

namespace JoinForm

/-- The fields of a line. Behind blanks at the end an empty one follows. -/
def split (f : JoinForm) (line : String) : List String :=
  match f.separator with
  | some '\n' => [line]
  | some c => if line.isEmpty then [] else line.splitOn (String.singleton c)
  | none =>
    let isGap (c : Char) : Bool := isBlankChar c || c == '\n'
    let words := ((line.toList.splitBy fun a b => isGap a == isGap b).filter fun g =>
      !g.any isGap).map String.ofList
    if !words.isEmpty && line.toList.getLast?.any isGap then words ++ [""] else words

def key (f : JoinForm) (isFirst : Bool) (l : JoinLine) : List Char :=
  let cs := ((l.fields[if isFirst then f.firstKey else f.secondKey]?).getD "").toList
  if f.ignoresCase then cs.map Char.toLower else cs

/-- A field of a line that may be missing. -/
def shown (f : JoinForm) (l : Option JoinLine) (n : Nat) : String :=
  match (l.bind fun l => l.fields[n]?).getD "" with
  | "" => f.filler
  | s => s

/-- The fields of a line except for one. -/
def others (f : JoinForm) (l : Option JoinLine) (key : Nat) (count : Option Nat) : List String :=
  let size := count.getD ((l.map (·.fields.length)).getD 0)
  ((List.range size).filter (· != key)).map (f.shown l)

/-- The text of one or two lines. -/
def text (f : JoinForm) (a b : Option JoinLine) : String :=
  let key := if a.isSome then f.shown a f.firstKey else f.shown b f.secondKey
  let separator := String.singleton (f.separator.getD ' ')
  separator.intercalate <|
    if f.fields.isEmpty then
      key :: (f.others a f.firstKey (f.counts.map Prod.fst) ++
        f.others b f.secondKey (f.counts.map Prod.snd))
    else
      f.fields.map fun
        | .key => key
        | .first n => f.shown a n
        | .second n => f.shown b n

/-- The first of some lines and what is met when it is read behind another one. -/
def advance (f : JoinForm) (counts : Bool) (side : Nat) (before : JoinLine)
    (ahead : List JoinLine) : List JoinStep :=
  match ahead with
  | l :: _ =>
    if counts && compareOctets (f.key (side == 1) l) (f.key (side == 1) before) == .lt then
      [.disorder side l]
    else []
  | [] => []

/-- What is met when lines are read one after the other. -/
def readThrough (f : JoinForm) (counts : Bool) (side : Nat) :
    JoinLine → List JoinLine → List JoinStep
  | _, [] => []
  | before, l :: ls => f.advance counts side before (l :: ls) ++ f.readThrough counts side l ls

/-- What is met at the end, where only one input has lines left. -/
def rest (f : JoinForm) (counts shows : Bool) (side : Nat) : List JoinLine → List JoinStep
  | [] => []
  | l :: ls =>
    let own (l : JoinLine) : List JoinStep :=
      if !shows then []
      else if side = 1 then [.line (f.text (some l) none)] else [.line (f.text none (some l))]
    own l ++ f.advance counts side l ls ++ f.rest counts shows side ls

/-- The walk through two inputs. Order counts from the first line on that has no partner, or
everywhere if it is `strict`. -/
def walk (f : JoinForm) (strict : Bool) :
    Nat → Bool → List JoinLine → List JoinLine → List JoinStep
  | n + 1, seen, x :: xs, y :: ys =>
    let counts := strict || seen
    match compareOctets (f.key true x) (f.key false y) with
    | .lt =>
      (if f.showsFirst then [.line (f.text (some x) none)] else []) ++
        f.advance counts 1 x xs ++ f.walk strict n true xs (y :: ys)
    | .gt =>
      (if f.showsSecond then [.line (f.text none (some y))] else []) ++
        f.advance counts 2 y ys ++ f.walk strict n true (x :: xs) ys
    | .eq =>
      let alike := xs.takeWhile fun l => f.key true l == f.key false y
      let alike' := ys.takeWhile fun l => f.key false l == f.key true x
      let pairs := (x :: alike).flatMap fun a => (y :: alike').map fun b =>
        JoinStep.line (f.text (some a) (some b))
      f.readThrough counts 1 x (xs.take (alike.length + 1)) ++
        f.readThrough counts 2 y (ys.take (alike'.length + 1)) ++
        (if f.showsPairs then pairs else []) ++
        f.walk strict n seen (xs.drop alike.length) (ys.drop alike'.length)
  | _, seen, xs, ys =>
    let counts := strict || seen
    f.rest counts f.showsFirst 1 xs ++ f.rest counts f.showsSecond 2 ys

end JoinForm

/-- What `join` understands. -/
def joinOptions : OptionNames :=
  { plain := "izχνη", valued := "aejotv12"
    long := [("ignore-case", 'i'), ("check-order", 'χ'), ("nocheck-order", 'ν'), ("header", 'η'),
      ("zero-terminated", 'z')] }

/-- Ends `join` with a message. -/
def joinFailed {β : Type} (text : String) : Run β :=
  fail "join" 1 text

/-- A field that inputs are joined by, from zero on. -/
def joinFieldNumber (s : String) : Run Nat := do
  match integer? s with
  | some n =>
    if n < 1 then joinFailed ("invalid field number: " ++ cited s)
    return n.toNat - 1
  | none => joinFailed ("invalid field number: " ++ cited s)

/-- The fields that a text lists. -/
def joinFieldsIn (s : String) : Run (List JoinField) :=
  let items := s.toList.splitOnP fun c => c == ',' || isBlankChar c
  items.mapM fun item => do
    let text := String.ofList item
    match item with
    | ['0'] => return .key
    | '0' :: _ => joinFailed ("invalid field specifier: " ++ cited text)
    | '1' :: '.' :: n => return .first (← joinFieldNumber (String.ofList n))
    | '2' :: '.' :: n => return .second (← joinFieldNumber (String.ofList n))
    | '1' :: _ => joinFailed ("invalid field specifier: " ++ cited text)
    | '2' :: _ => joinFailed ("invalid field specifier: " ++ cited text)
    | _ => joinFailed ("invalid file number in field spec: " ++ cited text)

/-- The form that options ask for. -/
def joinFormOf (o : Options) : Run JoinForm := do
  let mut f : JoinForm := {}
  let mut keys : List (Bool × Nat) := []
  let mut filler : Option String := none
  let given (keys : List (Bool × Nat)) (side : Bool) (n : Nat) : Run (List (Bool × Nat)) := do
    match keys.lookup side with
    | some m =>
      if m != n then
        joinFailed ("incompatible join fields " ++ toString m ++ ", " ++ toString n)
      return keys
    | none => return (side, n) :: keys
  for (c, value) in o.flags do
    if c == 'a' || c == 'v' then
      if c == 'v' then f := { f with showsPairs := false }
      match integer? value with
      | some 1 => f := { f with showsFirst := true }
      | some 2 => f := { f with showsSecond := true }
      | _ => joinFailed ("invalid field number: " ++ cited value)
    if c == 'e' then
      if filler.any (· != value) then joinFailed "conflicting empty-field replacement strings"
      filler := some value
    if c == 'i' then f := { f with ignoresCase := true }
    if c == '1' then keys ← given keys true (← joinFieldNumber value)
    if c == '2' then keys ← given keys false (← joinFieldNumber value)
    if c == 'j' then
      let n ← joinFieldNumber value
      keys ← given keys true n
      keys ← given keys false n
    if c == 'o' && value != "auto" then
      f := { f with fields := f.fields ++ (← joinFieldsIn value) }
    if c == 't' then
      let t ← match value.toList with
        | [c] => pure c
        | [] => pure '\n'
        | ['\\', '0'] => pure '\x00'
        | _ => joinFailed ("multi-character tab " ++ cited value)
      if f.separator.any (· != t) then joinFailed "incompatible tabs"
      f := { f with separator := some t }
  return { f with
    firstKey := (keys.lookup true).getD 0
    secondKey := (keys.lookup false).getD 0
    filler := filler.getD "" }

/-- `join`. -/
def joinLinesOf : Utility :=
  withOptions "join" joinOptions fun o => do
    let f ← joinFormOf o
    let extra := if o.has 'o' then o.operands.length - 2 else 0
    let f := { f with
      fields := f.fields ++ (← (o.operands.take extra).mapM joinFieldsIn).flatten }
    match o.operands.drop extra with
    | [] => misuse "join" 1 "missing operand"
    | [a] => misuse "join" 1 ("missing operand after " ++ cited a)
    | _ :: _ :: extra :: _ => misuse "join" 1 ("extra operand " ++ inQuotes extra)
    | [a, b] =>
      let ending := lineEnding (o.has 'z')
      let opened (name : String) : Run (Option Channel) := do
        match ← openInput name with
        | .ok c => return c
        | .error e => joinFailed (shownName name ++ ": " ++ causeText e)
      let channel ← opened a
      let channel' ← opened b
      if a == "-" && b == "-" then joinFailed "both files cannot be standard input"
      let content (c : Option Channel) : Run (List JoinLine) := do
        match ← (match c with
          | some c => readAll c
          | none => pure (.error .closed)) with
        | .ok s =>
          return ((linesEndedBy ending s).zipIdx 1).map fun (l, i) => ⟨i, l, f.split l⟩
        | .error e => joinFailed ("read error: " ++ e.message)
      let as ← content channel
      let bs ← content channel'
      let width (ls : List JoinLine) : Nat := (ls.head?.map (·.fields.length)).getD 0
      let f := if o.values 'o' == ["auto"] then { f with counts := some (width as, width bs) }
        else f
      let hasHeader := o.has 'η' && !(as.isEmpty && bs.isEmpty)
      let header := if hasHeader then [JoinStep.line (f.text as.head? bs.head?)] else []
      let skip := if hasHeader then 1 else 0
      let last := o.last? ['χ', 'ν']
      let strict := last == some 'χ'
      let steps := header ++ f.walk strict (as.length + bs.length + 1) false (as.drop skip)
        (bs.drop skip)
      let mut pending : List String := []
      let mut found : List Nat := []
      for step in steps do
        match step with
        | .line text => pending := text :: pending
        | .disorder side l =>
          if last != some 'ν' && !found.contains side then
            found := side :: found
            emit "join" (joinEndedBy ending pending.reverse)
            pending := []
            let text := (if side = 1 then a else b) ++ ":" ++ toString l.number ++
              ": is not sorted: " ++ l.text
            if strict then joinFailed text else lament "join" text
      emit "join" (joinEndedBy ending pending.reverse)
      if !found.isEmpty then joinFailed "input is not in sorted order"

end PatchSearch.Shell
