import PatchSearch.Shell.Utility.Sorting
import PatchSearch.Shell.Utility.Streams

/-!
Utilities that rely on the order of lines: `uniq` takes neighbors that are alike together, and
`comm` walks through two sorted inputs beside each other.
-/
namespace PatchSearch.Shell

open Run

/-- Neighboring lines that are alike, taken together. -/
def runsOf (same : String → String → Bool) (lines : List String) : List (List String) :=
  ((lines.foldl (fun (done : List (List String)) l =>
    match done with
    | (l' :: ls) :: rest => if same l' l then (l :: l' :: ls) :: rest else [l] :: done
    | _ => [l] :: done) []).map List.reverse).reverse

/-- What `uniq` understands. -/
def uniqueOptions : OptionNames :=
  { plain := "cdDuizγ", valued := "fsw", counting := some 'f'
    long := [("count", 'c'), ("repeated", 'd'), ("unique", 'u'), ("ignore-case", 'i'),
      ("skip-fields", 'f'), ("skip-chars", 's'), ("check-chars", 'w'), ("all-repeated", 'D'),
      ("zero-terminated", 'z'), ("group", 'γ')] }

/-- What `uniq` writes of runs of lines: all groups with blank lines around them. -/
def groupedRuns (method : String) (runs : List (List String)) : List String :=
  let around := method == "both"
  let before := method == "prepend" || around
  let body := (runs.zipIdx).flatMap fun (run, i) =>
    (if before || i != 0 then [""] else []) ++ run
  if (around || method == "append") && !runs.isEmpty then body ++ [""] else body

/-- What `uniq` writes of runs of lines: the repeated ones in full, or up to their last lines. -/
def repeatedRuns (method : String) (dropsLast : Bool) (runs : List (List String)) :
    List String :=
  ((runs.filter (1 < ·.length)).zipIdx).flatMap fun (run, i) =>
    (if method == "prepend" || method == "separate" && i != 0 then [""] else []) ++
      if dropsLast then run.dropLast else run

/-- `uniq`. -/
def uniqueLines : Utility :=
  withOptions "uniq" uniqueOptions fun o => do
    let mut numbers : List (Char × Nat) := []
    for (c, value) in o.flags do
      if ['f', 's', 'w'].contains c then
        match integer? value with
        | some n =>
          if n < 0 || value.startsWith "+" then
            fail "uniq" 1 (value ++ ": invalid number of " ++
              if c == 'f' then "fields to skip" else if c == 's' then "bytes to skip"
              else "bytes to compare")
          numbers := (c, n.toNat) :: numbers
        | none =>
          fail "uniq" 1 (value ++ ": invalid number of " ++
            if c == 'f' then "fields to skip" else if c == 's' then "bytes to skip"
            else "bytes to compare")
    let given := numbers
    let isCount (s : String) : Bool :=
      s.startsWith "+" && 1 < s.length && (s.toList.drop 1).all Char.isDigit
    let skipped := match (o.operands.filter isCount).getLast? with
      | some s => ((integer? s).map Int.toNat).getD 0
      | none => (given.lookup 's').getD 0
    let operands := o.operands.filter (!isCount ·)
    let groups := ["prepend", "append", "separate", "both"]
    let repeats := ["none", "prepend", "separate"]
    let method (c : Char) (option default : String) (words : List String) : Run String := do
      let value := (o.value? c).getD ""
      if value.isEmpty then return default
      match wordOf? words value with
      | some w => return w
      | none => invalidWord "uniq" option value words
    let repeatMethod ← method 'D' "--all-repeated" "none" repeats
    let groupMethod ← method 'γ' "--group" "separate" groups
    if let some extra := operands[2]? then misuse "uniq" 1 ("extra operand " ++ cited extra)
    if o.has 'γ' && ['c', 'd', 'D', 'u'].any o.has then
      misuse "uniq" 1 "--group is mutually exclusive with -c/-d/-D/-u"
    if o.has 'c' && o.has 'D' then
      misuse "uniq" 1 "printing all duplicated lines and repeat counts is meaningless"
    let key (l : String) : List Char :=
      let cs := afterFields none ((given.lookup 'f').getD 0) l.toList
      let cs := cs.drop skipped
      let cs := match given.lookup 'w' with
        | some n => cs.take n
        | none => cs
      if o.has 'i' then cs.map Char.toLower else cs
    let ending := lineEnding (o.has 'z')
    let input := operands.headD "-"
    match ← openInput input with
    | .error e => fail "uniq" 1 (shownName input ++ ": " ++ causeText e)
    | .ok none => fail "uniq" 1 (shownName input ++ ": Bad file descriptor")
    | .ok (some c) =>
      let target ← match operands[1]? with
        | none => pure none
        | some "-" => pure none
        | some target =>
          match ← openForWriting target .overwrite with
          | .ok c => pure (some c)
          | .error e => fail "uniq" 1 (shownName target ++ ": " ++ causeText e)
      match ← readAll c with
      | .error e => fail "uniq" 1 ("error reading " ++ inQuotes input ++ ": " ++ e.message)
      | .ok s =>
        let runs := runsOf (fun a b => key a == key b) (linesEndedBy ending s)
        let shown := if o.has 'γ' then groupedRuns groupMethod runs
          else if o.has 'D' then
            repeatedRuns repeatMethod (o.has 'u') runs
          else
            runs.filterMap fun run =>
              let n := run.length
              if o.has 'd' && n < 2 || o.has 'u' && 1 < n then none
              else some ((if o.has 'c' then aligned 7 n ++ " " else "") ++ run.headD "")
        let text := joinEndedBy ending shown
        match target with
        | none => emit "uniq" text
        | some c => discard (writeTo (some c) text)

/-- One of two lists of lines that are compared: the lines behind, latest first, and the lines
still to come. -/
structure ComparedSide where
  behind : List String := []
  ahead : List String

namespace ComparedSide

/-- Goes on by a line. -/
def step (s : ComparedSide) : ComparedSide :=
  match s.ahead with
  | [] => s
  | l :: rest => ⟨l :: s.behind, rest⟩

/-- All lines in their order. -/
def lines (s : ComparedSide) : List String :=
  s.behind.reverse ++ s.ahead

theorem lines_step (s : ComparedSide) : s.step.lines = s.lines := by
  obtain ⟨behind, ahead⟩ := s
  cases ahead with
  | nil => rfl
  | cons l rest => simp [step, lines]

/-- Whether the two lines that a step has just met are out of order. -/
def isDisordered (s : ComparedSide) : Bool :=
  match s.behind, s.ahead with
  | a :: _, b :: _ => compareOctets b.toList a.toList == .lt
  | b :: a :: _, [] => compareOctets b.toList a.toList == .lt
  | _, _ => false

end ComparedSide

/-- What is met on a walk through two sorted lists. -/
inductive ComparedStep where
  /-- A line of the first list only, of the second only, or of both. -/
  | line (column : Nat) (text : String)
  /-- A list that is found out of order. -/
  | disorder (side : Nat)

/-- The walk through two lists beside each other. Order counts from the first line on that has no
partner, or everywhere if it is `strict`. -/
def walkBeside (strict : Bool) : Nat → Bool → ComparedSide → ComparedSide → List ComparedStep
  | 0, _, _, _ => []
  | n + 1, hasSeen, a, b =>
    let next (column : Nat) (text : String) : List ComparedStep :=
      let counts := strict || hasSeen || column != 3
      let inFirst := column != 2
      let inSecond := column != 1
      let a := if inFirst then a.step else a
      let b := if inSecond then b.step else b
      .line column text ::
        (if inFirst && counts && a.isDisordered then [.disorder 1] else []) ++
        (if inSecond && counts && b.isDisordered then [.disorder 2] else []) ++
        walkBeside strict n (hasSeen || column != 3) a b
    match a.ahead, b.ahead with
    | [], [] => []
    | x :: _, [] => next 1 x
    | [], y :: _ => next 2 y
    | x :: _, y :: _ =>
      match compareOctets x.toList y.toList with
      | .lt => next 1 x
      | .gt => next 2 y
      | .eq => next 3 x

/-- What `comm` understands. -/
def commonOptions : OptionNames :=
  { plain := "123zχντ", valued := "ο"
    long := [("check-order", 'χ'), ("nocheck-order", 'ν'), ("output-delimiter", 'ο'),
      ("total", 'τ'), ("zero-terminated", 'z')] }

/-- `comm`. -/
def compareSorted : Utility :=
  withOptions "comm" commonOptions fun o => do
    if 1 < (o.values 'ο').eraseDups.length then
      fail "comm" 1 "multiple output delimiters specified"
    match o.operands with
    | [a, b] => do
      let ending := lineEnding (o.has 'z')
      let content (name : String) : Run (List String) := do
        match ← readInput name with
        | .ok s => return linesEndedBy ending s
        | .error cause => fail "comm" 1 (shownName name ++ ": " ++ cause)
      let as ← content a
      let bs ← content b
      let separator := match o.value? 'ο' with
        | some "" => "\x00"
        | some s => s
        | none => "\t"
      let shows (n : Nat) : Bool := !o.has (Char.ofNat (48 + n))
      let indent (n : Nat) : String :=
        (if 1 < n && shows 1 then separator else "") ++
          if 2 < n && shows 2 then separator else ""
      let strict := (o.last? ['χ', 'ν']) == some 'χ'
      let silent := (o.last? ['χ', 'ν']) == some 'ν'
      let walk := walkBeside strict (as.length + bs.length + 1) false { ahead := as }
        { ahead := bs }
      let mut counted : List Nat := []
      let mut found : List Nat := []
      let mut pending : List String := []
      for step in walk do
        match step with
        | .line n l =>
          counted := n :: counted
          if shows n then pending := (indent n ++ l) :: pending
        | .disorder side =>
          if !silent && !found.contains side then
            found := side :: found
            emit "comm" (joinEndedBy ending pending.reverse)
            pending := []
            let text := "file " ++ toString side ++ " is not in sorted order"
            if strict then fail "comm" 1 text else lament "comm" text
      let all := counted
      let total := String.intercalate separator
        ([1, 2, 3].map (fun n => toString (all.count n)) ++ ["total"])
      emit "comm" (joinEndedBy ending (pending.reverse ++ if o.has 'τ' then [total] else []))
      if !found.isEmpty then lament "comm" "input is not in sorted order"
    | [] => misuse "comm" 1 "missing operand"
    | [a] => misuse "comm" 1 ("missing operand after " ++ cited a)
    | _ :: _ :: extra :: _ => misuse "comm" 1 ("extra operand " ++ cited extra)

/-!
Orders that keep to some precedences: `tsort` writes names so that each stands behind all that
have to come before it. Where names wait for each other in a circle, the circle is told and one of
its precedences is given up.
-/

/-- A name that waits: how many precedences it stands behind, and the names behind it, the one
that was given last first. -/
structure Waiting where
  name : String
  count : Nat := 0
  behind : List String := []
  isDone : Bool := false

/-- Names that wait, ascending. -/
abbrev WaitingList := List Waiting

namespace WaitingList

/-- Changes what is known of a name. -/
def change (ws : WaitingList) (name : String) (f : Waiting → Waiting) : WaitingList :=
  ws.map fun w => if w.name == name then f w else w

/-- The names in precedences, with the precedences between different ones. -/
def ofPairs (pairs : List (String × String)) : WaitingList :=
  let names := (pairs.flatMap fun p => [p.1, p.2]).mergeSort fun a b => !(b < a)
  let start : WaitingList :=
    (names.foldr (fun n (done : List String) =>
      if done.head? == some n then done else n :: done) []).map fun name => { name }
  pairs.foldl (fun ws (a, b) =>
    if a == b then ws
    else
      (ws.change b fun w => { w with count := w.count + 1 }).change a fun w =>
        { w with behind := b :: w.behind }) start

/-- Takes away a precedence in front of each of some names; the names that became free. -/
def release (ws : WaitingList) : List String → WaitingList × List String
  | [] => (ws, [])
  | name :: rest =>
    let ws := ws.change name fun w => { w with count := w.count - 1 }
    let freed := (ws.filter fun w => w.name == name && w.count = 0).map Waiting.name
    let (ws, more) := release ws rest
    (ws, freed ++ more)

/-- The names that come next, beginning with some that wait for nothing. -/
def drain : Nat → WaitingList → List String → List String × WaitingList
  | 0, ws, _ => ([], ws)
  | _, ws, [] => ([], ws)
  | n + 1, ws, name :: queue =>
    let behind := ((ws.find? (·.name == name)).map Waiting.behind).getD []
    let (ws, freed) := (ws.change name fun w => { w with isDone := true }).release behind
    let (out, ws) := drain n ws (queue ++ freed)
    (name :: out, ws)

/-- A trail of names, each of which stands before the one that it leads to. -/
structure Trail where
  head : Option String := none
  links : List (String × String) := []

/-- The names on a trail up to one of them. -/
def along (links : List (String × String)) (last : String) : Nat → String → List String
  | 0, _ => []
  | n + 1, name =>
    if name == last then [name]
    else name :: ((links.lookup name).map (along links last n)).getD []

/-- Goes through names once and lengthens a trail; the circle if the trail closes, without the
precedence that closes it. -/
def followTrail (ws : WaitingList) : List Waiting → Trail →
    Trail × Option (List String × WaitingList)
  | [], t => (t, none)
  | w :: rest, t =>
    if w.count = 0 then ws.followTrail rest t
    else
      match t.head with
      | none => ws.followTrail rest { t with head := some w.name }
      | some head =>
        if !w.behind.contains head then ws.followTrail rest t
        else if (t.links.lookup w.name).isSome then
          let circle := along t.links w.name (t.links.length + 1) head
          let ws := (ws.change head fun x => { x with count := x.count - 1 }).change w.name
            fun x => { x with behind := x.behind.erase head }
          ({}, some (circle, ws))
        else ws.followTrail rest ⟨some w.name, (w.name, head) :: t.links⟩

/-- A circle of names and the list without one of its precedences. -/
def breakCircle (ws : WaitingList) : Nat → Trail → Option (List String × WaitingList)
  | 0, _ => none
  | n + 1, t =>
    match ws.followTrail ws t with
    | (_, some found) => some found
    | (t, none) => if t.head.isSome then ws.breakCircle n t else none

/-- Names in their order, in parts; a part that ends at a circle comes with that. -/
def order : Nat → WaitingList → List (List String × Option (List String))
  | 0, _ => []
  | n + 1, ws =>
    let free := (ws.filter fun w => w.count = 0 && !w.isDone).map Waiting.name
    let (out, ws) := drain (ws.length + 1) ws free
    if ws.all (·.isDone) then [(out, none)]
    else
      match ws.breakCircle (ws.length + 2) {} with
      | some (circle, ws) => (out, some circle) :: order n ws
      | none => [(out, none)]

end WaitingList

/-- Items taken two by two. -/
def inPairs {β : Type} : List β → List (β × β)
  | a :: b :: rest => (a, b) :: inPairs rest
  | _ => []

/-- `tsort`. -/
def orderByPrecedence : Utility :=
  withOptions "tsort" {} fun o => do
    if let some extra := o.operands[1]? then misuse "tsort" 1 ("extra operand " ++ cited extra)
    let input := o.operands.headD "-"
    match ← openInput input with
    | .error e => fail "tsort" 1 (shownName input ++ ": " ++ causeText e)
    | .ok c =>
      match ← (match c with
        | some c => readAll c
        | none => pure (.error .closed)) with
      | .error e => fail "tsort" 1 (shownName input ++ ": read error: " ++ e.message)
      | .ok s =>
        let isGap (c : Char) : Bool := c == ' ' || c == '\t' || c == '\n'
        let words := ((s.toList.splitBy fun a b => isGap a == isGap b).filter fun g =>
          !g.any isGap).map String.ofList
        if words.length % 2 = 1 then
          fail "tsort" 1 (shownName input ++ ": input contains an odd number of tokens")
        let pairs := inPairs words
        for (out, circle) in (WaitingList.ofPairs pairs).order (pairs.length + 2) do
          emit "tsort" (joinLines out)
          if let some names := circle then
            lament "tsort" (shownName input ++ ": input contains a loop:")
            for name in names do
              warn "tsort" name

end PatchSearch.Shell
