import PatchSearch.Shell.Regex.Reader
import PatchSearch.Shell.Utility.Streams

/-!
Laying out lines: `fold` cuts them at a width, `expand` and `unexpand` turn tabs into blanks and
blanks into tabs, and `nl` numbers them.
-/
namespace PatchSearch.Shell

open Run

/-- The column behind a character. -/
def nextColumn (octetwise : Bool) (column : Nat) (c : Char) : Nat :=
  if octetwise then column + 1
  else
    match c with
    | '\x08' => column - 1
    | '\r' => 0
    | '\t' => (column / 8 + 1) * 8
    | _ => column + 1

/-- What is folded so far of a line: finished lines and the characters of the next one, latest
first, and the column behind them. -/
structure Folding where
  done : List (List Char) := []
  line : List Char := []
  column : Nat := 0

namespace Folding

/-- Puts a character behind what is folded so far, which is cut if it becomes too wide. -/
def add (octetwise atBlanks : Bool) (width : Nat) : Nat → Folding → Char → Folding
  | 0, f, c => { f with line := c :: f.line }
  | n + 1, f, c =>
    let column := nextColumn octetwise f.column c
    if column ≤ width || f.line.isEmpty then { f with line := c :: f.line, column }
    else
      let isBlank (c : Char) : Bool := c == ' ' || c == '\t'
      if atBlanks && f.line.any isBlank then
        let moved := f.line.takeWhile (!isBlank ·)
        let kept := f.line.drop moved.length
        add octetwise atBlanks width n
          ⟨kept :: f.done, moved, moved.reverse.foldl (nextColumn octetwise) 0⟩ c
      else add octetwise atBlanks width n ⟨f.line :: f.done, [], 0⟩ c

/-- The lines in their order. -/
def lines (f : Folding) : List String :=
  ((f.line :: f.done).map fun l => String.ofList l.reverse).reverse

end Folding

/-- A line, with its line feed if it has one, cut into lines of at most some width. -/
def foldedLine (octetwise atBlanks : Bool) (width : Nat) (line : String) : String :=
  let (body, ending) := if line.endsWith "\n" then (line.toList.dropLast, "\n")
    else (line.toList, "")
  let start : Folding := {}
  let folded := body.foldl (Folding.add octetwise atBlanks width (body.length + 2)) start
  String.intercalate "\n" folded.lines ++ ending

/-- `fold`. -/
def wrapLines : Utility :=
  withOptions "fold"
    { plain := "sb", valued := "w", counting := some 'w'
      long := [("width", 'w'), ("spaces", 's'), ("bytes", 'b')] }
    fun o => do
      let width ← decimalWithin "fold" "invalid number of columns" 1 0x7ffffffffffffff6
        ((o.value? 'w').getD "80")
      onInputs "fold" 1 (fun _ s => emit "fold" (String.join
        ((fullLines s).map (foldedLine (o.has 'b') (o.has 's') width.toNat)))) (operandsOrInput o)

/-- Where tabs lead: the columns of the first stops, and the distance between those behind them,
counted from the last one or from the front of the line. -/
structure TabStops where
  columns : List Nat := []
  step : Option (Bool × Nat) := none

namespace TabStops

/-- The stops that a text lists behind earlier ones. -/
def read (stops : TabStops) (s : String) : Except String TabStops :=
  let items := (s.toList.splitOnP fun c => c == ',' || c == ' ' || c == '\t').filter
    (!·.isEmpty)
  items.foldlM (fun (stops : TabStops) item => do
    let (mark, digits) := match item with
      | '/' :: ds => (some true, ds)
      | '+' :: ds => (some false, ds)
      | ds => (none, ds)
    let number := digits.takeWhile Char.isDigit
    match digits.drop number.length with
    | '/' :: rest =>
      throw ("\x27/\x27 specifier not at start of number: " ++ cited (String.ofList ('/' :: rest)))
    | '+' :: rest =>
      throw ("\x27+\x27 specifier not at start of number: " ++ cited (String.ofList ('+' :: rest)))
    | [] => pure ()
    | rest =>
      throw ("tab size contains invalid character(s): " ++ cited (String.ofList rest))
    let n := number.foldl (fun n c => 10 * n + (c.toNat - 48)) 0
    if 0x10000000000000000 ≤ n then throw ("tab stop is too large " ++ cited (String.ofList number))
    match mark with
    | some ofFront =>
      if number.isEmpty then return stops
      match stops.step with
      | some (ofFront', _) =>
        if ofFront' == ofFront then
          throw ((if ofFront then "\x27/\x27" else "\x27+\x27") ++
            " specifier only allowed with the last value")
        else throw "\x27/\x27 specifier is mutually exclusive with \x27+\x27"
      | none => return { stops with step := some (ofFront, n) }
    | none =>
      match stops.step with
      | some (ofFront, _) =>
        throw ((if ofFront then "\x27/\x27" else "\x27+\x27") ++
          " specifier only allowed with the last value")
      | none => return { stops with columns := stops.columns ++ [n] }) stops

/-- What is wrong with stops, if anything. -/
def fault? (stops : TabStops) : Option String :=
  if stops.columns.contains 0 then some "tab size cannot be 0"
  else if (stops.columns.zip (stops.columns.drop 1)).any fun p => p.2 ≤ p.1 then
    some "tab sizes must be ascending"
  else none

/-- Stops as they are used: a single one is a distance. -/
def finished (stops : TabStops) : TabStops :=
  match stops.columns, stops.step with
  | [], none => { step := some (true, 8) }
  | [], some (_, n) => { step := some (true, if n = 0 then 8 else n) }
  | [n], none => { step := some (true, n) }
  | columns, step => { columns, step := step.filter (·.2 != 0) }

/-- The first stop behind a column; nothing behind the last one. -/
def next? (stops : TabStops) (column : Nat) : Option Nat :=
  match stops.columns.find? (column < ·) with
  | some n => some n
  | none =>
    stops.step.map fun (ofFront, n) =>
      let start := if ofFront then 0 else stops.columns.getLastD 0
      column + (n - (column - start) % n)

example : (TabStops.finished {}).next? 3 = some 8 := by decide

end TabStops

/-- A line with its tabs filled up to the next stops, only those in front of the first character
that is no blank if `leading`. -/
def withoutTabs (stops : TabStops) (leading : Bool) (line : String) : String :=
  let (_, _, done) := line.toList.foldl (fun (state : Nat × Bool × List Char) c =>
    let (column, converts, done) := state
    if !converts then (column, converts, c :: done)
    else if c == '\t' then
      let goal := (stops.next? column).getD (column + 1)
      (goal, true, List.replicate (goal - column) ' ' ++ done)
    else
      (if c == '\x08' then column - 1 else column + 1, !leading || c == ' ', c :: done))
    (0, true, [])
  String.ofList done.reverse

/-- Blanks on the way to becoming tabs: the column, the blanks that wait, whether the first of
them stands right before a stop, and whether a blank stands in front. -/
structure Tabbing where
  column : Nat := 0
  waiting : List Char := []
  atStop : Bool := false
  afterBlank : Bool := true
  converts : Bool := true
  done : List Char := []

namespace Tabbing

/-- Writes the blanks that wait in front of a character. -/
def settle (t : Tabbing) (c : Char) : Tabbing :=
  let waiting := if 1 < t.waiting.length && t.atStop then '\t' :: t.waiting.drop 1 else t.waiting
  { t with
    waiting := []
    atStop := if t.waiting.isEmpty then t.atStop else false
    done := c :: waiting.reverse ++ t.done }

/-- Goes on by a character. -/
def add (stops : TabStops) (leading : Bool) (t : Tabbing) (c : Char) : Tabbing :=
  if !t.converts then { t with done := c :: t.done }
  else
    let isBlank := c == ' ' || c == '\t'
    if !isBlank then
      let t := t.settle c
      { t with
        column := if c == '\x08' then t.column - 1 else t.column + 1
        afterBlank := false
        converts := !leading }
    else
      match stops.next? t.column with
      | none => { t.settle c with converts := false, afterBlank := true }
      | some goal =>
        if c == '\t' then
          let waiting := if t.waiting.isEmpty then [] else '\t' :: t.waiting.drop 1
          let t := { t with column := goal, waiting := waiting.take (if t.atStop then 1 else 0) }
          { t.settle c with afterBlank := true }
        else
          let column := t.column + 1
          if !(t.afterBlank && column == goal) then
            { t with
              column
              waiting := t.waiting ++ [c]
              atStop := t.atStop || column == goal
              afterBlank := true }
          else
            let waiting := ('\t' :: t.waiting.drop 1).take (if t.atStop then 1 else 0)
            { { t with column, waiting }.settle '\t' with afterBlank := true }

/-- The whole line. -/
def text (t : Tabbing) : String :=
  String.ofList (t.waiting.reverse ++ t.done).reverse

end Tabbing

/-- A line, with its line feed if it has one, whose blanks in front of tab stops are tabs. -/
def withTabs (stops : TabStops) (leading : Bool) (line : String) : String :=
  let start : Tabbing := {}
  (line.toList.foldl (Tabbing.add stops leading) start).text

/-- The stops that options list. A number behind a dash is a list as well. -/
def tabStopsOf (name : String) (o : Options) : Run TabStops := do
  let lists := o.flags.filter fun f => f.1 == 't' || f.1 == 'τ'
  let stops := (lists.map Prod.snd).foldlM TabStops.read {}
  match stops with
  | .error text => fail name 1 text
  | .ok stops =>
    match stops.fault? with
    | some text => fail name 1 text
    | none => return stops.finished

/-- Arguments in which a list of stops behind a dash has a letter. -/
def tabArguments (args : List String) : List String :=
  args.map fun a =>
    match a.toList with
    | '-' :: c :: cs => if c.isDigit then "-τ" ++ String.ofList (c :: cs) else a
    | _ => a

/-- `expand`. -/
def expandTabs : Utility := fun args =>
  withOptions "expand"
    { plain := "i", valued := "tτ", long := [("tabs", 't'), ("initial", 'i')] }
    (fun o => do
      let stops ← tabStopsOf "expand" o
      onInputs "expand" 1 (fun _ s => emit "expand" (String.join
        ((fullLines s).map (withoutTabs stops (o.has 'i'))))) (operandsOrInput o))
    true 1 (tabArguments args)

/-- `unexpand`. -/
def restoreTabs : Utility := fun args =>
  withOptions "unexpand"
    { plain := "aφ", valued := "tτ"
      long := [("all", 'a'), ("first-only", 'φ'), ("tabs", 't')] }
    (fun o => do
      let stops ← tabStopsOf "unexpand" o
      let leading := o.has 'φ' || !(o.has 'a' || o.has 't')
      onInputs "unexpand" 1 (fun _ s => emit "unexpand" (String.join
        ((fullLines s).map (withTabs stops leading)))) (operandsOrInput o))
    true 1 (tabArguments args)

/-- Which lines are numbered. -/
inductive NumberingStyle where
  | every
  | filled
  | never
  | matching (r : Regex)

/-- How lines are numbered, in each of the three sections of a page. -/
structure Numbering where
  header : NumberingStyle := .never
  body : NumberingStyle := .filled
  footer : NumberingStyle := .never
  marks : String := "\\:"
  start : Int := 1
  step : Int := 1
  blanks : Nat := 1
  separator : String := "\t"
  width : Nat := 6
  format : String := "rn"
  restarts : Bool := true

/-- Where numbering stands: the next number, how many blank lines lie behind, and the style. -/
structure NumberingState where
  next : Int
  blanks : Nat := 0
  style : NumberingStyle

namespace Numbering

/-- A number in its field. -/
def shown (k : Numbering) (n : Int) : String :=
  let s := toString n
  let fill := List.replicate (k.width - s.length)
  (match k.format with
    | "ln" => s ++ String.ofList (fill ' ')
    | "rz" => if n < 0 then "-" ++ String.ofList (fill '0') ++ toString n.natAbs
        else String.ofList (fill '0') ++ s
    | _ => String.ofList (fill ' ') ++ s) ++ k.separator

/-- The style of the section that a line begins, if it is such a line. -/
def section? (k : Numbering) (line : String) : Option NumberingStyle :=
  if k.marks.length < 2 then none
  else if line == k.marks ++ k.marks ++ k.marks then some k.header
  else if line == k.marks ++ k.marks then some k.body
  else if line == k.marks then some k.footer
  else none

/-- A line with its number, or with blanks in place of that. -/
def add (k : Numbering) (s : NumberingState) (line : String) : NumberingState × String :=
  let numbered (s : NumberingState) : NumberingState × String :=
    ({ s with next := s.next + k.step, blanks := 0 }, k.shown s.next ++ line)
  let blank (s : NumberingState) : NumberingState × String :=
    (s, String.ofList (List.replicate (k.width + k.separator.length) ' ') ++ line)
  match k.section? line with
  | some style =>
    ({ next := if k.restarts then k.start else s.next, blanks := s.blanks, style }, "")
  | none =>
    match s.style with
    | .every =>
      if k.blanks ≤ 1 || !line.isEmpty || k.blanks ≤ s.blanks + 1 then numbered s
      else blank { s with blanks := s.blanks + 1 }
    | .filled => if line.isEmpty then blank s else numbered s
    | .never => blank s
    | .matching r =>
      if r.isIn line then numbered s else blank s

end Numbering

/-- A style from its text. -/
def numberingStyle (what s : String) : Run NumberingStyle := do
  match s.toList with
  | ['a'] => return .every
  | ['t'] => return .filled
  | ['n'] => return .never
  | 'p' :: cs =>
    match Regex.read (RegexStyle.basic true) (String.ofList cs) with
    | .ok r => return .matching r
    | .error text => fail "nl" 1 text
  | _ => misuse "nl" 1 ("invalid " ++ what ++ " numbering style: " ++ cited s)

/-- `nl`. -/
def numberLines : Utility :=
  withOptions "nl"
    { plain := "p", valued := "bdfhilnsvw"
      long := [("body-numbering", 'b'), ("section-delimiter", 'd'), ("footer-numbering", 'f'),
        ("header-numbering", 'h'), ("line-increment", 'i'), ("join-blank-lines", 'l'),
        ("number-format", 'n'), ("no-renumber", 'p'), ("number-separator", 's'),
        ("starting-line-number", 'v'), ("number-width", 'w')] }
    fun o => do
      let mut k : Numbering := {}
      let most : Int := 0x7fffffffffffffff
      for (c, value) in o.flags do
        match c with
        | 'h' => k := { k with header := ← numberingStyle "header" value }
        | 'b' => k := { k with body := ← numberingStyle "body" value }
        | 'f' => k := { k with footer := ← numberingStyle "footer" value }
        | 'v' => k := { k with
            start := ← decimalWithin "nl" "invalid starting line number" (-most) most value }
        | 'i' => k := { k with
            step := ← decimalWithin "nl" "invalid line number increment" (-most) most value }
        | 'p' => k := { k with restarts := false }
        | 'l' => k := { k with
            blanks := (← decimalWithin "nl" "invalid line number of blank lines" 1 most
              value).toNat }
        | 's' => k := { k with separator := value }
        | 'w' => k := { k with
            width := (← decimalWithin "nl" "invalid line number field width" 1 2147483647
              value).toNat }
        | 'n' =>
          if ["ln", "rn", "rz"].contains value then k := { k with format := value }
          else misuse "nl" 1 ("invalid line numbering format: " ++ cited value)
        | 'd' => k := { k with marks := if value.length = 1 then value ++ ":" else value }
        | _ => pure ()
      let form := k
      let mut state : NumberingState := { next := form.start, style := form.body }
      for input in operandsOrInput o do
        match ← readInput input with
        | .error cause => lament "nl" (shownName input ++ ": " ++ cause)
        | .ok s =>
          let (last, lines) := (splitLines s).foldl
            (fun (state : NumberingState × List String) l =>
              let (next, text) := form.add state.1 l
              (next, text :: state.2)) (state, [])
          state := last
          emit "nl" (joinLines lines.reverse)

end PatchSearch.Shell
