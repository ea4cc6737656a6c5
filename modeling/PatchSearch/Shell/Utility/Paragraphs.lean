import PatchSearch.Shell.Utility.Streams

/-!
Filling paragraphs: `fmt` breaks the words of a paragraph into lines of about one width. Each
break has a cost, which grows with the distance of its line from that width and is lower behind a
sentence, and the breaks are chosen whose costs are least together.
-/
namespace PatchSearch.Shell

open Run

/-- How paragraphs are filled. -/
structure ParagraphForm where
  most : Nat := 75
  goal : Nat := 70
  /-- Whether the second line gives the indentation of all later ones. -/
  crown : Bool := false
  /-- The same for paragraphs whose first line is indented differently. -/
  tagged : Bool := false
  /-- Whether long lines are split and short ones left alone. -/
  splits : Bool := false
  uniform : Bool := false
  /-- Blanks, a text and blanks again that paragraphs have in front of each line. -/
  lead : Nat := 0
  mark : List Char := []
  markLength : Nat := 0

/-- A word of a paragraph, the blanks behind it, and what its ends tell. -/
structure FilledWord where
  text : List Char
  space : Nat
  opens : Bool
  endsClause : Bool
  endsSentence : Bool
  isFinal : Bool

namespace FilledWord

def length (w : FilledWord) : Nat :=
  w.text.length

/-- A word with the blanks behind it, and whether its line ends there. -/
def ofText (text : List Char) (space : Nat) (atEnd atInputEnd uniform : Bool) : FilledWord :=
  let isClosing (c : Char) : Bool := ")]'\"".toList.contains c
  let last := text.getLastD ' '
  let tail := ((text.drop 1).reverse.dropWhile isClosing).headD (text.headD ' ')
  let endsSentence := ".?!".toList.contains tail
  let isFinal := atInputEnd || endsSentence && (atEnd || 1 < space)
  { text
    space := if atEnd || uniform then (if isFinal then 2 else 1) else space
    opens := "(['\x60\"".toList.contains (text.headD ' ')
    endsClause := 33 ≤ last.toNat && last.toNat < 127 && !last.isAlphanum
    endsSentence
    isFinal }

end FilledWord

/-- Where the reader of paragraphs stands: the text from there on, the column, how far the mark of
the line is indented, and whether a tab was met. -/
structure ParagraphReader where
  rest : List Char
  column : Nat := 0
  markIndent : Nat := 0
  tabs : Bool := false

namespace ParagraphReader

/-- Skips blanks. -/
def skipSpace (r : ParagraphReader) : ParagraphReader :=
  let blanks := r.rest.takeWhile fun c => c == ' ' || c == '\t'
  { r with
    rest := r.rest.drop blanks.length
    column := blanks.foldl (fun n c => if c == '\t' then (n / 8 + 1) * 8 else n + 1) r.column
    tabs := r.tabs || blanks.contains '\t' }

/-- Skips what stands in front of the first word of a line. -/
def skipFront (f : ParagraphForm) (r : ParagraphReader) : ParagraphReader :=
  let r := { r with column := 0 }.skipSpace
  if f.markLength = 0 then { r with markIndent := min f.lead r.column }
  else
    let r := { r with markIndent := r.column }
    let mark := f.mark.take f.markLength
    let common := ((mark.zip r.rest).takeWhile fun p => p.1 == p.2).length
    let r := { r with rest := r.rest.drop common, column := r.column + common }
    if common < mark.length then r else r.skipSpace

/-- Whether a line has no place in any paragraph. -/
def isApart (f : ParagraphForm) (r : ParagraphReader) : Bool :=
  r.rest.isEmpty || r.rest.head? == some '\n' || r.markIndent < f.lead ||
    r.column < r.markIndent + f.mark.length

/-- Whether a line goes on with a paragraph whose mark is indented so far. -/
def goesOn (f : ParagraphForm) (markIndent : Nat) (r : ParagraphReader) : Bool :=
  r.markIndent == markIndent && r.markIndent + f.mark.length ≤ r.column &&
    !r.rest.isEmpty && r.rest.head? != some '\n'

/-- The words of a line, and the reader in front of the first word of the next one. -/
def readWords (f : ParagraphForm) : Nat → ParagraphReader → List FilledWord × ParagraphReader
  | 0, r => ([], r)
  | n + 1, r =>
    match r.rest with
    | [] => ([], r.skipFront f)
    | c :: cs =>
      let text := c :: cs.takeWhile (!isSpace ·)
      let behind := { r with
        rest := r.rest.drop text.length
        column := r.column + text.length }
      let next := behind.skipSpace
      let atInputEnd := next.rest.isEmpty
      let atEnd := atInputEnd || next.rest.head? == some '\n'
      let word := FilledWord.ofText text (next.column - behind.column) atEnd atInputEnd f.uniform
      if atEnd then ([word], { next with rest := next.rest.drop 1 }.skipFront f)
      else
        let (words, last) := readWords f n next
        (word :: words, last)

/-- The words of more lines for as long as a condition holds. -/
def readLines (f : ParagraphForm) (more : ParagraphReader → Bool) :
    Nat → ParagraphReader → List FilledWord × ParagraphReader
  | 0, r => ([], r)
  | n + 1, r =>
    if !more r then ([], r)
    else
      let (words, r) := r.readWords f (r.rest.length + 1)
      let (rest, r) := readLines f more n r
      (words ++ rest, r)

end ParagraphReader

/-- A paragraph: its words and how far its mark and its lines are indented. -/
structure Paragraph where
  words : Array FilledWord
  markIndent : Nat
  firstIndent : Nat
  otherIndent : Nat

/-- Blanks behind a column, with tabs in place of some of them if there may be any. -/
def spaces (tabs : Bool) (column width : Nat) : String :=
  let goal := column + width
  let tabGoal := goal / 8 * 8
  if tabs && column + 1 < tabGoal then
    String.ofList (List.replicate ((tabGoal + 7 - column) / 8) '\t' ++
      List.replicate (goal - tabGoal) ' ')
  else String.ofList (List.replicate width ' ')

/-- The best way to go on from a word: what it costs, where the next line starts, and how long the
line is. -/
structure LineChoice where
  cost : Int
  next : Nat
  length : Int

namespace Paragraph

/-- What it costs to start a line with a word. -/
def startCost (p : Paragraph) (i : Nat) : Int :=
  let word (k : Nat) : Option FilledWord := if i < k then none else p.words[i - k]?
  let front : Int := match word 1 with
    | none => 0
    | some before =>
      if before.endsSentence then (if before.isFinal then -2500 else 360000)
      else if before.endsClause then -1600
      else if (word 2).any (·.isFinal) then 40000 / (before.length + 2)
      else 0
  let own : Int := match word 0 with
    | none => 0
    | some w => if w.opens then -1600 else if w.isFinal then 22500 / (w.length + 2) else 0
  4900 + front + own

/-- What it costs that a line of some length ends before a word, whose choice is known. -/
def breakCost (f : ParagraphForm) (last : Nat) (next : Nat) (choice : LineChoice) (length : Int) :
    Int :=
  let square (n : Int) : Int := (n * 10) * (n * 10)
  if next = last then 0
  else
    square (f.goal - length) +
      if choice.next = last then 0 else square (length - choice.length) / 2

/-- The best of the breaks behind a line that has some length up to a word. -/
def bestBreak (p : Paragraph) (f : ParagraphForm) :
    Nat → Int → Option LineChoice → List LineChoice → Option LineChoice
  | _, _, best, [] => best
  | next, length, best, choice :: choices =>
    let cost := breakCost f p.words.size next choice length + choice.cost
    let best := if best.all (cost < ·.cost) then some ⟨cost, next, length⟩ else best
    match p.words[next - 1]?, p.words[next]? with
    | some before, some w =>
      let length := length + before.space + w.length
      if length < f.most then p.bestBreak f (next + 1) length best choices else best
    | _, _ => best

/-- The best choices for all words from one on. -/
def choices (p : Paragraph) (f : ParagraphForm) : List LineChoice :=
  (List.range p.words.size).foldr (fun i (known : List LineChoice) =>
    let indent := if i = 0 then p.firstIndent else p.otherIndent
    let length : Int := indent + ((p.words[i]?).map FilledWord.length).getD 0
    match p.bestBreak f (i + 1) length none known with
    | some best => { best with cost := best.cost + p.startCost i } :: known
    | none => known) [⟨0, p.words.size, 0⟩]

/-- A line of the words between two places. -/
def line (p : Paragraph) (f : ParagraphForm) (tabs : Bool) (start next : Nat) : String :=
  let indent := if start = 0 then p.firstIndent else p.otherIndent
  let mark := String.ofList (f.mark.take f.markLength)
  let front := spaces tabs 0 p.markIndent ++ mark
  let column := p.markIndent + f.markLength
  let words := (p.words.toList.take next).drop start
  let (text, _) := words.zipIdx.foldl (fun (state : String × Nat) (w, i) =>
    let behind := state.2 + w.length
    let text := state.1 ++ String.ofList w.text
    if i + 1 = words.length then (text, behind)
    else (text ++ spaces tabs behind w.space, behind + w.space))
    (front ++ spaces tabs column (indent - column), max column indent)
  text ++ "\n"

/-- The lines of a paragraph from a word on. -/
def linesFrom (p : Paragraph) (f : ParagraphForm) (tabs : Bool) (choices : Array LineChoice) :
    Nat → Nat → List String
  | 0, _ => []
  | n + 1, start =>
    match choices[start]? with
    | some choice =>
      if choice.next ≤ start then []
      else p.line f tabs start choice.next :: p.linesFrom f tabs choices n choice.next
    | none => []

/-- The text of a paragraph. -/
def text (p : Paragraph) (f : ParagraphForm) (tabs : Bool) : String :=
  String.join (p.linesFrom f tabs (p.choices f).toArray (p.words.size + 1) 0)

end Paragraph

namespace ParagraphReader

/-- A line that has no place in any paragraph, and the reader at its end. -/
def copyRest (f : ParagraphForm) (r : ParagraphReader) : String × ParagraphReader :=
  let line := r.rest.takeWhile (· != '\n')
  let atEnd := r.rest.isEmpty
  let atLineEnd := atEnd || r.rest.head? == some '\n'
  let front :=
    if r.markIndent < r.column || !atLineEnd then
      let shown := (f.mark.take f.markLength).take (r.column - r.markIndent)
      let column := r.markIndent + shown.length
      spaces r.tabs 0 r.markIndent ++ String.ofList shown ++
        (if atLineEnd then "" else spaces r.tabs column (r.column - column)) ++
        if atEnd && r.markIndent + f.markLength ≤ r.column then "\n" else ""
    else ""
  (front ++ String.ofList line, { r with rest := r.rest.drop line.length })

/-- Fills all paragraphs of a text. The last indentation of later lines is kept for the next
paragraph. -/
def fillAll (f : ParagraphForm) : Nat → Nat → ParagraphReader → List String
  | 0, _, _ => []
  | n + 1, otherIndent, r =>
    if r.isApart f then
      let (text, r) := r.copyRest f
      if r.rest.isEmpty then [text]
      else text :: "\n" :: fillAll f n otherIndent ({ r with rest := r.rest.drop 1 }.skipFront f)
    else
      let markIndent := r.markIndent
      let first := r.column
      let (words, r) := r.readWords f (r.rest.length + 1)
      let same := r.goesOn f markIndent
      let other :=
        if f.splits then first
        else if f.crown then if same then r.column else first
        else if f.tagged then
          if same && r.column != first then r.column
          else if otherIndent == first then if first = 0 then 3 else 0
          else otherIndent
        else first
      let goesOnHere (r : ParagraphReader) : Bool :=
        r.goesOn f markIndent && r.column == other
      let (more, r) :=
        if f.splits || f.tagged && !f.crown && r.column == first then ([], r)
        else r.readLines f goesOnHere (r.rest.length + 1)
      let words := (words ++ more).toArray
      let words := words.modify (words.size - 1) fun w =>
        { w with endsSentence := true, isFinal := true }
      let p : Paragraph := ⟨words, markIndent, first, other⟩
      p.text f r.tabs :: fillAll f n other r

end ParagraphReader

/-- The form with a text in front of each line. -/
def ParagraphForm.withMark (f : ParagraphForm) (s : String) : ParagraphForm :=
  let lead := s.toList.takeWhile (· == ' ')
  let mark := s.toList.drop lead.length
  { f with
    lead := lead.length
    mark
    markLength := (mark.reverse.dropWhile (· == ' ')).length }

/-- `fmt`. -/
def fillParagraphs : Utility := fun args => do
  let (given, args) := match args with
    | a :: rest =>
      match a.toList with
      | '-' :: c :: cs =>
        if c.isDigit then (some (String.ofList (c :: cs)), rest) else (none, args)
      | _ => (none, args)
    | [] => (none, args)
  withOptions "fmt"
    { plain := "cstu0123456789", valued := "pwg"
      long := [("crown-margin", 'c'), ("prefix", 'p'), ("split-only", 's'),
        ("tagged-paragraph", 't'), ("uniform-spacing", 'u'), ("width", 'w'), ("goal", 'g')] }
    (fun o => do
      if let some (c, _) := o.flags.find? (·.1.isDigit) then
        misuse "fmt" 1 ("invalid option -- " ++ String.singleton c ++
          "; -WIDTH is recognized only when it is the first\noption; use -w N instead")
      let width := (o.value? 'w').or given
      let most ← match width with
        | some w => do pure (← decimalWithin "fmt" "invalid width" 0 2500 w).toNat
        | none => pure 75
      let (most, goal) ← match o.value? 'g' with
        | some g => do
          let goal := (← decimalWithin "fmt" "invalid width" 0 most g).toNat
          pure (if width.isNone then goal + 10 else most, goal)
        | none => pure (most, most * 187 / 200)
      let f : ParagraphForm :=
        { most, goal, crown := o.has 'c', tagged := o.has 't', splits := o.has 's'
          uniform := o.has 'u' }
      let f := f.withMark ((o.value? 'p').getD "")
      for input in operandsOrInput o do
        match ← openInput input with
        | .error e =>
          lament "fmt" ("cannot open " ++ inQuotes input ++ " for reading: " ++ causeText e)
        | .ok none => lament "fmt" "read error: Bad file descriptor"
        | .ok (some c) =>
          match ← readAll c with
          | .error _ => lament "fmt" "read error"
          | .ok s =>
            let start : ParagraphReader := { rest := s.toList }
            emit "fmt" (String.join
              ((start.skipFront f).fillAll f (s.length + 2) 0)))
    true 1 args

end PatchSearch.Shell
