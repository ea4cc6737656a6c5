import PatchSearch.Shell.Difference.Basic
import PatchSearch.Shell.Regex.Basic

/-!
Reports on a difference: the changes alone, with lines around them in one piece or in two, or as a
script that an editor can follow. A report is empty if no change is worth telling.
-/
namespace PatchSearch.Shell.Difference

/-- How the lines of a report look. -/
structure LineForm where
  expandsTabs : Bool := false
  /-- Whether a tab stands between the sign of a line and its text. -/
  leadsWithTab : Bool := false
  /-- Whether an empty line goes without a blank in front. -/
  baresEmpty : Bool := false
  tabSize : Nat := 8

namespace LineForm

/-- A line as it is shown, with its line feed if it has one. -/
def body (f : LineForm) (line : String) : String :=
  if f.expandsTabs then String.ofList (withoutTabs f.tabSize 0 line.toList) else line

/-- What stands behind a line without an end. -/
def missingEnd (line : String) : String :=
  if line.endsWith "\n" then "" else "\n\\ No newline at end of file\n"

/-- A line behind a sign and a gap. -/
def signed (f : LineForm) (sign line : String) : String :=
  let gap := if f.baresEmpty && line == "\n" then "" else if f.leadsWithTab then "\t" else " "
  sign ++ gap ++ f.body line ++ missingEnd line

/-- A line right behind a sign, as it stands in one piece with lines around it. -/
def joined (f : LineForm) (sign line : String) : String :=
  let isBare := f.baresEmpty && line == "\n"
  let front :=
    if sign == " " then if isBare then "" else if f.leadsWithTab then "\t" else " "
    else if f.leadsWithTab && !isBare then sign ++ "\t" else sign
  front ++ f.body line ++ missingEnd line

end LineForm

/-- Two texts, what has to change, and which lines are not worth a change. -/
structure Comparison where
  left : Array String
  right : Array String
  changes : List Change
  form : LineForm := {}
  /-- Whether a line may be left out of account if only such lines change. -/
  trivial : Option (String → Bool) := none

/-- Changes that are told together: where they start and end in both texts, and whether lines go or
come. -/
structure Hunk where
  left : Nat
  leftEnd : Nat
  right : Nat
  rightEnd : Nat
  changes : List Change

namespace Hunk

def ofChanges (changes : List Change) : Hunk :=
  match changes.head?, changes.getLast? with
  | some first, some last => ⟨first.left, last.leftEnd, first.right, last.rightEnd, changes⟩
  | _, _ => ⟨0, 0, 0, 0, []⟩

def removes (h : Hunk) : Bool :=
  h.changes.any fun c => c.removed != 0

def adds (h : Hunk) : Bool :=
  h.changes.any fun c => c.added != 0

/-- The letter of a change: lines are added, changed or deleted. -/
def letter (h : Hunk) : String :=
  if !h.adds then "d" else if h.removes then "c" else "a"

end Hunk

/-- Some lines of a text. -/
def linesAt (lines : Array String) (start stop : Nat) : List String :=
  (lines.extract start stop).toList

/-- The numbers of the lines from a place to another one, or of the line before an empty part. -/
def rangeText (separator : String) (start stop : Nat) : String :=
  if start + 1 < stop then toString (start + 1) ++ separator ++ toString stop else toString stop

namespace Comparison

/-- Whether a hunk is worth telling. -/
def isTold (c : Comparison) (h : Hunk) : Bool :=
  match c.trivial with
  | none => true
  | some test => !(h.changes.all fun d =>
      (linesAt c.left d.left d.leftEnd).all test && (linesAt c.right d.right d.rightEnd).all test)

/-- Each change by itself. -/
def hunks (c : Comparison) : List Hunk :=
  (c.changes.map fun d => Hunk.ofChanges [d]).filter c.isTold

/-- Changes joined where few lines lie between them. A change that is not worth telling is joined
with another one only over half of that distance. -/
def joinedChanges (c : Comparison) (context : Nat) : List Change → List (List Change)
  | [] => []
  | d :: ds =>
    match joinedChanges c context ds with
    | (e :: es) :: rest =>
      let isMinor := !c.isTold (.ofChanges [d]) || !c.isTold (.ofChanges [e])
      let limit := if isMinor then context else 2 * context + 1
      if e.left - d.leftEnd < limit then (d :: e :: es) :: rest else [d] :: (e :: es) :: rest
    | rest => [d] :: rest

/-- The hunks with lines around them. -/
def widerHunks (c : Comparison) (context : Nat) : List Hunk :=
  ((c.joinedChanges context c.changes).map Hunk.ofChanges).filterMap fun h =>
    if c.isTold h then
      some { h with
        left := h.left - context
        right := h.right - context
        leftEnd := min (h.leftEnd + context) c.left.size
        rightEnd := min (h.rightEnd + context) c.right.size }
    else none

/-- The changes by themselves. -/
def normal (c : Comparison) : String :=
  String.join <| c.hunks.map fun h =>
    rangeText "," h.left h.leftEnd ++ h.letter ++ rangeText "," h.right h.rightEnd ++ "\n" ++
      String.join ((linesAt c.left h.left h.leftEnd).map (c.form.signed "<")) ++
      (if h.removes && h.adds then "---\n" else "") ++
      String.join ((linesAt c.right h.right h.rightEnd).map (c.form.signed ">"))

/-- The lines of an insertion in an editor. A line with a mere dot, which would end it, is written
with two dots and shortened afterwards. -/
def insertion (c : Comparison) : Bool → List String → String
  | inside, [] => if inside then ".\n" else ""
  | inside, line :: lines =>
    (if inside then "" else "a\n") ++
      if line == ".\n" then "..\n.\ns/.//\n" ++ c.insertion false lines
      else c.form.body line ++ c.insertion true lines

/-- A script for an editor, from the end of the text to its front. -/
def script (c : Comparison) : String :=
  String.join <| c.hunks.reverse.map fun h =>
    rangeText "," h.left h.leftEnd ++ h.letter ++ "\n" ++
      if h.adds then c.insertion true (linesAt c.right h.right h.rightEnd) else ""

/-- The same from the front, with the letters first. -/
def forwardScript (c : Comparison) : String :=
  String.join <| c.hunks.map fun h =>
    h.letter ++ rangeText " " h.left h.leftEnd ++ "\n" ++
      if h.adds then
        String.join ((linesAt c.right h.right h.rightEnd).map c.form.body) ++ ".\n"
      else ""

/-- A script that tells how many lines go and come. -/
def countedScript (c : Comparison) : String :=
  String.join <| c.hunks.map fun h =>
    let (m, n) := (h.leftEnd - h.left, h.rightEnd - h.right)
    (if m = 0 then "" else "d" ++ toString (h.left + 1) ++ " " ++ toString m ++ "\n") ++
      if n = 0 then ""
      else "a" ++ toString h.leftEnd ++ " " ++ toString n ++ "\n" ++
        String.join ((linesAt c.right h.right h.rightEnd).map c.form.body)

/-- The last line before a place that a pattern is found in, as it stands behind a hunk's
heading. -/
def headingLine (c : Comparison) (pattern : Option Regex) (place : Nat) : String :=
  match pattern with
  | none => ""
  | some r =>
    let fits (l : String) : Bool := r.isIn (spell (String.ofList (l.toList.takeWhile (· != '\n'))))
    match (linesAt c.left 0 place).reverse.find? fits with
    | none => ""
    | some l =>
      let cs := (l.toList.dropWhile fun ch => isSpace ch && ch != '\n').takeWhile (· != '\n')
      " " ++ String.ofList (withoutTail (cs.take 40))

/-- Where a hunk in one piece starts, and how many lines it has. -/
def unifiedRange (start stop : Nat) : String :=
  if stop = start then toString stop ++ ",0"
  else if stop = start + 1 then toString stop
  else toString (start + 1) ++ "," ++ toString (stop - start)

/-- The lines of a hunk in one piece, from a place of the left text on. -/
def unifiedLines (c : Comparison) (stop : Nat) : Nat → List Change → String
  | place, [] => String.join ((linesAt c.left place stop).map (c.form.joined " "))
  | place, d :: ds =>
    String.join ((linesAt c.left place d.left).map (c.form.joined " ")) ++
      String.join ((linesAt c.left d.left d.leftEnd).map (c.form.joined "-")) ++
      String.join ((linesAt c.right d.right d.rightEnd).map (c.form.joined "+")) ++
      c.unifiedLines stop d.leftEnd ds

/-- Hunks in one piece. -/
def unified (c : Comparison) (context : Nat) (pattern : Option Regex) : String :=
  String.join <| (c.widerHunks context).map fun h =>
    "@@ -" ++ unifiedRange h.left h.leftEnd ++ " +" ++ unifiedRange h.right h.rightEnd ++ " @@" ++
      c.headingLine pattern h.left ++ "\n" ++ c.unifiedLines h.leftEnd h.left h.changes

/-- The lines of one text in a hunk, with a sign on those that change. -/
def contextLines (c : Comparison) (lines : Array String) (start stop : Nat)
    (parts : List (Nat × Nat × String)) : String :=
  String.join <| (List.range' start (stop - start)).map fun i =>
    let sign := ((parts.find? fun p => p.1 ≤ i && i < p.2.1).map fun p => p.2.2).getD " "
    c.form.signed sign (lines.getD i "")

/-- Hunks in two pieces. -/
def contextual (c : Comparison) (context : Nat) (pattern : Option Regex) : String :=
  String.join <| (c.widerHunks context).map fun h =>
    "***************" ++ c.headingLine pattern h.left ++ "\n*** " ++
      rangeText "," h.left h.leftEnd ++ " ****\n" ++
      (if h.removes then
        c.contextLines c.left h.left h.leftEnd
          (h.changes.map fun d => (d.left, d.leftEnd, if d.added = 0 then "-" else "!"))
      else "") ++
      "--- " ++ rangeText "," h.right h.rightEnd ++ " ----\n" ++
      if h.adds then
        c.contextLines c.right h.right h.rightEnd
          (h.changes.map fun d => (d.right, d.rightEnd, if d.removed = 0 then "+" else "!"))
      else ""

end Comparison

/-!
Two texts beside each other. Each of them has half of the width; between them a sign tells what
happens to the line. Where tabs are kept, the second half starts at a tab stop.
-/

/-- The measures of a report in two columns. -/
structure ColumnForm where
  width : Nat := 130
  tabSize : Nat := 8
  expandsTabs : Bool := false
  /-- Whether lines that both texts have stand on the left only, or nowhere. -/
  leftOnly : Bool := false
  changesOnly : Bool := false

namespace ColumnForm

/-- Where the second half would start. -/
def middle (f : ColumnForm) : Nat :=
  let t := if f.expandsTabs then 1 else f.tabSize
  let tg := t + 3
  let odd := if f.width % 2 = 1 && tg % 2 = 1 then 1 else 0
  let place := f.width / 2 + tg / 2 + odd
  place - place % t

/-- The width of a half. -/
def half (f : ColumnForm) : Nat :=
  min (f.middle - 3) (f.width - f.middle)

/-- Where the second half starts. -/
def second (f : ColumnForm) : Nat :=
  if f.half = 0 then f.width else f.middle

/-- The way from one column to a later one, in tabs as far as they reach. -/
def gap (f : ColumnForm) (start stop : Nat) : String :=
  let blanks (n : Nat) : String := String.ofList (List.replicate n ' ')
  if f.expandsTabs then blanks (stop - start)
  else
    let tabs := stop / f.tabSize - start / f.tabSize
    String.ofList (List.replicate tabs '\t') ++
      blanks (stop - if tabs = 0 then start else stop / f.tabSize * f.tabSize)

/-- What a line shows of itself in a half that starts at a column: the column that its characters
are at, the one that was written up to, and what was written, last character first. -/
def cutFrom (f : ColumnForm) (indent : Nat) : Nat → Nat → List Char → List Char → List Char × Nat
  | _, shown, [], written => (written, shown)
  | column, shown, c :: cs, written =>
    if c == '\n' then (written, shown)
    else if c == '\t' then
      let stop := column + (f.tabSize - column % f.tabSize)
      if column != shown then f.cutFrom indent stop shown cs written
      else if f.expandsTabs then
        let goal := min stop f.half
        f.cutFrom indent stop goal cs (List.replicate (goal - shown) ' ' ++ written)
      else if stop < f.half then f.cutFrom indent stop stop cs ('\t' :: written)
      else f.cutFrom indent stop shown cs written
    else if c == '\x0d' then
      f.cutFrom indent 0 0 cs ((f.gap 0 indent).toList.reverse ++ '\x0d' :: written)
    else if c == '\x08' then
      if column = 0 then f.cutFrom indent column shown cs written
      else if f.half ≤ column - 1 then f.cutFrom indent (column - 1) shown cs written
      else if shown ≤ column - 1 then
        f.cutFrom indent (column - 1) (column - 1) cs
          (List.replicate (column - 1 - shown) ' ' ++ written)
      else f.cutFrom indent (column - 1) (column - 1) cs ('\x08' :: written)
    else if c.toNat < 32 || c.toNat = 127 then
      f.cutFrom indent column shown cs (if column < f.half then c :: written else written)
    else if column < f.half then f.cutFrom indent (column + 1) (column + 1) cs (c :: written)
    else f.cutFrom indent (column + 1) shown cs written

/-- What a line shows of itself in a half that starts at a column, and the column that it ends
at. -/
def cut (f : ColumnForm) (indent : Nat) (line : String) : String × Nat :=
  let (written, shown) := f.cutFrom indent 0 0 (spell line).toList []
  (unspell (String.ofList written.reverse), shown)

/-- A line of the report. The sign for a change tells if one of both lines has no end. -/
def row (f : ColumnForm) (left : Option String) (sign : Char) (right : Option String) : String :=
  let ended (l : Option String) : Bool := l.any (·.endsWith "\n")
  let (front, column) := match left with
    | some l => f.cut 0 l
    | none => ("", 0)
  let sign := if sign == '|' && ended left != ended right then
      if ended left then '/' else '\\'
    else sign
  let place := (f.half + f.second - 1) / 2
  let (middle, column) :=
    if sign == ' ' then ("", column)
    else (f.gap column place ++ String.singleton sign, place + 1)
  let back := match right with
    | some "\n" => ""
    | some r => f.gap column f.second ++ (f.cut f.second r).1
    | none => ""
  front ++ middle ++ back ++ if ended left || ended right then "\n" else ""

/-- Rows for lines that stand in both texts, up to a change. -/
def commonRows (f : ColumnForm) : List String → List String → String
  | l :: ls, r :: rs =>
    (if f.leftOnly then f.row (some l) '(' none else f.row (some l) ' ' (some r)) ++
      f.commonRows ls rs
  | [], rs => if f.leftOnly then "" else String.join (rs.map fun r => f.row none ')' (some r))
  | ls, [] => String.join (ls.map fun l => f.row (some l) '(' none)

/-- Rows for a change. -/
def changedRows (f : ColumnForm) : List String → List String → String
  | l :: ls, r :: rs => f.row (some l) '|' (some r) ++ f.changedRows ls rs
  | [], rs => String.join (rs.map fun r => f.row none '>' (some r))
  | ls, [] => String.join (ls.map fun l => f.row (some l) '<' none)

end ColumnForm

namespace Comparison

/-- Both texts beside each other, from a place in each on. -/
def columnsFrom (c : Comparison) (f : ColumnForm) : Nat → Nat → List Hunk → String
  | i, j, hunks =>
    let common (left right : Nat) : String :=
      if f.changesOnly then ""
      else f.commonRows (linesAt c.left i left) (linesAt c.right j right)
    match hunks with
    | [] => common c.left.size c.right.size
    | h :: rest =>
      common h.left h.right ++
        f.changedRows (linesAt c.left h.left h.leftEnd) (linesAt c.right h.right h.rightEnd) ++
        c.columnsFrom f h.leftEnd h.rightEnd rest

def columns (c : Comparison) (f : ColumnForm) : String :=
  c.columnsFrom f 0 0 c.hunks

end Comparison

end PatchSearch.Shell.Difference
