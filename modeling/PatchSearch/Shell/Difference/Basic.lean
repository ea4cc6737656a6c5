import Std.Data.HashMap
import PatchSearch.Shell.Octets

/-!
The difference of two texts, line by line. A difference is a list of changes, each of them lines of
one text that go and lines of the other one that come in their place. Which lines count as equal is
decided by a rule, so that case or blanks may be left out of account; lines that count as equal
share the number of their class.
-/
namespace PatchSearch.Shell.Difference

/-- Which differences between lines do not count. -/
structure LineRule where
  foldsCase : Bool := false
  /-- Whether a tab counts as the blanks up to its stop. -/
  expandsTabs : Bool := false
  dropsTrailing : Bool := false
  /-- Whether blanks in a row count as one. -/
  squeezesBlanks : Bool := false
  dropsBlanks : Bool := false
  tabSize : Nat := 8

/-- A line with blanks in place of its tabs, from a column on. -/
def withoutTabs (tabSize : Nat) : Nat → List Char → List Char
  | _, [] => []
  | column, '\t' :: cs =>
    let gap := tabSize - column % tabSize
    List.replicate gap ' ' ++ withoutTabs tabSize (column + gap) cs
  | column, c :: cs => c :: withoutTabs tabSize (column + 1) cs

/-- A line without the blanks at its end. -/
def withoutTail (cs : List Char) : List Char :=
  (cs.reverse.dropWhile isSpace).reverse

/-- One blank in place of each run of them. -/
def squeezed : Bool → List Char → List Char
  | _, [] => []
  | inside, c :: cs =>
    if isSpace c then if inside then squeezed true cs else ' ' :: squeezed true cs
    else c :: squeezed false cs

namespace LineRule

/-- What has to be the same for two lines to count as equal. A line without an end differs from one
with an end, unless what stands at the end is left out of account. -/
def key (r : LineRule) (line : String) : String :=
  let isOpen := !line.endsWith "\n"
  let cs := line.toList.takeWhile (· != '\n')
  let cs := if r.foldsCase then cs.map Char.toLower else cs
  if r.dropsBlanks then String.ofList (cs.filter (!isSpace ·))
  else if r.squeezesBlanks then String.ofList (withoutTail (squeezed false cs))
  else
    let cs := if r.expandsTabs then withoutTabs r.tabSize 0 cs else cs
    if r.dropsTrailing then String.ofList (withoutTail cs)
    else String.ofList (if isOpen then cs else cs ++ ['\n'])

end LineRule

/-- Lines of one text that go and lines of the other that come: where they start, from zero on, and
how many they are. -/
structure Change where
  left : Nat
  right : Nat
  removed : Nat
  added : Nat
  deriving DecidableEq

namespace Change

/-- The places behind a change. -/
def leftEnd (c : Change) : Nat :=
  c.left + c.removed

def rightEnd (c : Change) : Nat :=
  c.right + c.added

end Change

/-- Two lists of lines by the numbers of their classes. -/
structure Sides where
  left : Array Nat
  right : Array Nat

/-- The numbers of the classes of some lines, given those met before. -/
def classesOf (r : LineRule) :
    List String → Std.HashMap String Nat → Array Nat → Array Nat × Std.HashMap String Nat
  | [], known, classes => (classes, known)
  | line :: lines, known, classes =>
    let key := r.key line
    match known[key]? with
    | some n => classesOf r lines known (classes.push n)
    | none => classesOf r lines (known.insert key known.size) (classes.push known.size)

/-- The classes of the lines of two texts. -/
def sidesOf (r : LineRule) (left right : List String) : Sides :=
  let (a, known) := classesOf r left ∅ #[]
  let (b, _) := classesOf r right known #[]
  ⟨a, b⟩

/-- How many items two lists have in common at their front. -/
def commonFront : List String → List String → Nat
  | a :: as, b :: bs => if a == b then commonFront as bs + 1 else 0
  | _, _ => 0

theorem commonFront_le_left : ∀ as bs : List String, commonFront as bs ≤ as.length
  | [], _ => by simp [commonFront]
  | _ :: _, [] => by simp [commonFront]
  | a :: as, b :: bs => by
    unfold commonFront
    split
    · exact Nat.succ_le_succ (commonFront_le_left as bs)
    · exact Nat.zero_le _

end PatchSearch.Shell.Difference
