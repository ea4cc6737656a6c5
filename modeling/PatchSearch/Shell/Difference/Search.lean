import PatchSearch.Shell.Difference.Basic

/-!
The search for a difference with few changes. Lines that have no partner are set aside first. Among
the rest the search goes out from both ends of two lists at once, one more change at a time, until
both ways meet; what lies before the meeting point and what lies behind it is searched in the same
way. In the end runs of changed lines are moved to where they can be joined with each other or stand
beside changes of the other text, and else as far down as they can go.
-/
namespace PatchSearch.Shell.Difference

namespace Sides

/-- Whether a line of the one list counts as equal to a line of the other. -/
def same (s : Sides) (x y : Nat) : Bool :=
  match s.left[x]?, s.right[y]? with
  | some a, some b => a == b
  | _, _ => false

end Sides

/-- A part of two lists: the places from one on up to another one, in both. -/
structure Area where
  left : Nat
  leftEnd : Nat
  right : Nat
  rightEnd : Nat

/-- How far a search has come on each diagonal between two bounds. A diagonal has the number of its
place in the left list minus the one in the right list. -/
structure Wave where
  /-- The diagonal of the first number. -/
  base : Int
  reached : Array Int
  low : Int
  high : Int

namespace Wave

def reach (w : Wave) (d : Int) : Int :=
  (w.reached[(d - w.base).toNat]?).getD 0

def set (w : Wave) (d x : Int) : Wave :=
  { w with reached := w.reached.set! (d - w.base).toNat x }

/-- A wave that stands at one place only. -/
def start (least most d x : Int) : Wave :=
  let base := least - 1
  ({ base, reached := Array.replicate (most - least + 3).toNat 0, low := d, high := d } : Wave).set
    d x

/-- A wave with a diagonal more on both sides, as far as there are any; nothing has come along
beside them yet. -/
def widened (w : Wave) (least most nothing : Int) : Wave :=
  let w := if least < w.low then { w.set (w.low - 2) nothing with low := w.low - 1 }
    else { w with low := w.low + 1 }
  if w.high < most then { w.set (w.high + 2) nothing with high := w.high + 1 }
  else { w with high := w.high - 1 }

end Wave

namespace Sides

/-- The place behind equal lines in front, from a place on. The number counts the lines left. -/
def slideDown (s : Sides) (a : Area) : Nat → Int → Int → Int
  | 0, x, _ => x
  | n + 1, x, y =>
    if x < a.leftEnd && y < a.rightEnd && 0 ≤ y && s.same x.toNat y.toNat then
      s.slideDown a n (x + 1) (y + 1)
    else x

/-- The place before equal lines at the end, up to a place. -/
def slideUp (s : Sides) (a : Area) : Nat → Int → Int → Int
  | 0, x, _ => x
  | n + 1, x, y =>
    if a.left < x && a.right < y && s.same (x - 1).toNat (y - 1).toNat then
      s.slideUp a n (x - 1) (y - 1)
    else x

/-- One change more on every second diagonal from the highest on down, from the front: the wave
goes on, or has met the other one. -/
def advance (s : Sides) (a : Area) (meets : Int → Int → Bool) :
    Nat → Int → Wave → Except (Nat × Nat) Wave
  | 0, _, w => .ok w
  | n + 1, d, w =>
    if d < w.low then .ok w
    else
      let (below, above) := (w.reach (d - 1), w.reach (d + 1))
      let start := if below < above then above else below + 1
      let x := s.slideDown a (a.leftEnd - a.left) start (start - d)
      if meets d x then .error (x.toNat, (x - d).toNat)
      else s.advance a meets n (d - 2) (w.set d x)

/-- The same from the end. -/
def retreat (s : Sides) (a : Area) (meets : Int → Int → Bool) :
    Nat → Int → Wave → Except (Nat × Nat) Wave
  | 0, _, w => .ok w
  | n + 1, d, w =>
    if d < w.low then .ok w
    else
      let (below, above) := (w.reach (d - 1), w.reach (d + 1))
      let start := if below < above then below else above - 1
      let x := s.slideUp a (a.leftEnd - a.left) start (start - d)
      if meets d x then .error (x.toNat, (x - d).toNat)
      else s.retreat a meets n (d - 2) (w.set d x)

/-- Sends two waves towards each other until they meet. The number bounds the changes. -/
def meetFrom (s : Sides) (a : Area) : Nat → Wave → Wave → Nat × Nat
  | 0, _, _ => (a.leftEnd, a.rightEnd)
  | n + 1, front, back =>
    let least : Int := (a.left : Int) - a.rightEnd
    let most : Int := (a.leftEnd : Int) - a.right
    let isOdd := ((a.left : Int) - a.right - (a.leftEnd - a.rightEnd)) % 2 != 0
    let size := (most - least + 3).toNat
    let front := front.widened least most (-1)
    match s.advance a (fun d x => isOdd && back.low ≤ d && d ≤ back.high && back.reach d ≤ x)
      size front.high front with
    | .error place => place
    | .ok front =>
      let back := back.widened least most (a.leftEnd + a.rightEnd + 2)
      match s.retreat a (fun d x => !isOdd && front.low ≤ d && d ≤ front.high && x ≤ front.reach d)
        size back.high back with
      | .error place => place
      | .ok back => s.meetFrom a n front back

/-- Where a difference of a part can be split into two. -/
def middle (s : Sides) (a : Area) : Nat × Nat :=
  let least : Int := (a.left : Int) - a.rightEnd
  let most : Int := (a.leftEnd : Int) - a.right
  s.meetFrom a (a.leftEnd + a.rightEnd + 1)
    (.start least most ((a.left : Int) - a.right) a.left)
    (.start least most ((a.leftEnd : Int) - a.rightEnd) a.leftEnd)

end Sides

/-- Which lines of two lists are changed. -/
structure Marks where
  left : Array Bool
  right : Array Bool

/-- Marks all places from one on up to another one. -/
def markFrom (marks : Array Bool) (start stop : Nat) : Array Bool :=
  (List.range' start (stop - start)).foldl (fun marks i => marks.set! i true) marks

/-- Marks the lines of a part that have no partner in a difference with few changes. The number
bounds the depth of the parts. -/
def Sides.search (s : Sides) : Nat → Area → Marks → Marks
  | 0, a, m => ⟨markFrom m.left a.left a.leftEnd, markFrom m.right a.right a.rightEnd⟩
  | n + 1, a, m =>
    let size := a.leftEnd - a.left
    let left := (s.slideDown a size a.left a.right).toNat
    let a := { a with left, right := a.right + (left - a.left) }
    let leftEnd := (s.slideUp a size a.leftEnd a.rightEnd).toNat
    let a := { a with leftEnd, rightEnd := a.rightEnd - (a.leftEnd - leftEnd) }
    if a.left = a.leftEnd then { m with right := markFrom m.right a.right a.rightEnd }
    else if a.right = a.rightEnd then { m with left := markFrom m.left a.left a.leftEnd }
    else
      let (x, y) := s.middle a
      s.search n { a with left := x, right := y }
        (s.search n { a with leftEnd := x, rightEnd := y } m)

/-- How likely a line is to have a partner: likely, with too many partners to choose from, or not
at all. -/
inductive Worth where
  | likely
  | doubtful
  | hopeless
  deriving DecidableEq

namespace Worth

/-- The worth of the lines of a list, given how often each class stands in the other one. A line is
doubtful if its class stands there more often than about the square root of the lines. -/
def ofClasses (classes : Array Nat) (counts : Std.HashMap Nat Nat) : List Worth :=
  let rec many : Nat → Nat → Nat → Nat
    | 0, _, n => n
    | fuel + 1, rest, n => if rest / 4 = 0 then n else many fuel (rest / 4) (n * 2)
  let most := many classes.size (classes.size / 64) 5
  classes.toList.map fun c =>
    let n := counts.getD c 0
    if n = 0 then .hopeless else if most < n then .doubtful else .likely

/-- Lines in a row with those that are doubtful taken back, up to the third hopeless one in a row or
a hopeless one far enough in. -/
def takenBack : Nat → Nat → List Worth → List Worth
  | _, _, [] => []
  | place, row, w :: ws =>
    if 8 ≤ place && w = .hopeless then w :: ws
    else
      match w with
      | .doubtful => .likely :: takenBack (place + 1) 0 ws
      | .likely => .likely :: takenBack (place + 1) 0 ws
      | .hopeless => if row = 2 then w :: ws else w :: takenBack (place + 1) (row + 1) ws

/-- The least number of doubtful lines in a row that are taken back in a run of a length: about the
square root of a quarter of it. -/
def rowLimit (length : Nat) : Nat :=
  let rec go : Nat → Nat → Nat → Nat
    | 0, _, n => n
    | fuel + 1, rest, n => if rest / 4 = 0 then n else go fuel (rest / 4) (n * 2)
  go length (length / 4) 1 + 1

/-- A run of lines without a likely one, whose ends are hopeless: where too much of it is doubtful,
doubtful lines are taken back. -/
def sortedOut (run : List Worth) : List Worth :=
  if run.length < run.count .doubtful * 4 then
    run.map fun w => if w = .doubtful then .likely else w
  else
    let limit := rowLimit run.length
    let rows := run.splitBy fun a b => a = b
    let run := rows.flatMap fun row =>
      if row.head? = some .doubtful && limit ≤ row.length then row.map fun _ => .likely else row
    (takenBack 0 0 (takenBack 0 0 run).reverse).reverse

/-- Doubtful lines count as likely at both ends of a run. -/
def settledRun (run : List Worth) : List Worth :=
  let front := run.takeWhile (· = .doubtful)
  let rest := run.drop front.length
  let back := rest.reverse.takeWhile (· = .doubtful)
  let middle := rest.take (rest.length - back.length)
  let plain (ws : List Worth) : List Worth := ws.map fun _ => .likely
  plain front ++ sortedOut middle ++ plain back

/-- Doubtful lines are set aside with the hopeless ones only inside of runs of them. -/
def settled (ws : List Worth) : List Worth :=
  (ws.splitBy fun a b => (a = .likely) == (b = .likely)).flatMap fun run =>
    if run.head? = some .likely then run else settledRun run

end Worth

/-- How often each class stands in a list. -/
def countsOf (classes : Array Nat) : Std.HashMap Nat Nat :=
  classes.foldl (fun counts c => counts.insert c (counts.getD c 0 + 1)) ∅

/-- The places of the lines of a list that are not set aside. -/
def keptPlaces (classes : Array Nat) (other : Array Nat) : Array Nat :=
  let worth := Worth.settled (Worth.ofClasses classes (countsOf other))
  ((worth.zipIdx).filterMap fun (w, i) => if w = .likely then some i else none).toArray

/-- Marks for a whole list: those of the kept places, and a mark on each of the others. -/
def spreadMarks (size : Nat) (kept : Array Nat) (marks : Array Bool) : Array Bool :=
  (kept.toList.zip marks.toList).foldl (fun all (i, isMarked) => all.set! i isMarked)
    (Array.replicate size true)

/-- The lines of two lists that are changed. All lines are searched if it is `thorough`. -/
def Sides.marks (s : Sides) (thorough : Bool) : Marks :=
  let whole (classes : Array Nat) : Array Nat := (List.range classes.size).toArray
  let left := if thorough then whole s.left else keptPlaces s.left s.right
  let right := if thorough then whole s.right else keptPlaces s.right s.left
  let kept : Sides := ⟨left.map fun i => s.left.getD i 0, right.map fun i => s.right.getD i 0⟩
  let m := kept.search (left.size + right.size + 1) ⟨0, left.size, 0, right.size⟩
    ⟨Array.replicate left.size false, Array.replicate right.size false⟩
  ⟨spreadMarks s.left.size left m.left, spreadMarks s.right.size right m.right⟩

/-- The first place without a mark from a place on. -/
def pastMarks (marks : Array Bool) : Nat → Nat → Nat
  | 0, i => i
  | n + 1, i => if marks.getD i false then pastMarks marks n (i + 1) else i

/-- The last place before a place whose line in front has no mark. -/
def beforeMarks (marks : Array Bool) : Nat → Nat
  | 0 => 0
  | i + 1 => if marks.getD i false then beforeMarks marks i else i + 1

/-- The last place without a mark before a place. -/
def openBefore (marks : Array Bool) : Nat → Nat
  | 0 => 0
  | i + 1 => if marks.getD i false then openBefore marks i else i

/-- A run of marked lines while it is moved: the marks, where it starts and ends, the place beside
its end in the other list, and the last end at which it stood beside marks there. -/
structure Moved where
  marks : Array Bool
  start : Nat
  stop : Nat
  beside : Nat
  partner : Option Nat

namespace Moved

/-- Moves a run up as long as the line before it is like its last one. It joins the runs that it
meets. -/
def up (classes : Array Nat) (other : Array Bool) : Nat → Moved → Moved
  | 0, m => m
  | n + 1, m =>
    if 0 < m.start && classes[m.start - 1]? == classes[m.stop - 1]? then
      let marks := (m.marks.set! (m.start - 1) true).set! (m.stop - 1) false
      up classes other n { m with
        marks
        start := beforeMarks marks (m.start - 1)
        stop := m.stop - 1
        beside := openBefore other m.beside }
    else m

/-- Moves a run down as long as the line behind it is like its first one. -/
def down (classes : Array Nat) (other : Array Bool) : Nat → Moved → Moved
  | 0, m => m
  | n + 1, m =>
    if m.stop < classes.size && classes[m.start]? == classes[m.stop]? then
      let marks := (m.marks.set! m.start false).set! m.stop true
      let stop := pastMarks marks classes.size (m.stop + 1)
      let beside := m.beside + 1
      let beside' := pastMarks other other.size beside
      down classes other n { m with
        marks, start := m.start + 1, stop, beside := beside'
        partner := if beside' = beside then m.partner else some stop }
    else m

/-- Moves a run up and down again until it does not grow any more. -/
def settle (classes : Array Nat) (other : Array Bool) : Nat → Moved → Moved
  | 0, m => m
  | n + 1, m =>
    let size := m.stop - m.start
    let m := up classes other classes.size m
    let m := { m with
      partner := if 0 < m.beside && other.getD (m.beside - 1) false then some m.stop else none }
    let m := down classes other classes.size m
    if m.stop - m.start = size then m else settle classes other n m

/-- Moves a run back up to where it stood beside marks of the other list, if there is such a
place. -/
def back (other : Array Bool) : Nat → Moved → Moved
  | 0, m => m
  | n + 1, m =>
    if m.partner.any (· < m.stop) then
      back other n { m with
        marks := (m.marks.set! (m.start - 1) true).set! (m.stop - 1) false
        start := m.start - 1
        stop := m.stop - 1
        beside := openBefore other m.beside }
    else m

end Moved

/-- Moves the runs of marks of a list from a place on, which is beside a place of the other one. -/
def moveRuns (classes : Array Nat) (other : Array Bool) :
    Nat → Nat → Nat → Array Bool → Array Bool
  | 0, _, _, marks => marks
  | n + 1, i, j, marks =>
    if classes.size ≤ i then marks
    else if marks.getD i false then
      let stop := pastMarks marks classes.size i
      let beside := pastMarks other other.size j
      let m := Moved.back other classes.size
        (Moved.settle classes other classes.size ⟨marks, i, stop, beside, none⟩)
      moveRuns classes other n m.stop m.beside m.marks
    else moveRuns classes other n (i + 1) (pastMarks other other.size j + 1) marks

/-- The changes that marks stand for, from two places on. -/
def changesFrom (m : Marks) : Nat → Nat → Nat → List Change
  | 0, _, _ => []
  | n + 1, i, j =>
    if m.left.size ≤ i && m.right.size ≤ j then []
    else
      let i' := pastMarks m.left m.left.size i
      let j' := pastMarks m.right m.right.size j
      if i' = i && j' = j then changesFrom m n (i + 1) (j + 1)
      else ⟨i, j, i' - i, j' - j⟩ :: changesFrom m n i' j'

/-- The changes that turn one list of lines into another one. Equal lines at both ends are not
searched, except for as many as the `margin` says. -/
def changesBetween (r : LineRule) (thorough : Bool) (margin : Nat) (left right : List String) :
    List Change :=
  let front := commonFront left right - margin
  let (as, bs) := (left.drop front, right.drop front)
  let tail := commonFront as.reverse bs.reverse - margin
  let s := sidesOf r (as.take (as.length - tail)) (bs.take (bs.length - tail))
  let m := s.marks thorough
  let size := s.left.size + s.right.size + 1
  let left := moveRuns s.left m.right size 0 0 m.left
  let right := moveRuns s.right left size 0 0 m.right
  (changesFrom ⟨left, right⟩ (2 * size) 0 0).map fun c =>
    { c with left := c.left + front, right := c.right + front }

end PatchSearch.Shell.Difference
