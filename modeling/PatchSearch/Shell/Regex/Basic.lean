import PatchSearch.Shell.Pattern

/-!
Regular expressions and their matches. The ways in which an expression matches from a place are
listed in the order of preference: an earlier alternative before a later one, and more repetitions
before fewer unless it says otherwise. Of all ways the longest counts, and of several long ones
the first; an expression that is settled has its first way only. An expression may ask for the
text of an earlier group again, for the edge of a word, and for what stands before or behind.
-/
namespace PatchSearch.Shell

/-- Places between characters. -/
inductive Edge where
  | start
  | finish
  /-- The start or the end of the text, or of any line in it. -/
  | lineStart (ofAny : Bool)
  | lineEnd (ofAny : Bool)
  | wordStart
  | wordEnd
  | word
  | noWord
  deriving DecidableEq, Repr

inductive Regex where
  | nothing
  | one (k : CharClass)
  | edge (e : Edge)
  | both (a b : Regex)
  | either (a b : Regex)
  /-- Repetitions, as many as possible first unless they are `sparing`. -/
  | repeated (r : Regex) (least : Nat) (most : Option Nat) (sparing : Bool)
  | group (number : Nat) (r : Regex)
  /-- The text of a group once more. -/
  | again (number : Nat)
  /-- Whether something follows, or stands in front. -/
  | ahead (holds : Bool) (r : Regex)
  | behind (holds : Bool) (r : Regex)
  /-- The first way to match, without any other. -/
  | settled (r : Regex)
  /-- The match starts anew. -/
  | restart
  deriving Repr

namespace Regex

/-- A place in a text: how many characters come before it, these characters with the nearest one
first, the rest, the groups matched so far, and where the match has started anew. -/
structure Place where
  position : Nat
  before : List Char
  rest : List Char
  groups : List (Nat × List Char) := []
  restart : Option Nat := none

/-- The place in front of a text. -/
def lineFront (cs : List Char) : Place :=
  { position := 0, before := [], rest := cs }

namespace Place

/-- The place behind the next character. -/
def next? (p : Place) : Option (Char × Place) :=
  match p.rest with
  | [] => none
  | c :: cs => some (c, { p with position := p.position + 1, before := c :: p.before, rest := cs })

/-- The places up to a place from the start on, the nearest one first. -/
def earlier (p : Place) : List Place :=
  let rec go : List Char → List Char → Nat → List Place
    | [], _, _ => []
    | c :: before, rest, n =>
      { p with position := n - 1, before, rest := c :: rest } :: go before (c :: rest) (n - 1)
  p :: go p.before p.rest p.position

end Place

/-- Whether a character is part of a word. -/
def isWordChar (c : Char) : Bool :=
  c.isAlphanum || c == '_' || 0xC0 ≤ c.toNat && !isStray c

/-- Whether a place is an edge of some kind. -/
def isEdge (p : Place) (e : Edge) : Bool :=
  let inside := p.before.head?.any isWordChar
  let goesOn := p.rest.head?.any isWordChar
  match e with
  | .start => p.before.isEmpty
  | .finish => p.rest.isEmpty
  | .lineStart ofAny => p.before.isEmpty || ofAny && p.before.head? == some '\n'
  | .lineEnd ofAny => p.rest.isEmpty || ofAny && p.rest.head? == some '\n'
  | .wordStart => !inside && goesOn
  | .wordEnd => inside && !goesOn
  | .word => inside != goesOn
  | .noWord => inside == goesOn

/-- How many groups an expression has. -/
def groupCount : Regex → Nat
  | .both a b => a.groupCount + b.groupCount
  | .either a b => a.groupCount + b.groupCount
  | .repeated r _ _ _ => r.groupCount
  | .group _ r => r.groupCount + 1
  | .ahead _ r => r.groupCount
  | .behind _ r => r.groupCount
  | .settled r => r.groupCount
  | _ => 0

/-- Whether an expression asks for the text of a group. -/
def asksAgain : Regex → Bool
  | .again _ => true
  | .both a b => a.asksAgain || b.asksAgain
  | .either a b => a.asksAgain || b.asksAgain
  | .repeated r _ _ _ => r.asksAgain
  | .group _ r => r.asksAgain
  | .ahead _ r => r.asksAgain
  | .behind _ r => r.asksAgain
  | .settled r => r.asksAgain
  | _ => false

/-- Changes the parts of an expression that have none themselves. -/
def mapLeaves (f : Regex → Regex) : Regex → Regex
  | .both a b => .both (a.mapLeaves f) (b.mapLeaves f)
  | .either a b => .either (a.mapLeaves f) (b.mapLeaves f)
  | .repeated r least most sparing => .repeated (r.mapLeaves f) least most sparing
  | .group n r => .group n (r.mapLeaves f)
  | .ahead holds r => .ahead holds (r.mapLeaves f)
  | .behind holds r => .behind holds (r.mapLeaves f)
  | .settled r => .settled (r.mapLeaves f)
  | r => f r

/-- A class with both cases of its letters. -/
def foldClass (k : CharClass) : CharClass :=
  let meet (r : Char × Char) (low high : Char) : Option (Char × Char) :=
    let a := if r.1 < low then low else r.1
    let b := if high < r.2 then high else r.2
    if a ≤ b then some (a, b) else none
  let lower := k.ranges.filterMap fun r =>
    (meet r 'A' 'Z').map fun s => (s.1.toLower, s.2.toLower)
  let upper := k.ranges.filterMap fun r =>
    (meet r 'a' 'z').map fun s => (s.1.toUpper, s.2.toUpper)
  ⟨k.negated, k.ranges ++ lower ++ upper⟩

/-- Letters stand for both of their cases. -/
def foldCase : Regex → Regex :=
  mapLeaves fun
    | .one k => .one (foldClass k)
    | r => r

/-- The start and the end of any line count as those of the text. -/
def withLines : Regex → Regex :=
  mapLeaves fun
    | .edge (.lineStart _) => .edge (.lineStart true)
    | .edge (.lineEnd _) => .edge (.lineEnd true)
    | r => r

/-- The place behind some characters that come next, if they do. -/
def afterChars : List Char → Place → Option Place
  | [], p => some p
  | d :: ds, p =>
    match p.next? with
    | some (c, q) => if c == d then afterChars ds q else none
    | none => none

/-- Whether what follows two places is the same; `careful` also compares their groups. -/
def sameWay (careful : Bool) (p q : Place) : Bool :=
  p.position == q.position && (!careful || p.groups == q.groups)

/-- Places without those that go on as an earlier one does. -/
def distinct (careful : Bool) : List Place → List Place
  | [] => []
  | [p] => [p]
  | ps => (ps.foldl (fun found p =>
      if found.any (sameWay careful p) then found else p :: found) []).reverse

/-- The places behind the next characters of a class, at most so many. -/
def along (k : CharClass) : Nat → Place → List Place
  | 0, p => [p]
  | n + 1, p =>
    match p.next? with
    | some (c, q) => if k.contains c then p :: along k n q else [p]
    | none => [p]

/-- How repetitions are looked for. -/
structure Repetition where
  careful : Bool
  sparing : Bool
  /-- Whether their number matters. -/
  counted : Bool

/-- The places that up to so many further repetitions of a step lead to, and what was gone on
from: with how many left if that matters. A repetition of nothing does not count. -/
def repeatFrom (how : Repetition) (step : Place → List Place) :
    Nat → List (Nat × Place) → Place → List Place × List (Nat × Place)
  | 0, seen, p => ([p], seen)
  | n + 1, seen, p =>
    let key := if how.counted then n else 0
    if seen.any fun s => s.1 == key && sameWay how.careful s.2 p then ([], seen)
    else
      let (further, seen) := (step p).foldl (fun (state : List Place × List (Nat × Place)) q =>
        if q.position ≤ p.position then state
        else
          let (more, seen) := repeatFrom how step n state.2 q
          (state.1 ++ more, seen)) ([], (key, p) :: seen)
      (if how.sparing then p :: further else further ++ [p], seen)

/-- The places that exactly so many repetitions lead to. -/
def repeatExactly (careful : Bool) (step : Place → List Place) : Nat → List Place → List Place
  | 0, found => found
  | n + 1, found => repeatExactly careful step n (distinct careful (found.flatMap step))

/-- The places that a match from a place can end in, in the order of preference. -/
def ends (careful : Bool) : Regex → Place → List Place
  | .nothing, p => [p]
  | .one k, p =>
    match p.next? with
    | some (c, q) => if k.contains c then [q] else []
    | none => []
  | .edge e, p => if isEdge p e then [p] else []
  | .again n, p => ((p.groups.lookup n).bind fun cs => afterChars cs p).toList
  | .both a b, p => distinct careful ((a.ends careful p).flatMap (b.ends careful))
  | .either a b, p => distinct careful (a.ends careful p ++ b.ends careful p)
  | .repeated (.one k) least most sparing, p =>
    let found := (along k (most.getD p.rest.length) p).drop least
    if sparing then found else found.reverse
  | .repeated r least most sparing, p =>
    let first := repeatExactly careful (r.ends careful) least [p]
    let how : Repetition := ⟨careful, sparing, most.isSome⟩
    let more := match most with
      | some most => most - least
      | none => p.rest.length + 1
    distinct careful (first.flatMap fun q => (repeatFrom how (r.ends careful) more [] q).1)
  | .group n r, p =>
    (r.ends careful p).map fun q =>
      { q with groups :=
          (n, p.rest.take (q.position - p.position)) :: q.groups.filter (·.1 != n) }
  | .ahead holds r, p =>
    match r.ends careful p with
    | q :: _ => if holds then [{ p with groups := q.groups }] else []
    | [] => if holds then [] else [p]
  | .behind holds r, p =>
    let found := p.earlier.any fun q => (r.ends careful q).any (·.position == p.position)
    if found == holds then [p] else []
  | .settled r, p => (r.ends careful p).take 1
  | .restart, p => [{ p with restart := some p.position }]

/-- The longest match from a place. -/
def longestFrom (r : Regex) (p : Place) : Option Place :=
  (r.ends r.asksAgain p).foldl (fun best q =>
    match best with
    | none => some q
    | some b => if b.position < q.position then some q else some b) none

/-- The first match from a place on: where it starts, and its end. The number bounds the places. -/
def findFrom (r : Regex) : Nat → Place → Option (Nat × Place)
  | 0, _ => none
  | n + 1, p =>
    match r.longestFrom p with
    | some q => some (q.restart.getD p.position, q)
    | none => p.next?.bind fun (_, q) => findFrom r n q

/-- The first match in a text. -/
def findIn (r : Regex) (cs : List Char) : Option (Nat × Place) :=
  r.findFrom (cs.length + 1) (lineFront cs)

/-- Whether a text holds a match. -/
def isIn (r : Regex) (line : String) : Bool :=
  (r.findIn line.toList).isSome

/-- A regular expression that matches a text letter by letter. -/
def literal (s : String) : Regex :=
  s.toList.foldr (fun c r => .both (.one ⟨false, [(c, c)]⟩) r) .nothing

/-- All matches from a place on that do not overlap, each with its start and end. An empty match
right behind another one does not count. The number bounds the places. -/
def allMatches (r : Regex) : Nat → Option Nat → Place → List (Nat × Place)
  | 0, _, _ => []
  | n + 1, last, p =>
    match r.findFrom (p.rest.length + 1) p with
    | none => []
    | some (start, q) =>
      let isEmpty := q.position = start
      let here : List (Nat × Place) := if isEmpty && last == some start then [] else [(start, q)]
      let clean : Place := { q with groups := [], restart := none }
      let next := if isEmpty then clean.next?.map Prod.snd else some clean
      here ++
        match next with
        | none => []
        | some p => allMatches r n (some q.position) p

/-- All matches in a text. -/
def matchesOf (r : Regex) (cs : List Char) : List (Nat × Place) :=
  r.allMatches (cs.length + 2) none (lineFront cs)

/-- The places before a position are where its characters lead. -/
theorem next?_position (p q : Place) (c : Char) (h : p.next? = some (c, q)) :
    q.position = p.position + 1 := by
  unfold Place.next? at h
  split at h
  · cases h
  · injection h with h
    injection h with _ h
    rw [← h]

end Regex

end PatchSearch.Shell
