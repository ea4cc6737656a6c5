import PatchSearch.Shell.Difference.Report

/-!
Differences that were written down. A patch holds hunks for one or more files; a hunk tells lines
that go, lines that come, and lines around them by which its place is found. It is read from a
report in one piece, a report in two pieces, or a list of changes.
-/
namespace PatchSearch.Shell.Difference

/-- What happens to a line of a hunk. -/
inductive LineFate where
  | kept
  | removed
  | added
  deriving DecidableEq

/-- A hunk as it was written: where it starts in both texts, from one on, and its lines. -/
structure PatchHunk where
  left : Nat
  right : Nat
  lines : List (LineFate × String)
  /-- What stands behind its heading. -/
  heading : String := ""

namespace PatchHunk

def oldLines (h : PatchHunk) : List String :=
  (h.lines.filter (·.1 != .added)).map Prod.snd

def newLines (h : PatchHunk) : List String :=
  (h.lines.filter (·.1 != .removed)).map Prod.snd

/-- Lines with those that come behind those that go, wherever they stand side by side. -/
def sorted : List (LineFate × String) → List (LineFate × String) → List (LineFate × String)
  | pending, [] => pending.reverse
  | pending, (.added, l) :: rest => sorted ((.added, l) :: pending) rest
  | pending, (.removed, l) :: rest => (.removed, l) :: sorted pending rest
  | pending, (.kept, l) :: rest => pending.reverse ++ (.kept, l) :: sorted [] rest

/-- The hunk the other way round. -/
def reversed (h : PatchHunk) : PatchHunk :=
  let swapped := h.lines.map fun (fate, l) =>
    (match fate with
      | .kept => LineFate.kept
      | .removed => .added
      | .added => .removed, l)
  { h with left := h.right, right := h.left, lines := sorted [] swapped }

/-- How many lines in front and at the end are kept. -/
def frontContext (h : PatchHunk) : Nat :=
  (h.lines.takeWhile (·.1 == .kept)).length

def backContext (h : PatchHunk) : Nat :=
  (h.lines.reverse.takeWhile (·.1 == .kept)).length

/-- The first line that the hunk is about in either text; if it has none there, the one behind its
place. -/
def first (h : PatchHunk) : Nat :=
  if h.oldLines.isEmpty then h.left + 1 else h.left

def newFirst (h : PatchHunk) : Nat :=
  if h.newLines.isEmpty then h.right + 1 else h.right

theorem reversed_heading (h : PatchHunk) : h.reversed.heading = h.heading := rfl

end PatchHunk

/-- How the hunks of a patch are written. -/
inductive PatchForm where
  | unified
  | contextual
  | normal
  deriving DecidableEq

/-- A name in front of hunks, and what stands behind it. -/
structure PatchName where
  name : String
  time : String

/-- The hunks for one file. -/
structure FilePatch where
  form : PatchForm
  old : Option PatchName
  new : Option PatchName
  index : Option PatchName := none
  hunks : List PatchHunk
  /-- The lines that led up to the hunks, and the number of the line with the first of them. -/
  lead : List String
  line : Nat
  /-- How far all lines are moved in, and whether returns at their ends were dropped. -/
  indent : Nat := 0
  dropsReturns : Bool := false
  /-- Whether it is said that the file is new or goes, and the rights that it gets. -/
  isNew : Bool := false
  isDropped : Bool := false
  rights : Option Nat := none
  /-- What is wrong behind the hunks. -/
  fault : Option String := none

/-- A line of a patch with its number. -/
structure PatchText where
  number : Nat
  text : String

/-- A name behind the sign in front of it. -/
def patchName (s : String) : Option PatchName :=
  let cs := (s.toList.dropWhile isSpace).takeWhile (· != '\n')
  let cs := if cs.getLast? == some '\x0d' then cs.dropLast else cs
  let name :=
    if cs.contains '\t' then cs.takeWhile (· != '\t') else cs.takeWhile (!isSpace ·)
  let time := cs.drop name.length
  if name.isEmpty then none else some ⟨String.ofList name, String.ofList time⟩

/-- A range of lines: where it starts and how many there are. -/
def patchRange? (cs : List Char) : Option (Nat × Nat × List Char) :=
  let value (ds : List Char) : Nat := ds.foldl (fun n d => 10 * n + (d.toNat - 48)) 0
  let start := cs.takeWhile Char.isDigit
  if start.isEmpty then none
  else
    match cs.drop start.length with
    | ',' :: rest =>
      let count := rest.takeWhile Char.isDigit
      if count.isEmpty then none else some (value start, value count, rest.drop count.length)
    | rest => some (value start, 1, rest)

/-- A text without the line feed at its end. -/
def withoutFeed (s : String) : String :=
  if s.endsWith "\n" then String.ofList s.toList.dropLast else s

/-- Takes the remark that a line has no end off the lines behind it. -/
def settleEnd (line : String) : List PatchText → String × List PatchText
  | t :: rest => if t.text.startsWith "\\ " then (withoutFeed line, rest) else (line, t :: rest)
  | [] => (line, [])

/-- Lines of a hunk in one piece, as long as any are missing. Up to three empty lines may be missing
at the end of the patch; `last` is the number of its last line. -/
def unifiedBody (last : Nat) : Nat → Nat → Nat → List PatchText →
    Except String (List (LineFate × String) × List PatchText)
  | 0, _, _, rest => .ok ([], rest)
  | _, 0, 0, rest => .ok ([], rest)
  | fuel + 1, m, n, ts =>
    let take (t : PatchText) (rest : List PatchText) :
        Except String (List (LineFate × String) × List PatchText) :=
      let body := String.ofList (t.text.toList.drop 1)
      let next (fate : LineFate) (line : String) (m n : Nat) :
          Except String (List (LineFate × String) × List PatchText) := do
        let (line, rest) := settleEnd line rest
        let (lines, rest) ← unifiedBody last fuel m n rest
        return ((fate, line) :: lines, rest)
      match t.text.toList.head?, m, n with
      | some '-', m + 1, n => next .removed body m n
      | some '+', m, n + 1 => next .added body m n
      | some ' ', m + 1, n + 1 => next .kept body m n
      | some '=', m + 1, n + 1 => next .kept body m n
      | some '\t', m + 1, n + 1 => next .kept t.text m n
      | some '\n', m + 1, n + 1 => next .kept t.text m n
      | _, _, _ => .error ("malformed patch at line " ++ toString t.number ++ ": " ++ t.text)
    match ts with
    | t :: rest => take t rest
    | [] => if n ≤ 3 then take ⟨last, " \n"⟩ [] else .error "unexpected end of file in patch"

/-- The heading of a hunk in one piece. -/
def unifiedHeading? (s : String) : Option (Nat × Nat × Nat × Nat × String) :=
  match s.toList with
  | '@' :: '@' :: ' ' :: '-' :: cs => do
    let (a, m, rest) ← patchRange? cs
    match rest with
    | ' ' :: '+' :: rest =>
      let (b, n, rest) ← patchRange? rest
      let heading := match (rest.dropWhile (· == ' ')).dropWhile (· == '@') with
        | ' ' :: cs => " " ++ String.ofList (cs.takeWhile (· != '\n'))
        | _ => ""
      some (a, m, b, n, heading)
    | _ => none
  | _ => none

/-- The hunks in one piece at the front of some lines, and what is wrong with the next one. -/
def unifiedHunks (last : Nat) :
    Nat → List PatchText → List PatchHunk × List PatchText × Option String
  | 0, ts => ([], ts, none)
  | _, [] => ([], [], none)
  | fuel + 1, t :: ts =>
    match unifiedHeading? t.text with
    | none => ([], t :: ts, none)
    | some (a, m, b, n, heading) =>
      match unifiedBody last (m + n + 1) m n ts with
      | .error e => ([], [], some e)
      | .ok (lines, rest) =>
        let (hunks, rest, fault) := unifiedHunks last fuel rest
        (⟨a, b, PatchHunk.sorted [] lines, heading⟩ :: hunks, rest, fault)

/-- One half of a hunk in two pieces: where it starts, and its lines with their signs. -/
def contextHalf (sign : String) : List PatchText →
    Option (Nat × Nat × List (Char × String) × List PatchText)
  | [] => none
  | t :: ts =>
    if !t.text.startsWith (sign ++ " ") then none
    else
      let cs := t.text.toList.drop (sign.length + 1)
      let start := cs.takeWhile Char.isDigit
      let value (ds : List Char) : Nat := ds.foldl (fun n d => 10 * n + (d.toNat - 48)) 0
      let stop := match cs.drop start.length with
        | ',' :: rest => value (rest.takeWhile Char.isDigit)
        | _ => value start
      if start.isEmpty then none
      else
        let rec go : List PatchText → List (Char × String) × List PatchText
          | [] => ([], [])
          | t :: ts =>
            match t.text.toList with
            | c :: ' ' :: rest =>
              if [' ', '!', '-', '+'].contains c then
                let (lines, left) := go ts
                ((c, String.ofList rest) :: lines, left)
              else ([], t :: ts)
            | '\\' :: _ => ([], t :: ts)
            | _ => ([], t :: ts)
        let (lines, rest) := go ts
        match rest with
        | t :: more =>
          if t.text.startsWith "\\ " then
            let ended := match lines.reverse with
              | (c, l) :: others => (((c, withoutFeed l) :: others).reverse)
              | [] => []
            some (value start, stop, ended, more)
          else some (value start, stop, lines, rest)
        | [] => some (value start, stop, lines, rest)

/-- The lines of both halves of a hunk in one list. A half that is left out is made of the lines
that the other one keeps. -/
def mergedHalves : Nat → List (Char × String) → List (Char × String) → List (LineFate × String)
  | 0, _, _ => []
  | _ + 1, [], [] => []
  | fuel + 1, (c, l) :: as, bs =>
    if c != ' ' then (.removed, l) :: mergedHalves fuel as bs
    else
      match bs with
      | (d, r) :: bs' =>
        if d != ' ' then (.added, r) :: mergedHalves fuel ((c, l) :: as) bs'
        else (.kept, l) :: mergedHalves fuel as bs'
      | [] => (.kept, l) :: mergedHalves fuel as []
  | fuel + 1, [], (d, r) :: bs =>
    (if d != ' ' then .added else .kept, r) :: mergedHalves fuel [] bs

/-- The hunks in two pieces at the front of some lines. -/
def contextHunks : Nat → List PatchText → List PatchHunk × List PatchText
  | 0, ts => ([], ts)
  | _, [] => ([], [])
  | fuel + 1, t :: ts =>
    if !t.text.startsWith "********" then ([], t :: ts)
    else
      let heading := String.ofList
        ((t.text.toList.dropWhile (· == '*')).takeWhile (· != '\n'))
      match contextHalf "***" ts with
      | none => ([], t :: ts)
      | some (a, _, olds, rest) =>
        match contextHalf "---" rest with
        | none => ([], t :: ts)
        | some (b, _, news, rest) =>
          let keeps (ls : List (Char × String)) : List (Char × String) := ls.filter (·.1 == ' ')
          let olds := if olds.isEmpty then keeps news else olds
          let news := if news.isEmpty then keeps olds else news
          let lines := mergedHalves (olds.length + news.length + 1) olds news
          let (hunks, rest) := contextHunks fuel rest
          (⟨a, b, lines, heading⟩ :: hunks, rest)

/-- A command of a list of changes: the lines of both texts and its letter. -/
def changeCommand? (s : String) : Option (Nat × Nat × Char × Nat × Nat) := do
  let value (ds : List Char) : Nat := ds.foldl (fun n d => 10 * n + (d.toNat - 48)) 0
  let range (cs : List Char) : Option (Nat × Nat × List Char) :=
    let start := cs.takeWhile Char.isDigit
    if start.isEmpty then none
    else
      match cs.drop start.length with
      | ',' :: rest =>
        let stop := rest.takeWhile Char.isDigit
        if stop.isEmpty then none else some (value start, value stop, rest.drop stop.length)
      | rest => some (value start, value start, rest)
  let (a, b, rest) ← range s.toList
  match rest with
  | c :: rest =>
    if !(['a', 'c', 'd'].contains c) then none
    let (d, e, rest) ← range rest
    if (String.ofList rest) != "\n" && !rest.isEmpty then none
    some (a, b, c, d, e)
  | [] => none

/-- The hunks of a list of changes at the front of some lines. -/
def normalHunks : Nat → List PatchText → List PatchHunk × List PatchText
  | 0, ts => ([], ts)
  | _, [] => ([], [])
  | fuel + 1, t :: ts =>
    match changeCommand? t.text with
    | none => ([], t :: ts)
    | some (a, b, c, d, e) =>
      let rec take (sign : String) (fate : LineFate) : Nat → List PatchText →
          List (LineFate × String) × List PatchText
        | 0, ts => ([], ts)
        | _, [] => ([], [])
        | n + 1, t :: ts =>
          if t.text.startsWith sign then
            let (line, ts) := settleEnd (String.ofList (t.text.toList.drop sign.length)) ts
            let (lines, rest) := take sign fate n ts
            ((fate, line) :: lines, rest)
          else ([], t :: ts)
      let (olds, rest) := if c == 'a' then ([], ts) else take "< " .removed (b + 1 - a) ts
      let rest := match rest with
        | t :: more => if c == 'c' && t.text.startsWith "---" then more else rest
        | [] => []
      let (news, rest) := if c == 'd' then ([], rest) else take "> " .added (e + 1 - d) rest
      let (hunks, rest) := normalHunks fuel rest
      (⟨a, d, olds ++ news, ""⟩ :: hunks, rest)

/-- What the lines in front of hunks tell. -/
structure PatchLead where
  stars : Option PatchName := none
  dashes : Option PatchName := none
  pluses : Option PatchName := none
  index : Option PatchName := none
  isNamed : Bool := false
  /-- The lines so far, last one first. -/
  lines : List String := []
  dropsReturns : Bool := false
  /-- Whether they say that a file is new or goes, and the rights that it gets. -/
  isExtended : Bool := false
  isNew : Bool := false
  isDropped : Bool := false
  rights : Option Nat := none

namespace PatchLead

/-- Rights as they are written at the end of a line, behind the kind of the file. -/
def rightsIn (s : String) : Option Nat :=
  let digits := s.toList.filter Char.isDigit
  if digits.length < 4 then none
  else some ((digits.drop (digits.length - 3)).foldl (fun n d => 8 * n + (d.toNat - 48)) 0)

/-- Notes a line that is no hunk. -/
def note (l : PatchLead) (s : String) : PatchLead :=
  let rest (n : Nat) : Option PatchName := patchName (String.ofList (s.toList.drop n))
  let l := { l with lines := s :: l.lines }
  let named := { l with isNamed := true, dropsReturns := s.endsWith "\x0d\n" }
  if s.startsWith "*** " then { named with stars := rest 4 }
  else if s.startsWith "--- " then { named with dashes := rest 4 }
  else if s.startsWith "+++ " then { named with pluses := rest 4 }
  else if s.startsWith "Index:" then { named with index := rest 6 }
  else if s.startsWith "diff --git " then { l with isNamed := true, isExtended := true }
  else if !l.isExtended then l
  else if s.startsWith "new file mode " then { l with isNew := true, rights := rightsIn s }
  else if s.startsWith "deleted file mode " then { l with isDropped := true }
  else if s.startsWith "new mode " then { l with rights := rightsIn s }
  else l

end PatchLead

/-- A line without what it is moved in by, and without a return at its end if those are dropped. -/
def PatchText.settled (indent : Nat) (dropsReturns : Bool) (t : PatchText) : PatchText :=
  let cs := t.text.toList
  let cs := if (cs.take indent).all (· == ' ') then cs.drop indent else cs
  let s := String.ofList cs
  { t with text := if dropsReturns && s.endsWith "\x0d\n" then
      String.ofList (cs.take (cs.length - 2)) ++ "\n" else s }

/-- The hunks for a file, as the lines in front of them tell about it. -/
def PatchLead.filePatch (lead : PatchLead) (form : PatchForm) (indent : Nat)
    (hunks : List PatchHunk) (line : Nat) (fault : Option String) : FilePatch :=
  let (old, new) := match form with
    | .unified => (lead.dashes, lead.pluses)
    | .contextual => (lead.stars, lead.dashes)
    | .normal => (none, none)
  { form, old, new, index := lead.index, hunks, lead := lead.lines.reverse, line, indent, fault
    dropsReturns := lead.dropsReturns, isNew := lead.isNew, isDropped := lead.isDropped
    rights := lead.rights }

/-- The next file's hunks in a patch, and the lines behind them. Hunks with no name in front of
them count only if the file is known anyway. -/
def nextFilePatch? (accepts : PatchForm → Bool) (isKnown keepsReturns : Bool) :
    PatchLead → List PatchText → Option (FilePatch × List PatchText)
  | _, [] => none
  | lead, t :: ts =>
    let indent := (t.text.toList.takeWhile (· == ' ')).length
    let settled := PatchText.settled indent (lead.dropsReturns && !keepsReturns)
    let plain := (settled t).text
    let next := ((ts.head?.map settled).map PatchText.text).getD ""
    let isHeaded := isKnown || lead.isNamed
    let found : Option (FilePatch × List PatchText) :=
      if !isHeaded then none
      else if accepts .unified && plain.startsWith "@@ -" then
        let (hunks, rest, fault) :=
          unifiedHunks (t.number + ts.length) (ts.length + 2) ((t :: ts).map settled)
        let fault := if hunks.isEmpty && fault.isNone then
            some ("malformed patch at line " ++ toString t.number ++ ": " ++ plain) else fault
        some (lead.filePatch .unified indent hunks t.number fault, rest)
      else if accepts .contextual && plain.startsWith "********" && next.startsWith "*** " then
        let (hunks, rest) := contextHunks (ts.length + 2) ((t :: ts).map settled)
        if hunks.isEmpty then none
        else some (lead.filePatch .contextual indent hunks (t.number + 1) none, rest)
      else if accepts .normal && (changeCommand? plain).isSome &&
          (next.startsWith "< " || next.startsWith "> ") then
        let (hunks, rest) := normalHunks (ts.length + 2) ((t :: ts).map settled)
        some (lead.filePatch .normal indent hunks (t.number + 1) none, rest)
      else none
    match found with
    | some (p, rest) => some (p, ts.drop (ts.length - rest.length))
    | none => nextFilePatch? accepts isKnown keepsReturns (lead.note t.text) ts

/-- All patches in a text, and whether lines are left behind them. The number bounds them. -/
def filePatches (accepts : PatchForm → Bool) (isKnown keepsReturns : Bool) :
    Nat → List PatchText → List FilePatch × Bool
  | 0, _ => ([], false)
  | n + 1, ts =>
    match nextFilePatch? accepts isKnown keepsReturns {} ts with
    | some (p, rest) =>
      if p.fault.isSome then ([p], false)
      else
        let (patches, isLeft) := filePatches accepts isKnown keepsReturns n rest
        (p :: patches, isLeft)
    | none => ([], !ts.isEmpty)

/-!
Hunks put into a text. A hunk is looked for where it says it stands, moved by as much as the one
before it was, and then farther and farther from there; if it is nowhere, some of the lines around
it may differ. What stands in front of a hunk that was put in is settled.
-/

/-- How far a text is patched. -/
structure Patching where
  /-- The lines of the text as it was. -/
  text : Array String
  /-- How many of them are settled. -/
  settled : Nat := 0
  /-- The lines of the new text so far, last one first. -/
  written : List String := []
  /-- How far behind its place the last hunk stood, and by how much the text has grown. -/
  moved : Int := 0
  grown : Int := 0

namespace Patching

/-- Whether the old lines of a hunk, but for some at both ends, stand at a place. -/
def fits (p : Patching) (same : String → String → Bool) (old : Array String) (place : Int)
    (front back : Nat) : Bool :=
  (List.range (old.size - back - front)).all fun i =>
    let k := place - 1 + ((front + i : Nat) : Int)
    0 ≤ k && match p.text[k.toNat]?, old[front + i]? with
      | some a, some b => same a b
      | _, _ => false

/-- The first distance at which a place fits, ahead or behind. -/
def search (ahead behind : Int → Bool) : Nat → Int → Option Int
  | 0, _ => none
  | n + 1, k => if ahead k then some k else if behind k then some (-k) else search ahead behind n (k + 1)

/-- Where a hunk stands if so many of the lines around it may differ. -/
def placeOf? (p : Patching) (same : String → String → Bool) (h : PatchHunk) (fuzz : Nat) :
    Option Int :=
  let old := h.oldLines.toArray
  let size : Int := p.text.size
  let count : Int := old.size
  let first := (h.first : Int) + p.moved
  let (front, back) := (h.frontContext, h.backContext)
  let around := max front back
  let frontFuzz : Int := (fuzz + front : Nat) - (around : Nat)
  let backFuzz : Int := (fuzz + back : Nat) - (around : Nat)
  let last := size - (count - backFuzz) + 1
  let mostAhead := last - first
  let mostBehind := first - (p.settled + 1)
  let most := max mostAhead mostBehind
  let mostBehind := if first ≤ mostBehind then first - 1 else mostBehind
  if old.isEmpty then (if first = 0 then none else some first)
  else if frontFuzz < 0 && h.first ≤ 1 then
    if p.settled ≤ front && 1 - first ≤ mostAhead && p.fits same old 1 0 backFuzz.toNat then some 1
    else none
  else if backFuzz < 0 then
    let place := size - count + 1
    if first - place ≤ mostBehind && p.fits same old place frontFuzz.toNat 0 then some place
    else none
  else
    let fitsAt (k : Int) : Bool := p.fits same old (first + k) frontFuzz.toNat backFuzz.toNat
    let least := if mostAhead < 0 then first - last
      else if mostBehind < 0 then first - (p.settled + 1) else 0
    (search (fun k => k ≤ mostAhead && fitsAt k)
      (fun k => 0 < k && k ≤ mostBehind && fitsAt (-k)) (most - least + 1).toNat least).map (first + ·)

/-- Adds a line to the new text, behind a line that has an end. -/
def write (p : Patching) (line : String) : Patching :=
  match p.written with
  | l :: rest =>
    if l.endsWith "\n" then { p with written := line :: p.written }
    else { p with written := line :: (l ++ "\n") :: rest }
  | [] => { p with written := [line] }

/-- Settles lines of the text up to some number, which must not be settled so far. -/
def settleUpTo (p : Patching) (n : Int) : Option Patching :=
  if n < p.settled then none
  else
    let q := (p.text.extract p.settled n.toNat).foldl write p
    some { q with settled := n.toNat }

/-- Puts in the lines of a hunk, of whose old lines some number is passed. -/
def put (place : Int) : List (LineFate × String) → Nat → Patching → Option Patching
  | [], _, p => some p
  | (fate, line) :: rest, passed, p =>
    match fate with
    | .kept => put place rest (passed + 1) p
    | .removed => do
      let q ← p.settleUpTo (place - 1 + passed)
      put place rest (passed + 1) { q with settled := q.settled + 1 }
    | .added => do
      let q ← p.settleUpTo (place - 1 + passed)
      put place rest passed (q.write line)

/-- Puts a hunk in at a place. -/
def apply (p : Patching) (h : PatchHunk) (place : Int) : Option Patching := do
  let q ← put place h.lines 0 p
  return { q with
    moved := place - h.first
    grown := p.grown + (h.newLines.length : Nat) - (h.oldLines.length : Nat) }

/-- The new text, with all lines that are not settled at its end. -/
def result (p : Patching) : String :=
  let q := (p.text.extract p.settled p.text.size).foldl write p
  String.join q.written.reverse

end Patching

namespace PatchHunk

/-- A number of lines from a line on, as a heading in one piece shows it. -/
def unifiedPlace (start : Int) (count : Nat) : String :=
  match count with
  | 0 => toString (start - 1) ++ ",0"
  | 1 => toString start
  | n => toString start ++ "," ++ toString n

/-- The hunk in one piece, in a text that has grown. -/
def unified (h : PatchHunk) (grown : Int) : String :=
  let sign : LineFate → String
    | .kept => " "
    | .removed => "-"
    | .added => "+"
  "@@ -" ++ unifiedPlace (h.first + grown) h.oldLines.length ++ " +" ++
    unifiedPlace (h.newFirst + grown) h.newLines.length ++ " @@" ++ h.heading ++ "\n" ++
    String.join (h.lines.map fun (fate, l) => sign fate ++ l)

/-- The signs of lines in a hunk in two pieces: what goes and what comes side by side is a
change. -/
def pieceSigns : Bool → List LineFate → List (LineFate × Bool)
  | _, [] => []
  | isChange, fate :: rest =>
    let run := (fate :: rest).takeWhile (· != .kept)
    let isChange := if fate == .kept then false
      else isChange || run.contains .removed && run.contains .added
    (fate, isChange) :: pieceSigns isChange rest

/-- The hunk in two pieces, in a text that has grown. -/
def contextual (h : PatchHunk) (grown : Int) (marksChanges : Bool) : String :=
  let range (start : Int) (count : Nat) : String :=
    if count = 0 then "0"
    else if count = 1 then toString start
    else toString start ++ "," ++ toString (start + (count : Nat) - 1)
  let signed := ((pieceSigns false (h.lines.map Prod.fst)).zip h.lines).map
    fun ((fate, isChange), (_, l)) => (fate, isChange && marksChanges, l)
  let half (side : LineFate) (sign : String) : String :=
    String.join <| signed.filterMap fun (fate, isChange, l) =>
      if fate == .kept then some ("  " ++ l)
      else if fate == side then some ((if isChange then "! " else sign ++ " ") ++ l)
      else none
  let (stars, dashes) := if marksChanges then (" ****", " ----") else ("", " -----")
  "***************" ++ h.heading ++ "\n*** " ++ range (h.first + grown) h.oldLines.length ++ stars ++
    "\n" ++ half .removed "-" ++ "--- " ++ range (h.newFirst + grown) h.newLines.length ++ dashes ++
    "\n" ++ half .added "+"

end PatchHunk

theorem Patching.settled_le_of_settleUpTo {p q : Patching} {n : Int} (h : p.settleUpTo n = some q) :
    (p.settled : Int) ≤ n := by
  unfold settleUpTo at h
  split at h
  · contradiction
  · omega

end PatchSearch.Shell.Difference
