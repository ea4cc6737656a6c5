import PatchSearch.Files.Entry

/-!
Changes of rights. A change is written as an octal number or as clauses such as `u+x,go=r`: whose
rights, what is done to them, and which. A clause that names nobody is about everybody, as far as
a mask lets it.
-/
namespace PatchSearch.Shell

/-- Where a step of a change takes its bits from. -/
inductive RightSource where
  | fixed
  /-- The bits of one of owner, group and others, for all of them. -/
  | copied
  /-- Leave to run, if anyone has it or it is a directory. -/
  | ifRunnable
  deriving DecidableEq

/-- One step of a change of rights. -/
structure RightStep where
  /-- A plus, a minus or an equals sign. -/
  way : Char
  source : RightSource := .fixed
  /-- The bits of those it names; none if it names nobody. -/
  affected : Nat := 0
  value : Nat := 0
  mentioned : Nat := 0

namespace RightStep

/-- All bits of rights. -/
def allBits : Nat := 4095

/-- The bits of those that a letter names. -/
def whose? : Char → Option Nat
  | 'u' => some 2496
  | 'g' => some 1080
  | 'o' => some 519
  | 'a' => some allBits
  | _ => none

/-- The bits that a letter stands for, for everybody. -/
def bits? : Char → Option Nat
  | 'r' => some 292
  | 'w' => some 146
  | 'x' => some 73
  | 's' => some 3072
  | 't' => some 512
  | 'X' => some 0
  | _ => none

/-- An octal number of rights. -/
def octal? (cs : List Char) : Option Nat :=
  if cs.isEmpty || !cs.all fun c => '0' ≤ c && c ≤ '7' then none
  else
    let n := cs.foldl (fun n c => 8 * n + (c.toNat - 48)) 0
    if n ≤ allBits then some n else none

/-- The bits for each of owner, group and others that some bits hold for any of them. -/
def spread (n : Nat) : Nat :=
  let any (bits : Nat) : Nat := if n &&& bits != 0 then bits else 0
  any 292 ||| any 146 ||| any 73

/-- What follows the sign of a step, and the rest. -/
def readValue (way : Char) (affected : Nat) (cs : List Char) : Option (RightStep × List Char) :=
  let digits := cs.takeWhile fun c => '0' ≤ c && c ≤ '7'
  let finish (s : RightStep) (rest : List Char) : RightStep × List Char :=
    ({ s with mentioned := if affected = 0 then s.value else affected &&& s.value }, rest)
  if !digits.isEmpty then
    let rest := cs.drop digits.length
    if affected != 0 || !(rest.isEmpty || rest.head? == some ',') then none
    else (octal? digits).map fun n =>
      ({ way, affected := allBits, value := n, mentioned := allBits }, rest)
  else
    match cs with
    | 'u' :: rest => some (finish { way, source := .copied, affected, value := 448 } rest)
    | 'g' :: rest => some (finish { way, source := .copied, affected, value := 56 } rest)
    | 'o' :: rest => some (finish { way, source := .copied, affected, value := 7 } rest)
    | _ =>
      let letters := cs.takeWhile fun c => (bits? c).isSome
      let value := letters.foldl (fun n c => n ||| (bits? c).getD 0) 0
      let source := if letters.contains 'X' then .ifRunnable else .fixed
      some (finish { way, source, affected, value } (cs.drop letters.length))

/-- The steps of clauses; `named` are the bits of those that the clause has named so far, and
`begun` tells whether it has had a step. -/
def readSteps : Nat → Nat → Bool → List Char → Option (List RightStep)
  | 0, _, _, _ => none
  | _, _, begun, [] => if begun then some [] else none
  | n + 1, named, begun, c :: cs =>
    if c == '+' || c == '-' || c == '=' then
      match readValue c named cs with
      | some (s, rest) => (readSteps n named true rest).map (s :: ·)
      | none => none
    else if c == ',' then if begun then readSteps n 0 false cs else none
    else if begun then none
    else
      match whose? c with
      | some bits => readSteps n (named ||| bits) false cs
      | none => none

/-- The steps that a text spells, if it spells any. -/
def read? (s : String) : Option (List RightStep) :=
  let cs := s.toList
  if cs.head?.any Char.isDigit then
    (octal? cs).map fun n =>
      let mentioned := if cs.length < 5 then n &&& 3072 ||| 1023 else allBits
      [{ way := '=', affected := allBits, value := n, mentioned }]
  else readSteps (cs.length + 1) 0 false cs

/-- The rights after a step, and the bits that the step is about. A directory keeps its upper bits
unless they are mentioned. -/
def apply (isDirectory : Bool) (mask rights : Nat) (s : RightStep) : Nat × Nat :=
  let omitted := if isDirectory then clearBits 3072 s.mentioned else 0
  let bits := match s.source with
    | .fixed => s.value
    | .copied => let own := s.value &&& rights; own ||| spread own
    | .ifRunnable => if isDirectory || rights &&& 73 != 0 then s.value ||| 73 else s.value
  let reached := if s.affected = 0 then clearBits allBits mask else s.affected
  let value := clearBits (bits &&& reached) omitted
  if s.way == '+' then (rights ||| value, value)
  else if s.way == '-' then (clearBits rights value, value)
  else
    let preserved := (if s.affected = 0 then 0 else clearBits allBits s.affected) ||| omitted
    (rights &&& preserved ||| value, clearBits allBits preserved)

/-- The rights after steps. -/
def applyAll (steps : List RightStep) (isDirectory : Bool) (mask rights : Nat) : Nat :=
  steps.foldl (fun rights s => (apply isDirectory mask rights s).1) rights

/-- The rights of a new directory whose maker asks for steps. If upper bits are in question it is
made without leave to write for others first, and is changed after that if the bits that the steps
are about are not right. -/
def forNew (steps : List RightStep) (mask : Nat) : Nat :=
  let (rights, bits) := steps.foldl (fun (r : Nat × Nat) s =>
    let (rights, bits) := apply true mask r.1 s
    (rights, r.2 ||| bits)) (511, 0)
  let careful := bits &&& 3072 != 0 || rights &&& 512 != 0
  let made := (if careful then clearBits rights 18 else rights) &&& 1023
  let settled := !careful && rights &&& bits &&& 511 == 0
  if settled || (made ^^^ rights) &&& bits == 0 then made else rights ||| clearBits made bits

example : (read? "u+x,g-r").map (applyAll · false 0 416) = some 448 := by decide

example : (read? "=r").map (applyAll · false 63 448) = some 256 := by decide

end RightStep

/-- The octal digits of a number, at least so many. -/
def octalText (width n : Nat) : String :=
  let ds := Nat.toDigits 8 n
  String.ofList (List.replicate (width - ds.length) '0' ++ ds)

/-- The letters of rights: three each for the owner, the group and all others. -/
def rightLetters (rights : Nat) : String :=
  let has (bit : Nat) : Bool := rights &&& bit != 0
  let three (shift upper : Nat) (mark : Char) : List Char :=
    let run := has (1 <<< shift)
    [if has (4 <<< shift) then 'r' else '-', if has (2 <<< shift) then 'w' else '-',
      if has upper then if run then mark else mark.toUpper else if run then 'x' else '-']
  String.ofList (three 6 2048 's' ++ three 3 1024 's' ++ three 0 512 't')

/-- The rights that clauses such as `go-w` leave, given those at the start and those that earlier
clauses left; nothing if the text is none. -/
def changedRights? (start : Nat) : Nat → Nat → Nat → List Char → Option Nat
  | 0, _, _, _ => none
  | _, named, rights, [] => if named = 0 then some rights else none
  | n + 1, named, rights, c :: cs =>
    let weight : Nat := match c with
      | 'u' => 64
      | 'g' => 8
      | 'o' => 1
      | 'a' => 73
      | _ => 0
    if weight != 0 then changedRights? start n (named ||| weight) rights cs
    else if !(['+', '-', '='].contains c) then none
    else
      let places := if named = 0 then 73 else named
      let letters := cs.takeWhile "rwxugoXs".toList.contains
      let bits := letters.foldl (fun bits l => bits ||| match l with
        | 'r' => 4
        | 'w' => 2
        | 'x' => 1
        | 'u' => start / 64
        | 'g' => start / 8
        | 'o' => start
        | 'X' => if start &&& 73 != 0 then 1 else 0
        | _ => 0) 0
      let value := (bits &&& 7) * places
      let changed := if c == '-' then clearBits rights value
        else if c == '=' then value ||| clearBits rights (places * 7)
        else rights ||| value
      match cs.drop letters.length with
      | ',' :: rest => changedRights? start n 0 changed rest
      | [] => some changed
      | rest =>
        if rest.head?.any ['+', '-', '='].contains then changedRights? start n places changed rest
        else none

end PatchSearch.Shell
