import PatchSearch.Shell.Utility.Dump
import PatchSearch.Shell.Utility.Paths

/-!
Comparing two inputs octet by octet: `cmp` tells where they differ first, or all octets that differ,
or which of them ends before the other.
-/
namespace PatchSearch.Shell

open Run

/-- Ends a utility for comparisons with a message about its arguments. -/
def comparisonMisused {β : Type} (name text : String) : Run β := do
  warn name text
  fail name 2 ("Try \x27" ++ (← ownName name) ++ " --help\x27 for more information.")

/-- Runs a utility for comparisons on its options. -/
def withComparisonOptions (name : String) (names : OptionNames) (run : Options → Run Unit) :
    Utility := fun args =>
  match Options.read names true args with
  | .ok o => do
    setStatus 0
    run o
  | .error e => comparisonMisused name e.message

/-- An octet of both inputs that differs, and its place, from one on. -/
structure OctetDifference where
  place : Nat
  left : Char
  right : Char

/-- The octets that differ, from a place on. -/
def octetDifferences : Nat → List Char → List Char → List OctetDifference
  | n, a :: as, b :: bs =>
    if a == b then octetDifferences (n + 1) as bs
    else ⟨n, a, b⟩ :: octetDifferences (n + 1) as bs
  | _, _, _ => []

/-- An octet in three octal digits. -/
def octalOctet (c : Char) : String :=
  let s := String.ofList (Nat.toDigits 8 c.toNat)
  String.ofList (List.replicate (3 - s.length) ' ') ++ s

/-- An octet as it can be seen. -/
def visibleOctet (c : Char) : String :=
  if c == '\n' then "^J" else madeVisible true (String.singleton c)

namespace OctetDifference

/-- A line for an octet that differs, with its place in a field of a width. -/
def line (d : OctetDifference) (width : Nat) (shows : Bool) : String :=
  if shows then
    let left := visibleOctet d.left
    aligned width d.place ++ " " ++ octalOctet d.left ++ " " ++ left ++
      String.ofList (List.replicate (4 - left.length) ' ') ++ " " ++ octalOctet d.right ++ " " ++
      visibleOctet d.right ++ "\n"
  else
    aligned width d.place ++ " " ++ octalOctet d.left ++ " " ++ octalOctet d.right ++ "\n"

/-- What is told of the first octet that differs. -/
def report (d : OctetDifference) (a b : String) (line : Nat) (shows : Bool) : String :=
  a ++ " " ++ b ++ " differ: " ++ (if shows then "byte " else "char ") ++ toString d.place ++
    ", line " ++ toString line ++
    (if shows then " is " ++ octalOctet d.left ++ " " ++ visibleOctet d.left ++ " " ++
        octalOctet d.right ++ " " ++ visibleOctet d.right
      else "") ++ "\n"

end OctetDifference

/-- What is told of an input that ends before the other one does. -/
def earlyEnd (name : String) (common : List Char) (tellsLine : Bool) : String :=
  let lines := common.count '\n'
  "EOF on " ++ name ++
    if common.isEmpty then " which is empty"
    else
      " after byte " ++ toString common.length ++
        if !tellsLine then ""
        else if common.getLast? == some '\n' then ", line " ++ toString lines
        else ", in line " ++ toString (lines + 1)

/-- How many octets of both inputs are passed over: a number for both, or two of them. -/
def skippedOctets (s : String) : Run (Nat × Nat) := do
  let count (body : String) : Run Nat := do
    let digits := body.toList.takeWhile Char.isDigit
    match octetCount? (if digits.isEmpty && body != "" then "1" ++ body else body) with
    | some n => return n
    | none => comparisonMisused "cmp" ("invalid --ignore-initial value \x27" ++ body ++ "\x27")
  match s.toList.span (· != ':') with
  | (front, ':' :: back) => return (← count (String.ofList front), ← count (String.ofList back))
  | _ => do
    let n ← count s
    return (n, n)

/-- `cmp`. -/
def compareFiles : Utility := fun args =>
  withComparisonOptions "cmp"
    { plain := "bcls", valued := "ni"
      long := [("print-bytes", 'b'), ("print-chars", 'c'), ("verbose", 'l'), ("bytes", 'n'),
        ("ignore-initial", 'i'), ("quiet", 's'), ("silent", 's')] }
    (fun o => do
      let mut skips := (0, 0)
      if let some s := o.value? 'i' then skips ← skippedOctets s
      let limit ← match o.value? 'n' with
        | none => pure none
        | some s => match octetCount? s with
          | some n => pure (some n)
          | none => comparisonMisused "cmp" ("invalid --bytes value \x27" ++ s ++ "\x27")
      if o.has 'l' && o.has 's' then comparisonMisused "cmp" "options -l and -s are incompatible"
      let (a, b) ← match o.operands with
        | [] => comparisonMisused "cmp" ("missing operand after " ++ inQuotes (args.getLast?.getD "cmp"))
        | [a] => pure (a, "-")
        | a :: b :: _ => pure (a, b)
      if let some s := o.operands[2]? then skips := (max skips.1 (← skippedOctets s).1, skips.2)
      if let some s := o.operands[3]? then skips := (skips.1, max skips.2 (← skippedOctets s).1)
      if let some s := o.operands[4]? then
        comparisonMisused "cmp" ("extra operand \x27" ++ s ++ "\x27")
      let opened (name : String) : Run (Option Channel) := do
        match ← openInput name with
        | .ok c => return c
        | .error e =>
          if !o.has 's' then warn "cmp" (name ++ ": " ++ causeText e)
          setStatus 2
          halt
      let content (name : String) (c : Option Channel) : Run String := do
        let result ← match c with
          | some c => readAll c
          | none => pure (.error .closed)
        match result with
        | .ok s => return s
        | .error e => fail "cmp" 2 (name ++ ": " ++ e.message)
      let channel ← opened a
      let channel' ← opened b
      if a == b && skips.1 = skips.2 then halt
      let part (skip : Nat) (s : String) : List Char :=
        let cs := s.toList.drop skip
        match limit with
        | some n => cs.take n
        | none => cs
      let x := part skips.1 (← content a channel)
      let y := part skips.2 (← content b channel')
      let differences := octetDifferences 1 x y
      if !differences.isEmpty || x.length != y.length then setStatus 1
      if o.has 's' then halt
      let shows := o.has 'b' || o.has 'c'
      let shorter := if x.length < y.length then a else b
      let common := x.take y.length
      match o.has 'l', differences with
      | true, differences =>
        let width := (toString (min x.length y.length)).length
        emit "cmp" (String.join (differences.map fun d => d.line width shows))
        if x.length != y.length then warn "cmp" (earlyEnd shorter common false)
      | false, d :: _ =>
        emit "cmp" (d.report a b ((common.take (d.place - 1)).count '\n' + 1) shows)
      | false, [] =>
        if x.length != y.length then warn "cmp" (earlyEnd shorter common true))
    args

end PatchSearch.Shell
