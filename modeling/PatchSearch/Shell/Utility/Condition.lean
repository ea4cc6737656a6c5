import PatchSearch.Shell.Builtin.Basic
import PatchSearch.Shell.Utility.Basic

/-!
Conditions: `test` with its primaries over texts, numbers and files, chained by `-a` and `-o`. A
word that could be an operator is an operand where the words around it leave no other reading. A
condition has a truth value or a reason why it has none.
-/
namespace PatchSearch.Shell

open Run

namespace Condition

/-- What a word can be in a condition. -/
inductive Role where
  | unary
  | binary
  | negation
  | chain
  | opening
  | closing
  deriving DecidableEq

def role? (s : String) : Option Role :=
  if ["-r", "-w", "-x", "-e", "-f", "-d", "-c", "-b", "-p", "-u", "-g", "-k", "-s", "-t", "-z",
    "-n", "-h", "-O", "-G", "-L", "-S"].contains s then some .unary
  else if ["=", "!=", "<", ">", "-eq", "-ne", "-ge", "-gt", "-le", "-lt", "-nt", "-ot",
    "-ef"].contains s then some .binary
  else if s == "!" then some .negation
  else if s == "-a" || s == "-o" then some .chain
  else if s == "(" then some .opening
  else if s == ")" then some .closing
  else none

/-- Whether what could be a unary operator in front of these words is an operand. -/
def isOperand : List String → Bool
  | [] => true
  | [_] => false
  | s :: _ => role? s == some .binary

/-- What the first of some words is there; nothing for an operand. -/
def roleAt? : List String → Option Role
  | [] => none
  | s :: rest =>
    match role? s with
    | some .unary => if isOperand rest then none else some .unary
    | some .opening => if rest.isEmpty then none else some .opening
    | r => r

/-- The truth of a primary with one operand. -/
def unary (files : FileTree) (op a : String) : Bool :=
  let name := textOfOctets a
  let isDevice := deviceNames.contains a
  let isFound := isDevice || (files.find name).toOption.isSome
  let item := (files.findItem name).toOption.map Prod.snd
  let hasBits (bits : Nat) : Bool := item.any fun x => x.rights &&& bits != 0
  match op with
  | "-n" => !a.isEmpty
  | "-z" => a.isEmpty
  | "-f" => files.isFile name
  | "-d" => files.isDirectory name
  | "-s" =>
    match files.find name with
    | .ok (_, .file content) => 0 < content.size
    | .ok _ => true
    | .error _ => false
  | "-x" => item.any fun x => x.entry.isDirectory || x.isRunnable
  | "-u" => hasBits 2048
  | "-g" => hasBits 1024
  | "-k" => hasBits 512
  | "-L" | "-h" =>
    match files.findLink name with
    | .ok (_, .link _) => true
    | _ => false
  | "-c" => isDevice
  | "-e" | "-r" | "-w" | "-O" | "-G" => isFound
  | _ => false

/-- The number that a word is. -/
def number (s : String) : Except String Int :=
  match decimal? s with
  | some n => .ok n
  | none => .error ("Illegal number: " ++ s)

/-- The truth of a primary between two operands. -/
def binary (files : FileTree) (a op b : String) : Except String Bool := do
  let numbers (f : Int → Int → Bool) : Except String Bool := do
    let x ← number a
    let y ← number b
    return f x y
  let item? (name : String) : Option Item :=
    (files.findItem (textOfOctets name)).toOption.map Prod.snd
  let both (f : Item → Item → Bool) : Bool :=
    match item? a, item? b with
    | some x, some y => f x y
    | _, _ => false
  match op with
  | "=" => return a == b
  | "!=" => return a != b
  | "<" => return decide (a < b)
  | ">" => return decide (b < a)
  | "-eq" => numbers (· == ·)
  | "-ne" => numbers (· != ·)
  | "-lt" => numbers (decide <| · < ·)
  | "-le" => numbers (decide <| · ≤ ·)
  | "-gt" => numbers (decide <| · > ·)
  | "-ge" => numbers (decide <| · ≥ ·)
  | "-ef" => return both fun x y => x.number == y.number
  | "-nt" => return both fun x y => decide (y.changed < x.changed)
  | "-ot" => return both fun x y => decide (x.changed < y.changed)
  | _ => return false

/-- Reads a condition at the start of some words: its truth value, and the words from the last one
that counts for it. -/
abbrev Reader := List String → Except String (Bool × List String)

/-- A primary. -/
def primary (files : FileTree) (whole : Reader) : Reader
  | [] => .ok (false, [])
  | s :: rest =>
    match roleAt? (s :: rest) with
    | some .opening =>
      if roleAt? rest == some .closing then .ok (false, rest)
      else do
        let (v, last) ← whole rest
        if roleAt? (last.drop 1) == some .closing then return (v, last.drop 1)
        else throw "closing paren expected"
    | some .unary =>
      match rest with
      | [] => .error (s ++ ": argument expected")
      | a :: _ => .ok (unary files s a, rest)
    | _ =>
      match rest with
      | op :: more =>
        if roleAt? rest == some .binary then
          match more with
          | [] => .error (op ++ ": argument expected")
          | b :: _ => (binary files s op b).map (·, more)
        else .ok (!s.isEmpty, s :: rest)
      | [] => .ok (!s.isEmpty, [s])

/-- A primary behind any number of negations. -/
def negated (files : FileTree) (whole : Reader) : Nat → Reader
  | 0, ws => primary files whole ws
  | n + 1, ws =>
    if roleAt? ws == some .negation then
      if ws.length = 1 then .ok (true, ws)
      else (negated files whole n (ws.drop 1)).map fun (v, last) => (!v, last)
    else primary files whole ws

/-- Conditions chained by one word, all of which are looked at. -/
def chained (word : String) (combine : Bool → Bool → Bool) (item : Reader) : Nat → Reader
  | 0, ws => item ws
  | n + 1, ws => do
    let (a, last) ← item ws
    if last[1]? == some word then
      let (b, last) ← chained word combine item n (last.drop 2)
      return (combine a b, last)
    else return (a, last)

/-- A condition; the number bounds its depth. -/
def expression (files : FileTree) : Nat → Reader
  | 0, _ => .error "argument expected"
  | n + 1, ws =>
    let size := ws.length + 1
    let item := negated files (expression files n) size
    chained "-o" (· || ·) (chained "-a" (· && ·) item size) size ws

/-- The truth of words that are a whole condition. -/
def whole (files : FileTree) (ws : List String) : Except String Bool := do
  match ← expression files (ws.length + 1) ws with
  | (_, w :: _ :: _) =>
    throw (if w.isEmpty then "unexpected operator" else w ++ ": unexpected operator")
  | (v, _) => return v

/-- The truth of words. Few of them are settled by their number. -/
def decideWords (files : FileTree) : Nat → List String → Except String Bool
  | 0, _ => .ok false
  | _, [] => .ok false
  | n + 1, ws =>
    let bracketed := ws.head? == some "(" && ws.getLast? == some ")"
    let settle : Except String Bool :=
      if ws.length = 3 || ws.length = 4 then
        if bracketed then whole files (ws.drop 1).dropLast
        else if ws.head? == some "!" then (decideWords files n (ws.drop 1)).map (!·)
        else whole files ws
      else whole files ws
    match ws with
    | [a, op, b] => if role? op == some .binary then binary files a op b else settle
    | _ => settle

example : decideWords .empty 3 ["!", "a"] = .ok false := by cbv

example : decideWords .empty 4 ["a", "==", "a"] = .error "a: unexpected operator" := by cbv

end Condition

/-- `test`. -/
def testWords : Builtin := fun args => do
  match Condition.decideWords (← files) (args.length + 1) args with
  | .ok b => setStatus (if b then 0 else 1)
  | .error text => refuse text

/-- `[`, which wants a closing bracket. -/
def testBracket : Builtin := fun args => do
  if (args.getLast?.any fun a => a.toList.head? == some ']') then testWords args.dropLast
  else refuse "missing ]"

/-- `test` and `[` as programs. -/
def testProgram (name : String) (bracket : Bool) : Utility := fun args => do
  if bracket && args.getLast? != some "]" then fail name 2 ("missing " ++ cited "]")
  let args := if bracket then args.dropLast else args
  match Condition.decideWords (← files) (args.length + 1) args with
  | .ok b => setStatus (if b then 0 else 1)
  | .error text => fail name 2 text

end PatchSearch.Shell
