import PatchSearch.Shell.Octets
import PatchSearch.Fault

/-!
Arithmetic of scripts: whole numbers of 64 bits with the operators of expressions, and
assignments to variables. An expression is computed while it is read, from left to right, so the
first fault met is the one that is told. A side that a condition does not take is read without an
effect: `live` says whether a side counts.
-/
namespace PatchSearch.Shell.Arithmetic

/-- Why a text has no value. -/
inductive Fault where
  | expecting (what : String)
  | divisionByZero
  | illegalNumber (text : String)
  | readOnly (name : String)
  deriving DecidableEq

/-- A fault in words, with the text it is found in. -/
def Fault.message (text : String) : Fault → String
  | expecting what => "arithmetic expression: expecting " ++ what ++ ": \"" ++ text ++ "\""
  | divisionByZero => "arithmetic expression: division by zero: \"" ++ text ++ "\""
  | illegalNumber s => "Illegal number: " ++ s
  | readOnly name => name ++ ": is read only"

inductive Token where
  | number (n : Int)
  | name (s : String)
  | op (s : String)
  deriving DecidableEq

/-- A number in 64 bits. -/
def wrap (n : Int) : Int :=
  n.bmod wordCount

/-- The largest number. -/
def largest : Int :=
  9223372036854775807

/-- A number, or the nearest one that there is. -/
def clamp (n : Int) : Int :=
  max (-largest - 1) (min largest n)

def truth (b : Bool) : Int :=
  if b then 1 else 0

/-- The value of a digit in bases up to sixteen. -/
def digitValue (c : Char) : Nat :=
  if c.isDigit then c.toNat - 48
  else if 'a' ≤ c && c ≤ 'f' then c.toNat - 87
  else if 'A' ≤ c && c ≤ 'F' then c.toNat - 55
  else 16

/-- The digits of a base at the start of a text as a number, and what is left. -/
def digits (base : Nat) (cs : List Char) : Nat × List Char :=
  let ds := cs.takeWhile (digitValue · < base)
  (ds.foldl (fun n d => base * n + digitValue d) 0, cs.drop ds.length)

/-- The number in decimal, octal or hexadecimal notation at the start of a text, and what is left;
nothing if the text starts with no digit. -/
def numeral? (cs : List Char) : Option (Nat × List Char) :=
  let hexadecimal (rest : List Char) : Option (Nat × List Char) :=
    if rest.head?.any (digitValue · < 16) then some (digits 16 rest) else some (0, cs.drop 1)
  match cs with
  | '0' :: 'x' :: rest => hexadecimal rest
  | '0' :: 'X' :: rest => hexadecimal rest
  | '0' :: _ => some (digits 8 cs)
  | c :: _ => if c.isDigit then some (digits 10 cs) else none
  | [] => none

/-- The number that a whole text is, perhaps with a sign and blanks around it. No text is zero. -/
def number? (s : String) : Option Int :=
  let cs := s.toList.dropWhile isSpace
  let (negative, cs) := match cs with
    | '-' :: cs => (true, cs)
    | '+' :: cs => (false, cs)
    | cs => (false, cs)
  match numeral? cs with
  | some (n, rest) =>
    let value : Int := if negative then -(n : Int) else n
    if rest.all isSpace && clamp value == value then some value else none
  | none => if s.toList.all isSpace then some 0 else none

/-- Operators, longer ones first. -/
def operatorTexts : List String :=
  ["<<=", ">>=", "&&", "||", "==", "!=", "<=", ">=", "<<", ">>", "+=", "-=", "*=", "/=", "%=",
    "&=", "|=", "^=", "+", "-", "*", "/", "%", "<", ">", "&", "|", "^", "~", "!", "?", ":", "=",
    "(", ")"]

/-- The tokens of a text. A character that starts none is one of its own. -/
def tokens : Nat → List Char → List Token
  | 0, _ => []
  | _, [] => []
  | n + 1, c :: cs =>
    if c == ' ' || c == '\t' || c == '\n' then tokens n cs
    else
      match numeral? (c :: cs) with
      | some (v, rest) => .number (clamp v) :: tokens n rest
      | none =>
        if isNameStart c then
          let name := (c :: cs).takeWhile isNameChar
          .name (String.ofList name) :: tokens n ((c :: cs).drop name.length)
        else
          match operatorTexts.find? fun o => o.toList.isPrefixOf (c :: cs) with
          | some o => .op o :: tokens n ((c :: cs).drop o.length)
          | none => .op (String.ofList [c]) :: tokens n cs

/-- Binary operators that use both sides, from the loosest to the tightest. -/
def levels : List (List String) :=
  [["|"], ["^"], ["&"], ["==", "!="], ["<", ">", "<=", ">="], ["<<", ">>"], ["+", "-"],
    ["*", "/", "%"]]

def assignments : List String :=
  ["=", "+=", "-=", "*=", "/=", "%=", "&=", "|=", "^=", "<<=", ">>="]

/-- A binary operator that uses both sides; nothing for a division by zero. -/
def result? (op : String) (a b : Int) : Option Int :=
  let bits (f : Nat → Nat → Nat) : Int :=
    wrap (f (a % wordCount).toNat (b % wordCount).toNat)
  match op with
  | "+" => some (wrap (a + b))
  | "-" => some (wrap (a - b))
  | "*" => some (wrap (a * b))
  | "/" => if b = 0 then none else some (wrap (a.tdiv b))
  | "%" => if b = 0 then none else some (a.tmod b)
  | "==" => some (truth (a == b))
  | "!=" => some (truth (a != b))
  | "<" => some (truth (a < b))
  | ">" => some (truth (a > b))
  | "<=" => some (truth (a ≤ b))
  | ">=" => some (truth (a ≥ b))
  | "&" => some (bits (· &&& ·))
  | "|" => some (bits (· ||| ·))
  | "^" => some (bits (· ^^^ ·))
  | "<<" => some (wrap (a * (1 <<< (b % 64).toNat : Nat)))
  | ">>" => some (a >>> (b % 64).toNat)
  | _ => none

/-- The tokens that are left, and the variables, the latest assignment first. -/
structure State where
  tokens : List Token
  values : List (String × String)

abbrev Computation := StateT State (Except Fault)

namespace Computation

/-- Whether an operator comes next; it is dropped if so. -/
def accept (ops : List String) : Computation (Option String) := do
  match (← get).tokens with
  | .op o :: rest =>
    if ops.contains o then
      modify fun s => { s with tokens := rest }
      return some o
    else return none
  | _ => return none

/-- The number in a variable; an unset one counts as zero. -/
def valueOf (name : String) : Computation Int := do
  match (← get).values.lookup name with
  | none => return 0
  | some s =>
    match number? s with
    | some n => return n
    | none => throw (.illegalNumber s)

/-- Stores a number in a variable. -/
def store (fixed : List String) (name : String) (n : Int) : Computation Unit := do
  if fixed.contains name then throw (.readOnly name)
  modify fun s => { s with values := (name, toString n) :: s.values }

/-- The result of an operator on two sides that count. -/
def combine (live : Bool) (op : String) (a b : Int) : Computation Int := do
  if live then
    match result? op a b with
    | some n => return n
    | none => throw .divisionByZero
  else return b

/-- A number, a variable, a parenthesis, or a unary operator before one. -/
def primary (whole : Bool → Computation Int) (live : Bool) : Nat → Computation Int
  | 0 => throw (.expecting "primary")
  | n + 1 => do
    match (← get).tokens with
    | .number v :: rest =>
      modify fun s => { s with tokens := rest }
      return v
    | .name x :: rest =>
      modify fun s => { s with tokens := rest }
      if live then valueOf x else return 0
    | _ =>
      match ← accept ["(", "-", "+", "!", "~"] with
      | some "(" =>
        let v ← whole live
        match ← accept [")"] with
        | some _ => return v
        | none => throw (.expecting "')'")
      | some "-" => return wrap (-(← primary whole live n))
      | some "!" => return truth ((← primary whole live n) == 0)
      | some "~" => return -(← primary whole live n) - 1
      | some _ => primary whole live n
      | none => throw (.expecting "primary")

/-- The operators of one level after a first side. -/
def levelRest (ops : List String) (tighter : Computation Int) (live : Bool) :
    Nat → Int → Computation Int
  | 0, a => return a
  | n + 1, a => do
    match ← accept ops with
    | some o =>
      let b ← tighter
      levelRest ops tighter live n (← combine live o a b)
    | none => return a

/-- Operators of the given levels. -/
def binary (first : Computation Int) (live : Bool) (n : Nat) : List (List String) → Computation Int
  | [] => first
  | ops :: tighter => do
    let a ← binary first live n tighter
    levelRest ops (binary first live n tighter) live n a

/-- Sides joined by `&&`; those behind one that is zero do not count. -/
def conjunction (side : Bool → Computation Int) : Nat → Bool → Computation Int
  | 0, live => side live
  | n + 1, live => do
    let a ← side live
    match ← accept ["&&"] with
    | some _ =>
      let b ← conjunction side n (live && a != 0)
      return truth (a != 0 && b != 0)
    | none => return a

/-- Sides joined by `||`; those behind one that is not zero do not count. -/
def disjunction (side : Bool → Computation Int) : Nat → Bool → Computation Int
  | 0, live => side live
  | n + 1, live => do
    let a ← side live
    match ← accept ["||"] with
    | some _ =>
      let b ← disjunction side n (live && a == 0)
      return truth (a != 0 || b != 0)
    | none => return a

/-- A condition with a value for either case. -/
def choice (whole test : Bool → Computation Int) : Nat → Bool → Computation Int
  | 0, live => test live
  | n + 1, live => do
    let c ← test live
    match ← accept ["?"] with
    | none => return c
    | some _ =>
      let a ← whole (live && c != 0)
      match ← accept [":"] with
      | none => throw (.expecting "':'")
      | some _ =>
        let b ← choice whole test n (live && c == 0)
        return if c != 0 then a else b

/-- An expression; the number bounds its depth. -/
def expression (fixed : List String) : Nat → Bool → Computation Int
  | 0, _ => throw (.expecting "primary")
  | n + 1, live => do
    let whole := expression fixed n
    let assigned : Option (String × String × List Token) := match (← get).tokens with
      | .name x :: .op o :: rest => if assignments.contains o then some (x, o, rest) else none
      | _ => none
    match assigned with
    | some (x, o, rest) =>
      modify fun s => { s with tokens := rest }
      let b ← whole live
      if !live then return b
      else
        let v ← if o == "=" then pure b
          else combine true (String.ofList o.toList.dropLast) (← valueOf x) b
        store fixed x v
        return v
    | none =>
      let size := (← get).tokens.length + 1
      let side (live : Bool) : Computation Int :=
        binary (primary whole live size) live size levels
      choice whole (disjunction (conjunction side size) size) size live

end Computation

/-- The value of a text, given the variables and the names of those that cannot change, and the
variables afterwards. -/
def evaluate (fixed : List String) (values : List (String × String)) (text : String) :
    Except Fault (Int × List (String × String)) := do
  let ts := tokens (text.length + 1) text.toList
  let (v, s) ← (Computation.expression fixed (ts.length + 1) true).run ⟨ts, values⟩
  if s.tokens.isEmpty then return (v, s.values) else throw (.expecting "EOF")

example : evaluate [] [("x", "3")] "1 + 2 * x" = .ok (7, [("x", "3")]) := by cbv

example : evaluate [] [] "1/0" = .error .divisionByZero := by cbv

end PatchSearch.Shell.Arithmetic
