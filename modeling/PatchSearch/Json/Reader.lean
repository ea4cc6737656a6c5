import PatchSearch.Json.Basic

/-!
Reading JSON text. The grammar is strict: blanks are space, tab, line feed and carriage return,
numbers have no leading zeros and no bare point, strings hold no raw control characters, and
nothing but blanks may follow the value. Every reader returns what it leaves of the text.
-/
namespace PatchSearch.Json.Reader

def isSpace (c : Char) : Bool :=
  c == ' ' || c == '\t' || c == '\n' || c == '\r'

def skipSpace (cs : List Char) : List Char :=
  cs.dropWhile isSpace

/-- The rest of a text after the given start. -/
def after? : List Char → List Char → Option (List Char)
  | [], cs => some cs
  | _ :: _, [] => none
  | p :: ps, c :: cs => if p = c then after? ps cs else none

def hexValue? (c : Char) : Option Nat :=
  if '0' ≤ c ∧ c ≤ '9' then some (c.toNat - 48)
  else if 'a' ≤ c ∧ c ≤ 'f' then some (c.toNat - 87)
  else if 'A' ≤ c ∧ c ≤ 'F' then some (c.toNat - 55)
  else none

/-- The code unit that four hexadecimal digits denote. -/
def codeUnit? (a b c d : Char) : Option Nat := do
  let a ← hexValue? a
  let b ← hexValue? b
  let c ← hexValue? c
  let d ← hexValue? d
  return ((a * 16 + b) * 16 + c) * 16 + d

def isHighSurrogate (n : Nat) : Bool :=
  0xD800 ≤ n && n < 0xDC00

def isLowSurrogate (n : Nat) : Bool :=
  0xDC00 ≤ n && n < 0xE000

/-- The character of a surrogate pair. -/
def pairedChar (high low : Nat) : Char :=
  Char.ofNat (0x10000 + (high - 0xD800) * 0x400 + (low - 0xDC00))

/-- The character that a letter after a backslash denotes. -/
def shortEscape? : Char → Option Char
  | '"' => some '"'
  | '\\' => some '\\'
  | '/' => some '/'
  | 'b' => some '\x08'
  | 'f' => some '\x0c'
  | 'n' => some '\n'
  | 'r' => some '\r'
  | 't' => some '\t'
  | _ => none

/-- A string's characters, or `none` from an unpaired surrogate on. -/
abbrev Literal := Option (List Char)

/-- Puts a character in front of what follows it. -/
def literalCons (c : Char) (r : Literal × List Char) : Literal × List Char :=
  (r.1.map (c :: ·), r.2)

/-- Reads a string up to its closing quote. A high surrogate `pending` has just been read, if
any; only a low one may follow it. -/
def stringFrom (pending : Option Nat) : List Char → Option (Literal × List Char)
  | '\\' :: 'u' :: a :: b :: c :: d :: cs => do
    let n ← codeUnit? a b c d
    match pending with
    | some high =>
      if isLowSurrogate n then (stringFrom none cs).map (literalCons (pairedChar high n))
      else if isHighSurrogate n then (stringFrom (some n) cs).map fun r => (none, r.2)
      else (stringFrom none cs).map fun r => (none, r.2)
    | none =>
      if isHighSurrogate n then stringFrom (some n) cs
      else if isLowSurrogate n then (stringFrom none cs).map fun r => (none, r.2)
      else (stringFrom none cs).map (literalCons (Char.ofNat n))
  | '\\' :: e :: cs => do
    let c ← shortEscape? e
    let r ← stringFrom none cs
    return if pending.isSome then (none, r.2) else literalCons c r
  | '"' :: cs => some (if pending.isSome then none else some [], cs)
  | c :: cs => do
    if c.toNat < 32 then none
    let r ← stringFrom none cs
    return if pending.isSome then (none, r.2) else literalCons c r
  | [] => none

/-- A run of digits, its value and its length; the run may be empty. -/
def digitsFrom (value count : Nat) : List Char → Nat × Nat × List Char
  | [] => (value, count, [])
  | c :: cs =>
    if c.isDigit then digitsFrom (value * 10 + (c.toNat - 48)) (count + 1) cs
    else (value, count, c :: cs)

/-- A decimal `m * 10 ^ e` as the nearest float; exponents far out of range are cut short. -/
def nearestFloat (mantissa : Nat) (exponent : Int) : Float :=
  let size := (Nat.toDigits 10 mantissa).length
  if mantissa = 0 then 0.0
  else if exponent + size > 400 then 1.0 / 0.0
  else if exponent + size < -400 then 0.0
  else if exponent < 0 then Float.ofScientific mantissa true exponent.natAbs
  else Float.ofScientific mantissa false exponent.natAbs

/-- The fraction part, if there is one: its digits appended to `value`, and their number. -/
def fraction? (value : Nat) : List Char → Option (Nat × Nat × List Char)
  | '.' :: cs =>
    let (value, count, rest) := digitsFrom value 0 cs
    if count = 0 then none else some (value, count, rest)
  | cs => some (value, 0, cs)

/-- The exponent part, if there is one. -/
def exponent? : List Char → Option (Option Int × List Char)
  | c :: cs =>
    if c = 'e' ∨ c = 'E' then
      let (negative, cs) := match cs with
        | '+' :: cs => (false, cs)
        | '-' :: cs => (true, cs)
        | cs => (false, cs)
      let (value, count, rest) := digitsFrom 0 0 cs
      if count = 0 then none
      else some (some (if negative then -(value : Int) else value), rest)
    else some (none, c :: cs)
  | [] => some (none, [])

/-- A number after its sign. -/
def number? (negative : Bool) (cs : List Char) : Option (Json × List Char) := do
  let (whole, count, rest) := digitsFrom 0 0 cs
  if count = 0 || (count > 1 && cs.head? == some '0') then none
  let (value, places, rest) ← fraction? whole rest
  let (exponent, rest) ← exponent? rest
  if !negative && places == 0 && exponent.isNone then
    return (.nat value, rest)
  if negative && value != 0 && places == 0 && exponent.isNone then
    return (.minus value, rest)
  let x := nearestFloat value (exponent.getD 0 - places)
  return (.real (if negative then -x else x), rest)

/-- The members of an object, or `none` if one of the names denotes no text. -/
abbrev Members := Option (List (String × Json))

/-- Puts a member in front of others. -/
def memberCons (name : Literal) (j : Json) (others : Members) : Members := do
  let name ← name
  let others ← others
  return (String.ofList name, j) :: others

mutual

/-- Reads one value. An object with a name that denotes no text denotes nothing itself. `fuel`
bounds the values and members still to come. -/
def value? : Nat → List Char → Option (Json × List Char)
  | 0, _ => none
  | fuel + 1, cs =>
    match skipSpace cs with
    | 'n' :: cs => (after? ['u', 'l', 'l'] cs).map (.null, ·)
    | 't' :: cs => (after? ['r', 'u', 'e'] cs).map (.bool true, ·)
    | 'f' :: cs => (after? ['a', 'l', 's', 'e'] cs).map (.bool false, ·)
    | '"' :: cs =>
      (stringFrom none cs).map fun (literal, rest) =>
        (match literal with
          | some s => .text (String.ofList s)
          | none => .unpaired, rest)
    | '[' :: cs =>
      match skipSpace cs with
      | ']' :: cs => some (.array [], cs)
      | cs => (items? fuel cs).map fun (items, rest) => (.array items, rest)
    | '{' :: cs =>
      match skipSpace cs with
      | '}' :: cs => some (.object [], cs)
      | cs => (members? fuel cs).map fun (members, rest) =>
          (match members with
            | some members => .object members
            | none => .unpaired, rest)
    | '-' :: cs => number? true cs
    | cs => number? false cs

/-- Reads the items of an array from its first item on. -/
def items? : Nat → List Char → Option (List Json × List Char)
  | 0, _ => none
  | fuel + 1, cs =>
    match value? fuel cs with
    | none => none
    | some (j, rest) =>
      match skipSpace rest with
      | ',' :: rest => (items? fuel rest).map fun (js, rest) => (j :: js, rest)
      | ']' :: rest => some ([j], rest)
      | _ => none

/-- Reads the members of an object from its first name on. -/
def members? : Nat → List Char → Option (Members × List Char)
  | 0, _ => none
  | fuel + 1, cs =>
    match skipSpace cs with
    | '"' :: cs =>
      match stringFrom none cs with
      | none => none
      | some (name, rest) =>
        match skipSpace rest with
        | ':' :: rest =>
          match value? fuel rest with
          | none => none
          | some (j, rest) =>
            match skipSpace rest with
            | ',' :: rest => (members? fuel rest).map fun r => (memberCons name j r.1, r.2)
            | '}' :: rest => some (memberCons name j (some []), rest)
            | _ => none
        | _ => none
    | _ => none

end

end Reader

/-- The value that a text denotes. Every value and member takes a character of the text, so its
length is enough fuel. -/
def parse? (s : String) : Option Json :=
  let cs := s.toList
  match Reader.value? (2 * cs.length + 2) cs with
  | some (j, rest) => if (Reader.skipSpace rest).isEmpty then some j else none
  | none => none

end PatchSearch.Json
