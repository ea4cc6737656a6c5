import PatchSearch.Shell.Numerals
import PatchSearch.Shell.RecordScript.Basic

/-!
The words and signs of a script. Lines count, a brace ends a statement by itself, and a slash
divides behind an operand and opens a regular expression elsewhere.
-/
namespace PatchSearch.Shell.RecordScript

inductive Token where
  | number (x : Float) (spelled : String)
  | text (s : String)
  | pattern (source : String)
  | name (s : String)
  /-- A name with a bracket right behind it. -/
  | call (s : String)
  | word (s : String)
  | ready (s : String)
  | sign (s : String)
  | newline
  /-- The end of a statement that a closing brace makes. -/
  | ending
  | finish
  /-- What cannot be part of a script, and what is told about it. -/
  | stray (message : String)
  deriving Repr

namespace Token

/-- The token as a message shows it. -/
def shown : Token → String
  | number _ s => s
  | text s => s
  | pattern s => "/" ++ s ++ "/"
  | name s => s
  | call s => s
  | word s => s
  | ready s => s
  | sign s => if s == ">>" then ">" else s
  | newline => "end of line"
  | ending => "\x7d"
  | finish => "end of file"
  | stray s => s

def isSign (s : String) : Token → Bool
  | sign t => s == t
  | _ => false

def isWord (s : String) : Token → Bool
  | word t => s == t
  | _ => false

/-- Whether a slash behind the token divides. -/
def isOperand : Token → Bool
  | number _ _ => true
  | text _ => true
  | pattern _ => true
  | name _ => true
  | sign s => s == ")" || s == "]" || s == "++" || s == "--"
  | word s => s == "getline"
  | _ => false

end Token

/-- Words that are no names. -/
def keywords : List String :=
  ["BEGIN", "END", "if", "else", "while", "do", "for", "in", "break", "continue", "next",
    "nextfile", "exit", "return", "print", "printf", "delete", "getline", "function", "func"]

/-- The functions that every script has, with the fewest and the most arguments. -/
def readyFunctions : List (String × Nat × Nat) :=
  [("length", 0, 1), ("index", 2, 2), ("substr", 2, 3), ("sprintf", 1, 255), ("sin", 1, 1),
    ("cos", 1, 1), ("atan2", 2, 2), ("exp", 1, 1), ("log", 1, 1), ("int", 1, 1), ("sqrt", 1, 1),
    ("rand", 0, 0), ("srand", 0, 1), ("close", 1, 1), ("system", 1, 1), ("split", 2, 3),
    ("gsub", 2, 3), ("sub", 2, 3), ("match", 2, 2), ("tolower", 1, 1), ("toupper", 1, 1),
    ("fflush", 0, 1), ("mktime", 1, 1), ("strftime", 0, 3), ("systime", 0, 0)]

/-- Signs of more than one character, longer ones first. -/
def signs : List String :=
  ["&&", "||", "!~", "!=", "==", "<=", ">=", ">>", "++", "--", "+=", "-=", "*=", "/=", "%=", "^="]

def singleSigns : List Char :=
  ['\x7b', '\x7d', '(', ')', '[', ']', ';', ',', '+', '-', '*', '/', '%', '^', '!', '>', '<',
    '|', '?', ':', '~', '$', '=']

/-- Up to three octal digits, and the rest. -/
def octalDigits (cs : List Char) : Nat × List Char :=
  let ds := (cs.take 3).takeWhile fun c => '0' ≤ c && c ≤ '7'
  (ds.foldl (fun n d => 8 * n + (d.toNat - 48)) 0, cs.drop ds.length)

/-- What a backslash and the text behind it stand for, and the rest; nothing if the backslash
stands for itself. -/
def escape? : List Char → Option (Char × List Char)
  | 'a' :: cs => some ('\x07', cs)
  | 'b' :: cs => some ('\x08', cs)
  | 'f' :: cs => some ('\x0c', cs)
  | 'n' :: cs => some ('\n', cs)
  | 'r' :: cs => some ('\r', cs)
  | 't' :: cs => some ('\t', cs)
  | 'v' :: cs => some ('\x0b', cs)
  | '\\' :: cs => some ('\\', cs)
  | '"' :: cs => some ('"', cs)
  | 'x' :: cs =>
    let ds := (cs.take 2).takeWhile (Arithmetic.digitValue · < 16)
    if ds.isEmpty then none
    else some (Char.ofNat (ds.foldl (fun v d => 16 * v + Arithmetic.digitValue d) 0),
      cs.drop ds.length)
  | c :: cs =>
    if '0' ≤ c && c ≤ '7' then
      let (n, rest) := octalDigits (c :: cs)
      some (Char.ofNat (n % 256), rest)
    else none
  | [] => none

/-- A text with its escapes replaced. The number bounds the steps. -/
def unescaped : Nat → List Char → List Char
  | 0, _ => []
  | _, [] => []
  | n + 1, '\\' :: cs =>
    match escape? cs with
    | some (c, rest) => c :: unescaped n rest
    | none =>
      match cs with
      | '\n' :: rest => unescaped n rest
      | c :: rest => '\\' :: c :: unescaped n rest
      | [] => ['\\']
  | n + 1, c :: cs => c :: unescaped n cs

/-- The text from outside that an assignment brings along, with its escapes replaced. -/
def unescapedText (s : String) : String :=
  String.ofList (unescaped (s.length + 1) s.toList)

/-- The body of a text in quotes with its escapes, and the rest; nothing if its line ends first. -/
def quotedBody? : List Char → List Char → Option (List Char × List Char)
  | _, [] => none
  | done, '"' :: cs => some (done.reverse, cs)
  | _, '\n' :: _ => none
  | done, '\\' :: c :: cs => quotedBody? (c :: '\\' :: done) cs
  | done, c :: cs => quotedBody? (c :: done) cs

/-- The body of a regular expression, and the rest; nothing if its line ends first. A slash
between square brackets belongs to it. `boxed` counts the characters since the opening one. -/
def patternBody? : Option Nat → List Char → List Char → Option (List Char × List Char)
  | _, _, [] => none
  | _, _, '\n' :: _ => none
  | boxed, done, '\\' :: '/' :: cs => patternBody? (boxed.map (· + 1)) ('/' :: done) cs
  | boxed, done, '\\' :: c :: cs =>
    if c == '\n' then none else patternBody? (boxed.map (· + 1)) (c :: '\\' :: done) cs
  | none, done, '/' :: cs => some (done.reverse, cs)
  | none, done, '[' :: cs => patternBody? (some 0) ('[' :: done) cs
  | some k, done, c :: cs =>
    if c == ']' && (1 < k || k == 1 && done.head? != some '^') then
      patternBody? none (c :: done) cs
    else patternBody? (some (k + 1)) (c :: done) cs
  | none, done, c :: cs => patternBody? none (c :: done) cs

/-- How far a script is read into tokens. -/
structure Lexing where
  line : Nat := 1
  brackets : Nat := 0
  braces : Nat := 0
  last : Token := .newline
  /-- The tokens with their lines, last one first. -/
  tokens : List (Nat × Token) := []
  /-- What is told when reading stops early. -/
  fault : Option String := none

namespace Lexing

def add (l : Lexing) (t : Token) : Lexing :=
  { l with tokens := (l.line, t) :: l.tokens, last := t }

/-- A sign, with what it does to the counts of brackets. -/
def addSign (l : Lexing) (s : String) : Lexing :=
  match s with
  | "(" => { l.add (.sign s) with brackets := l.brackets + 1 }
  | ")" =>
    if l.brackets = 0 then { l with tokens := (l.line, .stray "extra \x27)\x27") :: l.tokens }
    else { l.add (.sign s) with brackets := l.brackets - 1 }
  | "\x7b" => { l.add (.sign s) with braces := l.braces + 1 }
  | "\x7d" =>
    if l.braces = 0 then { l with tokens := (l.line, .stray "extra \x27\x7d\x27") :: l.tokens }
    else
      let l := match l.last with
        | .newline => l
        | .ending => l
        | .sign ";" => l
        | .sign "\x7d" => l
        | .sign "\x7b" => l
        | _ => l.add .ending
      { l.add (.sign s) with braces := l.braces - 1 }
  | _ => l.add (.sign s)

end Lexing

/-- A decimal number at the start of a text, and the rest. -/
def decimal? (cs : List Char) : Option (Float × List Char) :=
  match Numerals.mantissa? 10 cs with
  | none => none
  | some (n, places, rest) =>
    let (e, rest) := Numerals.exponent 'e' rest
    some (Numerals.ofDecimal n (e - places), rest)

/-- The tokens of a script. The number bounds the steps. -/
def tokensFrom : Nat → List Char → Lexing → Lexing
  | 0, _, l => l
  | _, [], l =>
    let l := l.add .newline
    { l with line := l.line + 1 }.add .finish
  | n + 1, c :: cs, l =>
    let isNameChar (c : Char) : Bool := c.isAlphanum || c == '_'
    if c == '\n' then
      let l := l.add .newline
      tokensFrom n cs { l with line := l.line + 1 }
    else if isSpace c then tokensFrom n cs l
    else if c == '#' then tokensFrom n (cs.dropWhile (· != '\n')) l
    else if c == '\\' then
      match cs.dropWhile fun c => c == ' ' || c == '\t' || c == '\r' with
      | '\n' :: rest => tokensFrom n rest { l with line := l.line + 1 }
      | _ => tokensFrom n cs (l.add (.stray "unexpected character \x27\\\x27"))
    else if c == '"' then
      match quotedBody? [] cs with
      | some (body, rest) =>
        let l := l.add (.text (String.ofList (unescaped (body.length + 1) body)))
        tokensFrom n rest { l with line := l.line + body.count '\n' }
      | none =>
        let line := String.ofList (cs.takeWhile (· != '\n'))
        { l with fault := some ("runaway string constant \"" ++ line ++ " ...") }
    else if c == '/' && !l.last.isOperand then
      match patternBody? none [] cs with
      | some (body, rest) => tokensFrom n rest (l.add (.pattern (String.ofList body)))
      | none =>
        let line := String.ofList (cs.takeWhile (· != '\n'))
        { l with fault := some ("runaway regular expression /" ++ line ++ " ...") }
    else if c.isDigit || c == '.' then
      match decimal? (c :: cs) with
      | some (x, rest) =>
        let spelled := String.ofList ((c :: cs).take (cs.length + 1 - rest.length))
        let l := if x.isFinite then l
          else { l with tokens := (l.line, .stray (spelled ++ " : decimal overflow")) :: l.tokens }
        tokensFrom n rest (l.add (.number x spelled))
      | none => tokensFrom n cs (l.add (.stray "unexpected character \x27.\x27"))
    else if isNameChar c then
      let name := String.ofList ((c :: cs).takeWhile isNameChar)
      let rest := (c :: cs).drop name.length
      let t : Token :=
        if keywords.contains name then .word name
        else if (readyFunctions.lookup name).isSome then .ready name
        else if rest.head? == some '(' then .call name
        else .name name
      tokensFrom n rest (l.add t)
    else
      match signs.find? fun s => s.toList.isPrefixOf (c :: cs) with
      | some s => tokensFrom n ((c :: cs).drop s.length) (l.addSign s)
      | none =>
        if c == '&' then tokensFrom n cs (l.add (.stray "unexpected character \x27&\x27"))
        else if singleSigns.contains c then
          tokensFrom n cs (l.addSign (String.singleton c))
        else
          tokensFrom n cs (l.add (.stray
            ("unexpected character \x27" ++ String.singleton c ++ "\x27")))

/-- The tokens of a whole script. -/
def tokensOf (s : String) : Lexing :=
  tokensFrom (s.length + 1) s.toList {}

/-- Text in quotes is read up to its end. -/
theorem quotedBody?_end (done cs : List Char) :
    quotedBody? done ('"' :: cs) = some (done.reverse, cs) := by
  simp [quotedBody?]

end PatchSearch.Shell.RecordScript
