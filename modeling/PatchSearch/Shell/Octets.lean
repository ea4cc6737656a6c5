import PatchSearch.Text.Basic

/-!
Octet strings. A shell works on bytes; here a string of bytes is a string whose characters are
the bytes, each below 256. Texts become octets through UTF-8 and octets become texts again when
they name a file. Where characters matter, octets are spelled out, and an octet that belongs to no
character stands for itself.
-/
namespace PatchSearch.Shell

def octetsOfBytes (bytes : ByteArray) : String :=
  String.ofList (bytes.toList.map fun b => Char.ofNat b.toNat)

/-- The octets of a text. -/
def octets (s : String) : String :=
  octetsOfBytes (Text.encode s)

/-- The bytes of an octet string. -/
def octetBytes (s : String) : ByteArray :=
  (s.toList.map fun c => UInt8.ofNat c.toNat).toByteArray

/-- The text that octets stand for. -/
def textOfOctets (s : String) : String :=
  Text.decodeLossy (octetBytes s)

/-- Octets that belong to no character stand for themselves from this number on. -/
def strayBase : Nat := 0x10FF00

/-- Whether a character stands for an octet that belongs to none. -/
def isStray (c : Char) : Bool :=
  strayBase + 128 ≤ c.toNat

/-- The characters that octets spell, behind some octets that are read already. -/
def spellFrom : Nat → List Char → List Char
  | _, [] => []
  | skip + 1, _ :: cs => spellFrom skip cs
  | 0, c :: cs =>
    let stray := Char.ofNat (strayBase + c.toNat)
    match Text.leadByte (UInt8.ofNat c.toNat) with
    | none => stray :: spellFrom 0 cs
    | some (length, low, high) =>
      let found := Text.continued low high (length - 1)
        ((cs.take 3).map fun c => UInt8.ofNat c.toNat)
      if found + 1 = length then
        let lead := if length = 1 then c.toNat else c.toNat % Nat.pow 2 (7 - length)
        Char.ofNat ((cs.take found).foldl (fun n c => n * 64 + c.toNat % 64) lead) ::
          spellFrom found cs
      else stray :: spellFrom 0 cs

/-- The characters that octets spell. -/
def spell (s : String) : String :=
  if s.toList.all fun c => c.toNat < 128 then s else String.ofList (spellFrom 0 s.toList)

/-- The octets that spell characters. -/
def unspell (s : String) : String :=
  if s.toList.all fun c => c.toNat < 128 then s
  else
    String.join (s.toList.map fun c =>
      if isStray c then String.singleton (Char.ofNat (c.toNat - strayBase))
      else octets (String.singleton c))

/-- Changes octets by changing the characters that they spell. -/
def onCharacters (s : String) (f : String → String) : String :=
  unspell (f (spell s))

def isSpace (c : Char) : Bool :=
  c == ' ' || (9 ≤ c.toNat && c.toNat ≤ 13)

def isNameStart (c : Char) : Bool :=
  c.isAlpha || c == '_'

def isNameChar (c : Char) : Bool :=
  c.isAlphanum || c == '_'

/-- Whether a text can name a variable. -/
def isName (s : String) : Bool :=
  match s.toList with
  | c :: cs => isNameStart c && cs.all isNameChar
  | [] => false

/-- A decimal number with an optional sign. -/
def integer? (s : String) : Option Int :=
  let digits (cs : List Char) : Option Nat :=
    if cs.isEmpty || !cs.all Char.isDigit then none
    else some (cs.foldl (fun n c => 10 * n + (c.toNat - 48)) 0)
  match s.toList with
  | '-' :: cs => (digits cs).map fun n => -(n : Int)
  | '+' :: cs => (digits cs).map fun n => (n : Int)
  | cs => (digits cs).map fun n => (n : Int)

/-- The lines of a text, without line feeds; a line feed at the end starts no further line. -/
def splitLines (s : String) : List String :=
  let parts := s.splitOn "\n"
  if parts.getLast? == some "" then parts.dropLast else parts

/-- Lines, each ended by a line feed. -/
def joinLines (lines : List String) : String :=
  String.join (lines.map (· ++ "\n"))

end PatchSearch.Shell

/-!
Names and arguments in messages. Single quotes are put around a name so that a shell would read it
again; curly quotes only mark an argument. In both, what cannot be shown is spelled by a backslash
and a letter or an octal number.
-/
namespace PatchSearch.Shell

/-- The letter that spells a control character behind a backslash. -/
def controlLetter? (c : Char) : Option Char :=
  ("abtnvfr".toList.zip ((List.range 7).map (· + 7))).findSome? fun (letter, n) =>
    if c.toNat = n then some letter else none

/-- Whether a character has no form of its own. -/
def isUnprintable (c : Char) : Bool :=
  let n := c.toNat
  isStray c || n < 32 || (127 ≤ n && n < 160) || n = 0x2028 || n = 0x2029 || 0xFFFE ≤ n % 0x10000

/-- A character behind backslashes: its letter, or the octal numbers of its octets. -/
def escapesOf (c : Char) : String :=
  match controlLetter? c with
  | some letter => String.ofList ['\\', letter]
  | none =>
    let digit (n : Nat) : Char := Char.ofNat (48 + n % 8)
    String.join ((unspell (String.singleton c)).toList.map fun o =>
      let n := o.toNat
      String.ofList ['\\', digit (n / 64), digit (n / 8), digit n])

/-- An argument between the quotation marks of messages. -/
def cited (s : String) : String :=
  let shown (c : Char) : String :=
    if c == '\\' || c == '’' then "\\" ++ octets (String.singleton c)
    else if isUnprintable c then escapesOf c
    else octets (String.singleton c)
  octets "‘" ++ String.join ((spell s).toList.map shown) ++ octets "’"

/-- A name without quotes, in which backslashes and some special characters have one in front. -/
def escaped (special : String) (s : String) : String :=
  let shown (c : Char) : String :=
    if c == '\\' || special.toList.contains c then String.ofList ['\\', c]
    else if isUnprintable c then escapesOf c
    else octets (String.singleton c)
  String.join ((spell s).toList.map shown)

/-- Whether a text must stand in quotes to be one word that stands for itself. -/
def needsQuotes (special : String) (s : String) : Bool :=
  let cs := (spell s).toList
  cs.isEmpty || cs == ['\x7b'] || cs == ['\x7d'] || cs.head?.any ("#~".toList.contains ·) ||
    cs.any fun c => (" !\"$&()*;<=>[^\x60|?\x27\\\t\n\r" ++ special).toList.contains c

/-- Whether a text with single quotes in it can stand in double quotes as it is. -/
def fitsDoubleQuotes (cs : List Char) : Bool :=
  cs.zipIdx.all fun (c, i) =>
    c.isAlphanum || "%+,-./:]_@ \x27".toList.contains c || (i = 0 && "#~".toList.contains c) ||
      (128 ≤ c.toNat && !isUnprintable c)

/-- The characters of a word in single quotes, with the closing one. `escaping` tells whether
backslashes are read where they stand. -/
def insideQuotes (escapes : Bool) : Bool → List Char → String
  | _, [] => "\x27"
  | escaping, c :: cs =>
    if c == '\x27' then "\x27\\\x27\x27" ++ insideQuotes escapes false cs
    else if escapes && isUnprintable c then
      (if escaping then "" else "\x27$\x27") ++ escapesOf c ++ insideQuotes escapes true cs
    else
      (if escaping then "\x27\x27" else "") ++ octets (String.singleton c) ++
        insideQuotes escapes false cs

/-- A text in the quotes that a shell needs; `escapes` tells whether unprintable characters are
spelled. One that holds a quote and ends in an escape starts as if it stood behind an escape. -/
def quoted (escapes : Bool) (s : String) : String :=
  let cs := (spell s).toList
  if cs.contains '\x27' && fitsDoubleQuotes cs then "\"" ++ s ++ "\""
  else if escapes then
    "\x27" ++ insideQuotes true (cs.contains '\x27' && cs.getLast?.any isUnprintable) cs
  else "\x27" ++ insideQuotes false false s.toList

/-- A text in double quotes, with backslashes in front of special characters. -/
def doubleQuoted (special : String) (s : String) : String :=
  "\"" ++ escaped ("\"" ++ special) s ++ "\""

/-- How names are written: as they are, as words of a shell that are quoted always or where they
need it, in double quotes, with escapes alone, or between curly quotes. -/
inductive QuotingStyle where
  | plain
  | shell (always escapes : Bool)
  | double (always : Bool)
  | escaping
  | curly
  deriving DecidableEq

namespace QuotingStyle

/-- The styles by name. -/
def named : List (String × QuotingStyle) :=
  [("literal", plain), ("shell", shell false false), ("shell-always", shell true false),
    ("shell-escape", shell false true), ("shell-escape-always", shell true true),
    ("c", double true), ("c-maybe", double false), ("escape", escaping), ("locale", curly),
    ("clocale", curly)]

/-- Whether a style puts some names in quotes and others not. -/
def isMixed : QuotingStyle → Bool
  | shell always _ => !always
  | double always => !always
  | _ => false

/-- Whether a name stands in quotes. -/
def quotes (q : QuotingStyle) (special s : String) : Bool :=
  let unprintable := (spell s).toList.any isUnprintable
  match q with
  | shell always escapes => always || needsQuotes special s || (escapes && unprintable)
  | double always =>
    always || unprintable || s.toList.any fun c => c == '"' || special.toList.contains c
  | curly => true
  | _ => false

/-- A name in a style, where some more characters are special. -/
def text (q : QuotingStyle) (special s : String) : String :=
  match q with
  | plain => s
  | escaping => escaped special s
  | curly => cited s
  | shell _ escapes => if q.quotes special s then quoted escapes s else s
  | double _ => if q.quotes special s then doubleQuoted special s else s

end QuotingStyle

/-- A name between quotes so that a shell could read it. -/
def inQuotes (s : String) : String :=
  quoted true s

/-- A name as it is shown in front of a message, in quotes where it needs them. -/
def shownName (s : String) : String :=
  if needsQuotes ":" s || (spell s).toList.any isUnprintable then inQuotes s else s

/-- A word of a command, in quotes where it needs them. -/
def shownWord (s : String) : String :=
  if needsQuotes "" s then quoted false s else s

example : shownName "a:b" = "\x27a:b\x27" := by decide +kernel

example : shownName "it\x27s" = "\"it\x27s\"" := by decide +kernel

example : inQuotes "a\nb" = "\x27a\x27$\x27\\n\x27\x27b\x27" := by decide +kernel

end PatchSearch.Shell
