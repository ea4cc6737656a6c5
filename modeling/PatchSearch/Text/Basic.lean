/-!
Blank characters and trimming. A character is blank when Unicode gives it the property
`White_Space`. `trim` removes the blanks at both ends of a text and `indent` is the blank run
at its start.
-/
namespace PatchSearch.Text

/-- The characters with the Unicode property `White_Space`. -/
def isBlank (c : Char) : Bool :=
  let n := c.toNat
  (9 ≤ n && n ≤ 13) || n == 32 || n == 0x85 || n == 0xA0 || n == 0x1680 ||
    (0x2000 ≤ n && n ≤ 0x200A) || n == 0x2028 || n == 0x2029 || n == 0x202F ||
    n == 0x205F || n == 0x3000

theorem isBlank_of_isWhitespace (c : Char) (h : c.isWhitespace = true) : isBlank c = true := by
  simp only [Char.isWhitespace, Bool.or_eq_true, decide_eq_true_eq] at h
  rcases h with ((h | h) | h) | h <;> subst h <;> decide

/-- The blank run a text starts with. -/
def indent (cs : List Char) : List Char :=
  cs.takeWhile isBlank

def trimStart (cs : List Char) : List Char :=
  cs.dropWhile isBlank

def trimEnd (cs : List Char) : List Char :=
  (cs.reverse.dropWhile isBlank).reverse

/-- A text without the blanks at its two ends. -/
def trim (cs : List Char) : List Char :=
  trimEnd (trimStart cs)

theorem indent_append_trimStart (cs : List Char) : indent cs ++ trimStart cs = cs :=
  List.takeWhile_append_dropWhile

/-- `trim` on strings. -/
def trimString (s : String) : String :=
  String.ofList (trim s.toList)

/-!
Texts as lines. A line feed ends a line, and one carriage return directly before it belongs to
the line break; a last line without a line feed keeps its carriage return. An empty text has no
lines, and a line feed at the very end starts no further line.
-/

/-- Drops the carriage return that a reversed line starts with. -/
def dropReturn : List Char → List Char
  | '\r' :: cs => cs
  | cs => cs

/-- The lines of a text of which `pending`, reversed, has been read already. -/
def linesFrom (pending : List Char) : List Char → List (List Char)
  | [] => if pending.isEmpty then [] else [pending.reverse]
  | c :: cs =>
    if c = '\n' then (dropReturn pending).reverse :: linesFrom [] cs
    else linesFrom (c :: pending) cs

/-- The lines of a text, without their line breaks. -/
def lines (cs : List Char) : List (List Char) :=
  linesFrom [] cs

/-- `lines` on strings. -/
def stringLines (s : String) : List String :=
  (lines s.toList).map String.ofList

/-- Whether a carriage return is directly followed by a line feed somewhere. -/
def hasReturnBreak : List Char → Bool
  | '\r' :: '\n' :: _ => true
  | _ :: cs => hasReturnBreak cs
  | [] => false

/-- The line break a text is written with: the one with a carriage return as soon as the text
has it anywhere. -/
def lineBreak (cs : List Char) : List Char :=
  if hasReturnBreak cs then ['\r', '\n'] else ['\n']

def endsWithBreak (cs : List Char) : Bool :=
  cs.getLast? == some '\n'

/-- Lines written as one text, each two of them apart by `separator`. -/
def joinWith (separator : List Char) : List (List Char) → List Char
  | [] => []
  | [l] => l
  | l :: l' :: ls => l ++ separator ++ joinWith separator (l' :: ls)

theorem lines_nil : lines [] = [] := rfl

theorem lines_break (cs : List Char) : lines ('\n' :: cs) = [] :: lines cs := by
  simp [lines, linesFrom, dropReturn]

/-!
Texts and their UTF-8 bytes. `decode?` refuses bytes that are not UTF-8, and `decodeLossy` puts
the replacement character for each longest run of bytes that starts a character but does not
finish it, and for each byte that starts none.
-/

def encode (s : String) : ByteArray :=
  s.toUTF8

def decode? (bytes : ByteArray) : Option String :=
  String.fromUTF8? bytes

/-- The length a first byte announces, and the range the second byte has to lie in. -/
def leadByte (b : UInt8) : Option (Nat × UInt8 × UInt8) :=
  if b < 0x80 then some (1, 0, 0)
  else if b < 0xC2 then none
  else if b < 0xE0 then some (2, 0x80, 0xBF)
  else if b == 0xE0 then some (3, 0xA0, 0xBF)
  else if b == 0xED then some (3, 0x80, 0x9F)
  else if b < 0xF0 then some (3, 0x80, 0xBF)
  else if b == 0xF0 then some (4, 0x90, 0xBF)
  else if b < 0xF4 then some (4, 0x80, 0xBF)
  else if b == 0xF4 then some (4, 0x80, 0x8F)
  else none

/-- How many of the bytes after a first byte continue its character, at most `wanted`. -/
def continued (low high : UInt8) : Nat → List UInt8 → Nat
  | 0, _ => 0
  | _, [] => 0
  | wanted + 1, b :: bs =>
    if low ≤ b && b ≤ high then continued 0x80 0xBF wanted bs + 1 else 0

/-- Reads the bytes left after `skip` of them. -/
def decodeLossyFrom : Nat → List UInt8 → List UInt8
  | _, [] => []
  | skip + 1, _ :: bs => decodeLossyFrom skip bs
  | 0, b :: bs =>
    match leadByte b with
    | none => [0xEF, 0xBF, 0xBD] ++ decodeLossyFrom 0 bs
    | some (length, low, high) =>
      let found := continued low high (length - 1) bs
      if found + 1 = length then b :: bs.take found ++ decodeLossyFrom found bs
      else [0xEF, 0xBF, 0xBD] ++ decodeLossyFrom found bs

def decodeLossy (bytes : ByteArray) : String :=
  match decode? bytes with
  | some s => s
  | none => (decode? (decodeLossyFrom 0 bytes.toList).toByteArray).getD ""

end PatchSearch.Text
