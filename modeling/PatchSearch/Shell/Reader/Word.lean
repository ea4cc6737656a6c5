import PatchSearch.Shell.Octets
import PatchSearch.Shell.Script

/-!
What a script is read from: the characters that are left, the line they stand on, a token that
was looked at and put back, and the documents that are announced but not yet read. A backslash in
front of a line feed stands for nothing. Reading stops at the first fault and tells its line.
-/
namespace PatchSearch.Shell

/-- Tokens of scripts. -/
inductive Token where
  | ended
  | newline
  | semicolon
  | background
  | both
  | either
  | bar
  | opening
  | closing
  | branchEnd
  /-- The start of a redirection, up to what it leads to. -/
  | redirection (descriptor : Option Nat) (sign : String)
  | word (parts : Word) (isQuoted : Bool)
  | reserved (name : String)

namespace Token

/-- A token in words. -/
def describe : Token → String
  | ended => "end of file"
  | newline => "newline"
  | semicolon => "\";\""
  | background => "\"&\""
  | both => "\"&&\""
  | either => "\"||\""
  | bar => "\"|\""
  | opening => "\"(\""
  | closing => "\")\""
  | branchEnd => "\";;\""
  | redirection _ _ => "redirection"
  | word _ _ => "word"
  | reserved name => "\"" ++ name ++ "\""

/-- Whether a token ends a list of commands inside of a compound. -/
def endsList : Token → Bool
  | ended => true
  | closing => true
  | branchEnd => true
  | reserved name => closingWords.contains name
  | _ => false

end Token

/-- A fault in a script, and the line it is found on. -/
structure ScriptFault where
  line : Nat
  message : String

/-- A document that is announced: its number, the line that ends it, whether its text is taken as
it is, and whether tabs at the starts of its lines are dropped. -/
structure Announced where
  number : Nat
  ending : List Char
  verbatim : Bool
  dropTabs : Bool

structure Source where
  chars : List Char
  line : Nat := 1
  pushed : Option Token := none
  announced : List Announced := []
  /-- The number of the next document. -/
  nextDocument : Nat := 0
  /-- The documents that were read. -/
  documents : List (Nat × Word) := []
  aliases : List (String × String) := []
  /-- The aliases whose texts are being read, innermost first. -/
  inUse : List String := []
  /-- How many of those texts have come to their ends. -/
  finished : Nat := 0
  /-- Whether the next word may be an alias because the text of one ended in a blank. -/
  aliasNext : Bool := false

/-- A computation that reads from a script. -/
abbrev Reading := StateT Source (Except ScriptFault)

namespace Reading

variable {β : Type}

/-- Stops at the present line. -/
def fault (message : String) : Reading β := do
  throw ⟨(← get).line, message⟩

/-- Stops at a token that has no place here. -/
def unexpected (t : Token) (expecting : Option Token) : Reading β :=
  fault (t.describe ++ " unexpected" ++
    match expecting with
    | some e => " (expecting " ++ e.describe ++ ")"
    | none => "")

/-- The characters behind the text of an alias; the second one lets the next word be an alias
too. -/
def aliasEnd : Char :=
  'Ā'

def aliasEndAtBlank : Char :=
  'ā'

/-- The next character as it stands. What ends the text of an alias is no character. -/
def nextRaw : Reading (Option Char) := do
  let isEnd (c : Char) : Bool := c == aliasEnd || c == aliasEndAtBlank
  let s ← get
  let ends := s.chars.takeWhile isEnd
  let s := if ends.isEmpty then s else
    { s with
      chars := s.chars.drop ends.length
      finished := s.finished + ends.length
      aliasNext := s.aliasNext || ends.contains aliasEndAtBlank }
  match s.chars with
  | [] =>
    set s
    return none
  | c :: cs =>
    set { s with chars := cs }
    return some c

/-- Puts a character back. -/
def putBack (c : Char) : Reading Unit :=
  modify fun s => { s with chars := c :: s.chars }

/-- A text without the line feeds behind backslashes that it starts with, and the line after
them. -/
def dropJoints (line : Nat) : List Char → List Char × Nat
  | '\\' :: '\n' :: cs => dropJoints (line + 1) cs
  | cs => (cs, line)

/-- The next character, after line feeds behind backslashes. -/
def next : Reading (Option Char) := do
  modify fun s =>
    let (chars, line) := dropJoints s.line s.chars
    { s with chars, line }
  nextRaw

/-- Looks at the next character. -/
def peek : Reading (Option Char) := do
  let c ← next
  if let some c := c then putBack c
  return c

/-- Drops the next character if it is a given one. -/
def accept (c : Char) : Reading Bool := do
  match ← next with
  | some d =>
    if c == d then return true
    else
      putBack d
      return false
  | none => return false

/-- The next characters as long as they pass a test. -/
def takeWhile (test : Char → Bool) : Nat → Reading (List Char)
  | 0 => return []
  | n + 1 => do
    match ← next with
    | some c =>
      if test c then return c :: (← takeWhile test n)
      else
        putBack c
        return []
    | none => return []

/-- Counts a line feed. -/
def countLine : Reading Unit :=
  modify fun s => { s with line := s.line + 1 }

/-- A bound on the number of characters that are left. -/
def bound : Reading Nat := do
  return (← get).chars.length + 1

/-- Forgets the aliases whose texts have come to their ends. -/
def leaveAliases : Reading Unit :=
  modify fun s => { s with inUse := s.inUse.drop s.finished, finished := 0 }

def pushBack (t : Token) : Reading Unit :=
  modify fun s => { s with pushed := some t }

end Reading

end PatchSearch.Shell

/-!
Reading words. Inside of double quotes and documents only a dollar sign, a backquote and a
backslash stand for something else, inside of braces everything up to the closing one belongs to
the word, and an arithmetic expression ends at a double parenthesis.
-/
namespace PatchSearch.Shell

/-- What a run of parts ends at. -/
inductive Frame where
  /-- A blank, an operator or the end of the line. -/
  | bare
  /-- A double quote. -/
  | quotes
  /-- A closing brace; `inQuotes` tells whether characters stand for themselves. -/
  | braces (inQuotes : Bool)
  /-- A double parenthesis. -/
  | sums
  /-- The line that ends a document. -/
  | document
  deriving DecidableEq

namespace Frame

/-- Whether plain characters stand for themselves. -/
def isQuoted : Frame → Bool
  | bare => false
  | braces inQuotes => inQuotes
  | _ => true

end Frame

/-- Where parts are read: the frame, the document around it if there is one, and whether a dollar
sign means itself because the word ends a document. -/
structure Place where
  frame : Frame
  within : Option Announced := none
  isEnding : Bool := false

/-- Joins neighbouring pieces of plain text, which are given last one first. -/
def joinPieces (pieces : List Part) : List Part :=
  pieces.foldl (fun ps p =>
    match p, ps with
    | .plain s, .plain t :: rest => .plain (s ++ t) :: rest
    | p, ps => p :: ps) []

/-- Characters that end a bare word. -/
def endsWord (c : Char) : Bool :=
  [' ', '\t', '\n', ';', '&', '|', '(', ')', '<', '>'].contains c

def isSpecialParameter (c : Char) : Bool :=
  c.isDigit || ['$', '@', '*', '#', '?', '-', '!'].contains c

namespace Reading

/-- How the commands inside of words are read: those that fill a text, and those that end with a
closing parenthesis. -/
structure Inner where
  whole : Reading Command
  enclosed : Reading Command

/-- What is missing at the end of the text. -/
def endOfText (place : Place) : Reading Unit :=
  match place.frame with
  | .bare | .document => return
  | .sums => fault "Missing '))'"
  | .quotes => fault "Unterminated quoted string"
  | .braces inQuotes =>
    if inQuotes && place.within.isNone then fault "Unterminated quoted string"
    else fault "Missing '\x7d'"

/-- The text up to a single quote. -/
def untilQuote : Nat → Reading (List Char)
  | 0 => fault "Unterminated quoted string"
  | n + 1 => do
    match ← nextRaw with
    | none => fault "Unterminated quoted string"
    | some '\x27' => return []
    | some c =>
      if c == '\n' then countLine
      return c :: (← untilQuote n)

/-- The text up to a backquote. A backslash in front of a few characters is dropped. -/
def untilBackquote (isQuoted : Bool) : Nat → Reading (List Char)
  | 0 => fault "EOF in backquote substitution"
  | n + 1 => do
    match ← next with
    | none => fault "EOF in backquote substitution"
    | some '\x60' => return []
    | some '\\' =>
      match ← nextRaw with
      | none => fault "EOF in backquote substitution"
      | some c =>
        if ['\\', '\x60', '$'].contains c || isQuoted && c == '"' then
          return c :: (← untilBackquote isQuoted n)
        else return '\\' :: c :: (← untilBackquote isQuoted n)
    | some c =>
      if c == '\n' then countLine
      return c :: (← untilBackquote isQuoted n)

/-- Reads from another text, which has lines of its own, and goes on with the present one. -/
def elsewhere {β : Type} (text : List Char) (act : Reading β) : Reading β := do
  let outer ← get
  set { outer with chars := text, line := 1, pushed := none, announced := [] }
  let result ← act
  modify fun s =>
    { s with
      chars := outer.chars, line := outer.line, pushed := outer.pushed
      announced := outer.announced }
  return result

/-- Whether a text starts with a whole line. -/
def startsWithLine (line : List Char) (cs : List Char) : Bool :=
  line.isPrefixOf cs && ((cs.drop line.length).head?.getD '\n' == '\n')

/-- Looks at the start of a line of a document. Whether the document ends there. -/
def atDocumentEnd (d : Announced) : Reading Bool := do
  if d.dropTabs then
    modify fun s => { s with chars := s.chars.dropWhile (· == '\t') }
  let s ← get
  if s.chars.isEmpty then return true
  else if startsWithLine d.ending s.chars then
    set { s with chars := s.chars.drop (d.ending.length + 1), line := s.line + 1 }
    return true
  else return false

/-- The name of a parameter behind a dollar sign and perhaps a brace; no text if there is none. -/
def parameterName : Reading String := do
  let n ← bound
  match ← peek with
  | none => return ""
  | some c =>
    if isNameStart c then return String.ofList (← takeWhile isNameChar n)
    else if c.isDigit then return String.ofList (← takeWhile Char.isDigit n)
    else return ""

/-- The sign of a fallback. -/
def fallback? (c : Char) : Option Fallback :=
  match c with
  | '-' => some .supply
  | '+' => some .replace
  | '?' => some .refuse
  | '=' => some .assign
  | _ => none

/-- A parameter in braces, after the opening one. `inner` reads up to the closing brace. -/
def bracedParameter (isQuoted : Bool) (inner : Frame → Reading (List Part)) : Reading Part := do
  let word (f : List Part → Change) (name : String) : Reading Part := do
    return .parameter name (f (← inner (.braces isQuoted)))
  let pattern (name : String) (atEnd : Bool) (sign : Char) : Reading Part := do
    let longest ← accept sign
    return .parameter name (.cut atEnd longest (← inner (.braces false)))
  let change (name : String) : Reading Part := do
    match ← next with
    | none => word (fun _ => .invalid) name
    | some '\x7d' => return .parameter name .keep
    | some '%' => pattern name true '%'
    | some '#' => pattern name false '#'
    | some ':' =>
      match ← next with
      | none => word (fun _ => .invalid) name
      | some '\x7d' => word (fun _ => .keep) name
      | some c =>
        match fallback? c with
        | some kind => word (.fallback kind true) name
        | none => word (fun _ => .invalid) name
    | some c =>
      match fallback? c with
      | some kind => word (.fallback kind false) name
      | none => word (fun _ => .invalid) name
  let name ← parameterName
  if !name.isEmpty then change name
  else
    match ← next with
    | none => word (fun _ => .invalid) ""
    | some '#' =>
      let counted ← parameterName
      if !counted.isEmpty then
        let isWhole := (← peek).any (· == '\x7d')
        word (fun _ => if isWhole then .size else .invalid) counted
      else
        match ← next with
        | none => word (fun _ => .invalid) "#"
        | some c =>
          if c == '\x7d' then return .parameter "#" .keep
          else
            match ← peek with
            | some '\x7d' =>
              if isSpecialParameter c then word (fun _ => .size) (String.ofList [c])
              else word (fun _ => .invalid) ""
            | _ =>
              putBack c
              change "#"
    | some c =>
      if isSpecialParameter c then change (String.ofList [c])
      else
        putBack c
        word (fun _ => .invalid) ""

/-- What stands behind a dollar sign. `script` reads the commands of substitutions, and `inner`
parts up to the end of a frame. -/
def expansion (script : Inner) (place : Place) (inner : Frame → Reading (List Part)) :
    Reading Part := do
  if place.isEnding then return .plain "$"
  else
    match ← peek with
    | some '(' =>
      discard next
      if ← accept '(' then return .arithmetic (← inner .sums)
      else
        let outer := (← get).announced
        modify fun s => { s with announced := [] }
        let body ← script.enclosed
        modify fun s => { s with announced := outer }
        return .output body
    | some '\x7b' =>
      discard next
      bracedParameter place.frame.isQuoted inner
    | some c =>
      if isNameStart c then return .parameter (← parameterName) .keep
      else if isSpecialParameter c then
        discard next
        return .parameter (String.ofList [c]) .keep
      else return .plain "$"
    | none => return .plain "$"

/-- Whether a backslash in quotes protects a character. -/
def isProtected (place : Place) (c : Char) : Bool :=
  let inBraces := match place.frame with
    | .braces _ => true
    | _ => false
  c == '\\' || c == '\x60' || c == '$' ||
    (c == '"' && !(place.within.isSome && !inBraces)) || (c == '\x7d' && inBraces)

/-- The parts up to the end of a frame, newest first. `depth` is the number of open parentheses of
an expression, and `inner` tells whether quotes are open inside of quoted braces. -/
def pieces (script : Inner) :
    Nat → Place → Nat → Bool → List Part → Reading (List Part)
  | 0, _, _, _, _ => fault "text too long"
  | n + 1, place, depth, inner, done => do
    let quoted := place.frame.isQuoted
    let go (p : Part) : Reading (List Part) := pieces script n place depth inner (p :: done)
    let nested (frame : Frame) : Reading (List Part) := do
      return joinPieces
        (← pieces script n { frame, within := place.within, isEnding := place.isEnding } 0 false [])
    match ← next with
    | none =>
      endOfText place
      return done
    | some c =>
      let literal : Reading (List Part) := go (.plain (String.ofList [c]))
      match c with
      | '\n' =>
        if place.frame == .bare then
          putBack c
          return done
        else
          countLine
          match place.within with
          | some d =>
            if ← atDocumentEnd d then
              if place.frame == .document then return .plain "\n" :: done
              else
                modify fun s => { s with chars := [] }
                endOfText place
                return done
            else literal
          | none => literal
      | '\\' =>
        match ← nextRaw with
        | none => go (.plain "\\")
        | some d =>
          if d == '\n' then countLine
          if !quoted then go (.escaped (String.ofList [d]))
          else if isProtected place d then go (.plain (String.ofList [d]))
          else go (.plain (String.ofList ['\\', d]))
      | '$' => go (← expansion script place nested)
      | '\x60' =>
        if place.isEnding then literal
        else
          let text ← untilBackquote quoted (← bound)
          go (.output (← elsewhere text script.whole))
      | '"' =>
        match place.frame with
        | .bare => go (.quoted (← nested .quotes))
        | .braces false => go (.quoted (← nested .quotes))
        | .quotes => return done
        | .braces true => pieces script n place depth (!inner) done
        | .sums => pieces script n place depth inner done
        | .document => literal
      | '\x27' =>
        if quoted then literal
        else go (.quoted [.plain (String.ofList (← untilQuote (← bound)))])
      | '\x7d' =>
        match place.frame with
        | .braces _ => if inner then literal else return done
        | _ => literal
      | '(' =>
        match place.frame with
        | .sums => pieces script n place (depth + 1) inner (.plain "(" :: done)
        | .bare =>
          putBack c
          return done
        | _ => literal
      | ')' =>
        match place.frame with
        | .sums =>
          if 0 < depth then pieces script n place (depth - 1) inner (.plain ")" :: done)
          else if ← accept ')' then return done
          else literal
        | .bare =>
          putBack c
          return done
        | _ => literal
      | c =>
        if place.frame == .bare && endsWord c then
          putBack c
          return done
        else literal

/-- The parts of a word at the start of the text, and whether any of it is quoted. -/
def word (script : Inner) (isEnding : Bool) : Reading Word := do
  return joinPieces (← pieces script (← bound) { frame := .bare, isEnding } 0 false [])

/-- The text of an announced document, which starts here. -/
def document (script : Inner) (d : Announced) : Reading Word := do
  if ← atDocumentEnd d then return []
  else if d.verbatim then
    let rec lines : Nat → Reading (List Char)
      | 0 => return []
      | n + 1 => do
        match ← nextRaw with
        | none => return []
        | some '\n' =>
          countLine
          if ← atDocumentEnd d then return ['\n'] else return '\n' :: (← lines n)
        | some c => return c :: (← lines n)
    return [.plain (String.ofList (← lines (← bound)))]
  else
    let place : Place := { frame := .document, within := some d }
    return joinPieces (← pieces script (← bound) place 0 false [])

/-- Reads the documents that are announced. -/
def documents (script : Inner) : Reading Unit := do
  let announced := (← get).announced
  modify fun s => { s with announced := [] }
  for d in announced.reverse do
    let body ← document script d
    modify fun s => { s with documents := (d.number, body) :: s.documents }

end Reading

/-- The parts of a text in which all but parameters stands for itself; nothing if it holds a
command or a fault. -/
def parameterText? (text : String) : Option Word :=
  let refused : Reading Command := Reading.fault "no place for commands"
  let read : Reading Word := Reading.document ⟨refused, refused⟩ ⟨0, ['\x00'], false, false⟩
  ((read.run { chars := text.toList }).toOption).map Prod.fst

/-- Whether any part of a word is quoted. -/
def Word.hasQuotes (w : Word) : Bool :=
  w.any fun p =>
    match p with
    | .quoted _ => true
    | .escaped _ => true
    | _ => false

end PatchSearch.Shell
