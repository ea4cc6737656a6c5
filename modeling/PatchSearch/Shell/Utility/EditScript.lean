import PatchSearch.Shell.Regex.Reader
import PatchSearch.Shell.Utility.Streams

/-!
Scripts for editing lines: commands in a row, each with addresses that tell which lines it applies
to. A fault is told together with how much of the script has been read.
-/
namespace PatchSearch.Shell

/-- Where a command of an edit applies. -/
inductive Address where
  | line (n : Nat)
  | last
  /-- The lines with a match of an expression; without one, of the expression used last. -/
  | matching (r : Option Regex)
  | every (first step : Nat)
  /-- So many lines behind the first address. -/
  | behind (n : Nat)
  /-- The next line behind the first address whose number is a multiple. -/
  | multiple (n : Nat)

/-- How matches are replaced: which ones, by what, and where the result is written besides. -/
structure Substitution where
  pattern : Option Regex
  replacement : List Char
  everywhere : Bool := false
  nth : Nat := 1
  shown : Bool := false
  file : Option String := none

inductive EditAction where
  | substitute (s : Substitution)
  | print
  | printFirst
  | delete
  | deleteFirst
  | quit (code : Nat) (silent : Bool)
  | number
  | fileName
  /-- The space with all its characters made visible, in lines of some width. -/
  | list (width : Option Nat)
  | text (place : Char) (s : String)
  | transliterate (source target : List Char)
  | nextLine
  | joinLine
  | store (joined : Bool)
  | recall (joined : Bool)
  | exchange
  | clear
  /-- A file is put behind the line, or the next line of a file. -/
  | insertFile (name : String) (oneLine : Bool)
  /-- The space is written to a file, or its first line. -/
  | writeFile (name : String) (firstLine : Bool)
  | label (name : String)
  | jump (condition : Char) (name : String)
  /-- Commands in braces; their number. -/
  | block (size : Nat)

/-- A command of an edit script: one address, a range, or neither, and perhaps its complement. -/
structure EditCommand where
  first : Option Address
  second : Option Address
  negated : Bool
  action : EditAction

/-- A fault in an edit script, and how many characters are left behind it. -/
structure EditFault where
  left : Nat
  message : String

/-- How far a text has been read with regard to brackets. -/
inductive BracketState where
  | outside
  /-- So many characters behind an opening bracket, where a closing one stands for itself. -/
  | opened
  | inside
  /-- In a name between a bracket and a mark. -/
  | named (mark : Char)
  deriving DecidableEq

namespace BracketState

/-- The state behind a character, given the one after it. -/
def after (s : BracketState) (c : Char) (next : Option Char) : BracketState :=
  match s with
  | .outside => if c == '[' then .opened else .outside
  | .opened => if c == '^' then .opened else if c == ']' then .inside else within c next
  | .inside => if c == ']' then .outside else within c next
  | .named mark => if c == ']' then .inside else .named mark
where
  within (c : Char) (next : Option Char) : BracketState :=
    match next with
    | some mark =>
      if c == '[' && [':', '.', '='].contains mark then .named mark else .inside
    | none => .inside

end BracketState

/-- A text up to a separator that no backslash protects, and the rest after it, or what is left
where a line ends before. In a bracket the separator counts for nothing if the text is a
pattern. -/
def untilSeparator (separator : Char) (isPattern : Bool) :
    BracketState → List Char → Except (List Char) (List Char × List Char)
  | _, [] => .error []
  | _, ['\\'] => .error []
  | s, '\\' :: d :: cs =>
    if s == .outside then
      (untilSeparator separator isPattern s cs).map fun (a, b) =>
        (if d == separator then d :: a else '\\' :: d :: a, b)
    else (untilSeparator separator isPattern (s.after '\\' (some d)) (d :: cs)).map fun (a, b) =>
      ('\\' :: a, b)
  | s, c :: cs =>
    if c == separator && s == .outside then .ok ([], cs)
    else if c == '\n' && s == .outside then .error (c :: cs)
    else
      let s := if isPattern then s.after c cs.head? else s
      (untilSeparator separator isPattern s cs).map fun (a, b) => (c :: a, b)

namespace EditScript

/-- A part of a script up to a separator, or a fault. -/
def part (separator : Char) (isPattern : Bool) (cs : List Char) (fault : String) :
    Except EditFault (List Char × List Char) :=
  match untilSeparator separator isPattern .outside cs with
  | .ok r => .ok r
  | .error rest => .error ⟨rest.length, fault⟩

/-- A number at the start of a text. -/
def leading? (cs : List Char) : Option (Nat × List Char) :=
  let ds := cs.takeWhile Char.isDigit
  if ds.isEmpty then none
  else some (ds.foldl (fun n c => 10 * n + (c.toNat - 48)) 0, cs.drop ds.length)

/-- The character of a code in some base, of so many digits, and the rest. -/
def coded? (base most : Nat) (cs : List Char) : Option (Char × List Char) :=
  let value? (c : Char) : Option Nat :=
    let v := if c.isDigit then c.toNat - 48 else if c.isAlpha then c.toLower.toNat - 87 else base
    if v < base then some v else none
  let ds := ((cs.take most).takeWhile fun c => (value? c).isSome)
  if ds.isEmpty then none
  else some (Char.ofNat (ds.foldl (fun n c => n * base + (value? c).getD 0) 0 % 256),
    cs.drop ds.length)

/-- The character that a letter behind a backslash denotes. -/
def denoted? (c : Char) (cs : List Char) : Option (Char × List Char) :=
  match c with
  | 'a' => some ('\x07', cs)
  | 'f' => some ('\x0c', cs)
  | 'n' => some ('\n', cs)
  | 'r' => some ('\r', cs)
  | 't' => some ('\t', cs)
  | 'v' => some ('\x0b', cs)
  | 'd' => coded? 10 3 cs
  | 'o' => coded? 8 3 cs
  | 'x' => coded? 16 2 cs
  | 'c' =>
    match cs with
    | d :: rest => some (Char.ofNat (d.toUpper.toNat ^^^ 64), rest)
    | [] => none
  | _ => none

/-- A text with the characters that letters behind backslashes denote; such a character keeps a
backslash in front of it if it is one of some `marks`. -/
def plain (marks : List Char) : Nat → List Char → List Char
  | 0, cs => cs
  | n + 1, '\\' :: c :: cs =>
    match denoted? c cs with
    | some (d, rest) =>
      (if marks.contains d then ['\\', d] else [d]) ++ plain marks n rest
    | none => '\\' :: c :: plain marks n cs
  | n + 1, c :: cs => c :: plain marks n cs
  | _, [] => []

/-- How the matches of an expression are looked for. -/
structure MatchFlags where
  folds : Bool := false
  manyLines : Bool := false

/-- A regular expression of a script, which ends so many characters before the script does;
nothing if it is empty. -/
def regex (extended : Bool) (cs : List Char) (f : MatchFlags) (left : Nat) :
    Except EditFault (Option Regex) :=
  if cs.isEmpty then .ok none
  else
    let style := if extended then RegexStyle.extended true else RegexStyle.basic true
    match Regex.read style (String.ofList (plain ['\\'] cs.length cs)) with
    | .error text => .error ⟨left, text⟩
    | .ok r =>
      let r := if f.folds then r.foldCase else r
      .ok (some (if f.manyLines then r.withLines else r))

/-- How a substitution goes about its matches. -/
structure SubstituteFlags where
  everywhere : Bool := false
  shown : Bool := false
  look : MatchFlags := {}
  nth : Option Nat := none
  file : Option String := none

/-- The name of a file up to the end of the line. -/
def nameArgument (cs : List Char) : Except EditFault (String × List Char) :=
  let cs := cs.dropWhile fun c => c == ' ' || c == '\t'
  let name := cs.takeWhile (· != '\n')
  if name.isEmpty then .error ⟨cs.length, "missing filename in r/R/w/W commands"⟩
  else .ok (String.ofList name, cs.drop name.length)

/-- The flags behind a substitution, and what comes after them. -/
def substituteFlags : Nat → SubstituteFlags → List Char →
    Except EditFault (SubstituteFlags × List Char)
  | 0, f, cs => .ok (f, cs)
  | _, f, [] => .ok (f, [])
  | n + 1, f, c :: cs =>
    let several (what : String) : EditFault :=
      ⟨cs.length, "multiple " ++ what ++ " options to \x60s\x27 command"⟩
    match c with
    | 'g' =>
      if f.everywhere then .error (several "\x60g\x27")
      else substituteFlags n { f with everywhere := true } cs
    | 'p' =>
      if f.shown then .error (several "\x60p\x27")
      else substituteFlags n { f with shown := true } cs
    | 'w' => do
      let (name, rest) ← nameArgument cs
      return ({ f with file := some name }, rest)
    | ' ' => substituteFlags n f cs
    | c =>
      if c == 'i' || c == 'I' then substituteFlags n { f with look.folds := true } cs
      else if c == 'm' || c == 'M' then substituteFlags n { f with look.manyLines := true } cs
      else if ['\n', ';', '\x7d', '#'].contains c then .ok (f, c :: cs)
      else
        match leading? (c :: cs) with
        | some (k, rest) =>
          if f.nth.isSome then .error ⟨rest.length, "multiple number options to \x60s\x27 command"⟩
          else if k = 0 then
            .error ⟨rest.length, "number option to \x60s\x27 command may not be zero"⟩
          else substituteFlags n { f with nth := some k } rest
        | none => .error ⟨cs.length, "unknown option to \x60s\x27"⟩

/-- The highest group that a replacement refers to. -/
def highestGroup : List Char → Nat
  | '\\' :: c :: cs => max (if c.isDigit then c.toNat - 48 else 0) (highestGroup cs)
  | _ :: cs => highestGroup cs
  | [] => 0

/-- The flags behind the expression of an address. -/
def matchFlags (f : MatchFlags) : List Char → MatchFlags × List Char
  | 'I' :: cs => matchFlags { f with folds := true } cs
  | 'M' :: cs => matchFlags { f with manyLines := true } cs
  | cs => (f, cs)

/-- An address at the start of a script. -/
def address? (extended : Bool) (isSecond : Bool) (cs : List Char) :
    Except EditFault (Option Address × List Char) := do
  let matching (separator : Char) (cs : List Char) :
      Except EditFault (Option Address × List Char) := do
    let (r, rest) ← part separator true cs "unterminated address regex"
    let (f, rest) := matchFlags {} rest
    return (some (.matching (← regex extended r f rest.length)), rest)
  let counted (make : Nat → Address) (rest : List Char) : Option Address × List Char :=
    match if isSecond then leading? rest else none with
    | some (n, rest) => (some (make n), rest)
    | none => (none, cs)
  match cs with
  | '$' :: cs => return (some .last, cs)
  | '/' :: cs => matching '/' cs
  | '\\' :: c :: cs => matching c cs
  | '+' :: rest =>
    if !isSecond then throw ⟨rest.length - 1, "invalid usage of +N or ~N as first address"⟩
    return counted .behind rest
  | '~' :: rest =>
    if !isSecond then throw ⟨rest.length - 1, "invalid usage of +N or ~N as first address"⟩
    return counted .multiple rest
  | cs =>
    match leading? cs with
    | none => return (none, cs)
    | some (n, '~' :: rest) =>
      match leading? rest with
      | some (step, rest) => return (some (.every n step), rest)
      | none => return (some (.line n), rest)
    | some (n, rest) => return (some (.line n), rest)

/-- A text behind a command that puts it in front of, behind or in place of a line. -/
def textArgument (cs : List Char) : List Char × List Char :=
  let isBlank (c : Char) : Bool := c == ' ' || c == '\t'
  let cs := cs.dropWhile isBlank
  let rec go : Nat → List Char → List Char → List Char × List Char
    | 0, cs, done => (done.reverse, cs)
    | n + 1, '\\' :: c :: cs, done =>
      match denoted? c cs with
      | some (d, rest) => go n rest (d :: done)
      | none => go n cs (c :: done)
    | _, ['\\'], done => (('\n' :: done).reverse, [])
    | _, '\n' :: cs, done => (('\n' :: done).reverse, cs)
    | n + 1, c :: cs, done => go n cs (c :: done)
    | _, [], done => (('\n' :: done).reverse, [])
  match cs with
  | '\\' :: cs =>
    match cs.dropWhile isBlank with
    | '\n' :: cs => if cs.isEmpty then ([], []) else go (cs.length + 1) cs []
    | _ =>
      match cs with
      | ['\\'] => go 0 [] ['\n']
      | c :: rest => go (cs.length + 1) rest [c]
      | [] => ([], [])
  | cs => go (cs.length + 1) cs []

/-- A name of a place in a script. -/
def labelArgument (cs : List Char) : String × List Char :=
  let cs := cs.dropWhile (· == ' ')
  let name := cs.takeWhile fun c => c != '\n' && c != ';' && c != '\x7d' && c != ' '
  (String.ofList name, cs.drop name.length)

/-- A number that may stand behind a command. -/
def numberArgument (cs : List Char) : Option Nat × List Char :=
  match leading? (cs.dropWhile (· == ' ')) with
  | some (n, rest) => (some n, rest)
  | none => (none, cs)

/-- A command of an edit script at its letter, except for a block. -/
def action (extended : Bool) (c : Char) (cs : List Char) :
    Except EditFault (EditAction × List Char) := do
  match c with
  | 'p' => return (.print, cs)
  | 'P' => return (.printFirst, cs)
  | 'd' => return (.delete, cs)
  | 'D' => return (.deleteFirst, cs)
  | 'q' => return (.quit ((numberArgument cs).1.getD 0) false, (numberArgument cs).2)
  | 'Q' => return (.quit ((numberArgument cs).1.getD 0) true, (numberArgument cs).2)
  | 'l' => return (.list (numberArgument cs).1, (numberArgument cs).2)
  | '=' => return (.number, cs)
  | 'F' => return (.fileName, cs)
  | 'n' => return (.nextLine, cs)
  | 'N' => return (.joinLine, cs)
  | 'h' => return (.store false, cs)
  | 'H' => return (.store true, cs)
  | 'g' => return (.recall false, cs)
  | 'G' => return (.recall true, cs)
  | 'x' => return (.exchange, cs)
  | 'z' => return (.clear, cs)
  | ':' =>
    let (name, rest) := labelArgument cs
    if name.isEmpty then throw ⟨rest.length, "\":\" lacks a label"⟩
    return (.label name, rest)
  | 's' =>
    match cs with
    | separator :: cs =>
      let (pattern, rest) ← part separator true cs "unterminated \x60s\x27 command"
      let (replacement, rest) ← part separator false rest "unterminated \x60s\x27 command"
      let (f, rest) ← substituteFlags (rest.length + 1) {} rest
      let r ← regex extended pattern f.look (rest.length - 1)
      let highest := highestGroup replacement
      if r.any fun r => r.groupCount < highest then
        throw ⟨rest.length - 1, "invalid reference \\" ++ toString highest ++
          " on \x60s\x27 command\x27s RHS"⟩
      return (.substitute
        { pattern := r, replacement := plain ['&', '\\'] replacement.length replacement
          everywhere := f.everywhere, nth := f.nth.getD 1, shown := f.shown, file := f.file },
        rest)
    | [] => throw ⟨0, "unterminated \x60s\x27 command"⟩
  | 'y' =>
    match cs with
    | separator :: cs =>
      let (source, rest) ← part separator false cs "unterminated \x60y\x27 command"
      let (target, rest) ← part separator false rest "unterminated \x60y\x27 command"
      let letters (cs : List Char) : List Char :=
        let rec go : List Char → List Char
          | '\\' :: c :: cs => c :: go cs
          | c :: cs => c :: go cs
          | [] => []
        go (plain ['\\'] cs.length cs)
      if (letters source).length != (letters target).length then
        throw ⟨rest.length, "strings for \x60y\x27 command are different lengths"⟩
      return (.transliterate (letters source) (letters target), rest)
    | [] => throw ⟨0, "unterminated \x60y\x27 command"⟩
  | 'v' =>
    let (name, rest) := labelArgument cs
    let newer := match name.splitOn "." with
      | major :: minor :: _ =>
        let number (s : String) : Int := (integer? s).getD 0
        4 < number major || number major == 4 && 9 < number minor
      | _ => false
    if newer then throw ⟨rest.length, "expected newer version of sed"⟩
    return (.label "", rest)
  | c =>
    if ['r', 'R', 'w', 'W'].contains c then
      let (name, rest) ← nameArgument cs
      return (if c.toLower == 'r' then .insertFile name (c == 'R')
        else .writeFile name (c == 'W'), rest)
    else if ['a', 'i', 'c'].contains c then
      if (cs.dropWhile isSpace).isEmpty then
        throw ⟨0, "expected \\ after \x60a\x27, \x60c\x27 or \x60i\x27"⟩
      let (text, rest) := textArgument cs
      return (.text c (String.ofList text), rest)
    else if ['b', 't', 'T'].contains c then
      let (name, rest) := labelArgument cs
      return (.jump c name, rest)
    else throw ⟨cs.length, "unknown command: \x60" ++ String.ofList [c] ++ "\x27"⟩

/-- What is wrong with the addresses of a command, if anything is. -/
def addressFault? (c : Char) (first second : Option Address) : Option String :=
  if first.isNone then none
  else if c == ':' then some ": doesn\x27t want any addresses"
  else if c == '#' then some "comments don\x27t accept any addresses"
  else if c == '\x7d' then some "\x60\x7d\x27 doesn\x27t want any addresses"
  else if (c == 'q' || c == 'Q') && second.isSome then some "command only uses one address"
  else none

/-- Whether a command takes all that is left of its line. -/
def takesLine : EditAction → Bool
  | .text _ _ => true
  | .label _ => true
  | _ => false

/-- The commands of an edit script of some size up to its end or to a closing brace. -/
def commands (extended : Bool) (size : Nat) : Nat → Nat → List Char →
    Except EditFault (List EditCommand × List Char)
  | 0, _, cs => .ok ([], cs)
  | n + 1, depth, cs => do
    match cs.dropWhile fun c => isSpace c || c == ';' with
    | [] =>
      if depth != 0 then throw ⟨size, "unmatched \x60\x7b\x27"⟩
      return ([], [])
    | '#' :: cs => commands extended size n depth (cs.dropWhile (· != '\n'))
    | '\x7d' :: cs =>
      if depth = 0 then throw ⟨cs.length, "unexpected \x60\x7d\x27"⟩
      return ([], cs)
    | cs => do
      let (first, cs) ← address? extended false cs
      let cs := cs.dropWhile (· == ' ')
      let (second, cs) ← match first, cs with
        | some _, ',' :: rest => do
          let (a, rest') ← address? extended true (rest.dropWhile (· == ' '))
          if a.isNone then
            throw ⟨(rest.dropWhile (· == ' ')).length - 1, "unexpected \x60,\x27"⟩
          pure (a, rest')
        | _, cs => pure (none, cs)
      let cs := cs.dropWhile isSpace
      match first, second with
      | some (.line 0), some (.matching _) => pure ()
      | some (.line 0), _ => throw ⟨cs.length - 1, "invalid usage of line address 0"⟩
      | _, _ => pure ()
      let (negated, cs) := match cs with
        | '!' :: cs => (true, cs.dropWhile isSpace)
        | cs => (false, cs)
      if negated && cs.head? == some '!' then throw ⟨cs.length - 1, "multiple \x60!\x27s"⟩
      match cs with
      | [] => throw ⟨0, "missing command"⟩
      | c :: cs =>
        if c == '\x7d' && depth = 0 then throw ⟨cs.length, "unexpected \x60\x7d\x27"⟩
        if let some text := addressFault? c first second then throw ⟨cs.length, text⟩
        if c == '\x7b' then
          let (inside, cs) ← commands extended size n (depth + 1) cs
          let (more, rest) ← commands extended size n depth cs
          return (⟨first, second, negated, .block inside.length⟩ :: inside ++ more, rest)
        else
          let (a, cs) ← action extended c cs
          let cs := cs.dropWhile fun c => c == ' ' || c == '\t'
          match takesLine a, cs with
          | false, c :: rest =>
            if !(['\n', ';', '\x7d', '#'].contains c) then
              throw ⟨rest.length, "extra characters after command"⟩
          | _, _ => pure ()
          let (more, rest) ← commands extended size n depth cs
          return (⟨first, second, negated, a⟩ :: more, rest)

/-- The place that some command jumps to although no command marks it. -/
def missingLabel? (script : List EditCommand) : Option String :=
  let labels := script.filterMap fun c =>
    match c.action with
    | .label l => some l
    | _ => none
  script.findSome? fun c =>
    match c.action with
    | .jump _ name => if name.isEmpty || labels.contains name then none else some name
    | _ => none

/-- The files that a script reads. -/
def filesRead (script : List EditCommand) : List String :=
  script.filterMap fun c =>
    match c.action with
    | .insertFile name _ => some name
    | _ => none

/-- The files that a script writes. -/
def filesWritten (script : List EditCommand) : List String :=
  script.filterMap fun c =>
    match c.action with
    | .writeFile name _ => some name
    | .substitute s => s.file
    | _ => none

/-- The commands of an edit script. -/
def read (extended : Bool) (script : String) : Except EditFault (List EditCommand) :=
  (commands extended script.length (script.length + 2) 0 script.toList).map Prod.fst

end EditScript

end PatchSearch.Shell
