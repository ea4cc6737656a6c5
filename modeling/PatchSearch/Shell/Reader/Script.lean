import PatchSearch.Shell.Reader.Word

/-!
Reading commands. A script is read one complete command at a time, which ends with its line, so
that what stands on earlier lines has its effect before a later line is looked at. `Script.next?`
gives the next command and what is left.
-/
namespace PatchSearch.Shell

/-- What a token may be besides itself: line feeds in front of it do not count, a word may be
reserved, and a word may be an alias. -/
structure Wanted where
  lines : Bool := false
  reserved : Bool := false
  aliases : Bool := false

/-- Where a list of commands ends: with its line, or before a token that closes a compound; one of
the latter kind may be empty. -/
inductive ListKind where
  | line
  | body
  | optional
  deriving DecidableEq

/-- Builtins that belong to the language itself, so that no function takes their names. -/
def specialBuiltins : List String :=
  [".", ":", "break", "continue", "eval", "exec", "exit", "export", "readonly", "return", "set",
    "shift", "times", "trap", "unset"]

namespace Reading

/-- The start of a command. -/
def commandStart : Wanted :=
  { lines := true, reserved := true, aliases := true }

/-- A redirection behind its descriptor. -/
def redirectionSign (first : Char) : Reading String := do
  if first == '>' then
    if ← accept '>' then return ">>"
    else if ← accept '|' then return ">|"
    else if ← accept '&' then return ">&"
    else return ">"
  else if ← accept '<' then
    if ← accept '-' then return "<<-" else return "<<"
  else if ← accept '&' then return "<&"
  else if ← accept '>' then return "<>"
  else return "<"

/-- The next token in the text. -/
def scan (script : Inner) (isEnding : Bool) : Nat → Reading Token
  | 0 => return .ended
  | n + 1 => do
    match ← next with
    | none => return .ended
    | some c =>
      match c with
      | ' ' => scan script isEnding n
      | '\t' => scan script isEnding n
      | '#' =>
        modify fun s => { s with chars := s.chars.dropWhile (· != '\n') }
        scan script isEnding n
      | '\n' =>
        countLine
        return .newline
      | '&' => if ← accept '&' then return .both else return .background
      | '|' => if ← accept '|' then return .either else return .bar
      | ';' => if ← accept ';' then return .branchEnd else return .semicolon
      | '(' => return .opening
      | ')' => return .closing
      | c =>
        if c == '<' || c == '>' then return .redirection none (← redirectionSign c)
        else
          putBack c
          let parts ← word script isEnding
          let digit? := parts.plainText?.bind fun s =>
            match s.toList with
            | [d] => if d.isDigit then some (d.toNat - 48) else none
            | _ => none
          match digit?, ← peek with
          | some d, some sign =>
            if sign == '<' || sign == '>' then
              discard next
              return .redirection (some d) (← redirectionSign sign)
            else return .word parts false
          | _, _ => return .word parts parts.hasQuotes

/-- The token that was put back, or the next one in the text. -/
def nextToken (script : Inner) (isEnding : Bool) : Reading Token := do
  match (← get).pushed with
  | some t =>
    modify fun s => { s with pushed := none }
    return t
  | none =>
    leaveAliases
    scan script isEnding (← bound)

/-- Puts the text of an alias in front of what is left. -/
def enterAlias (name text : String) : Reading Unit :=
  modify fun s =>
    if text.isEmpty then s
    else
      let ending := if (text.toList.getLast?).any fun c => c == ' ' || c == '\t' then
        aliasEndAtBlank else aliasEnd
      { s with chars := text.toList ++ ending :: s.chars, inUse := name :: s.inUse }

/-- The next token, looked at as it is wanted. -/
def token (script : Inner) (wanted : Wanted) : Nat → Reading Token
  | 0 => return .ended
  | n + 1 => do
    match ← nextToken script false with
    | .newline =>
      if wanted.lines then
        documents script
        token script wanted n
      else return .newline
    | .word parts false =>
      let aliasNext := (← get).aliasNext
      modify fun s => { s with aliasNext := false }
      match parts.plainText? with
      | none => return .word parts false
      | some name =>
        if wanted.reserved && reservedWords.contains name then return .reserved name
        else
          let s ← get
          match s.aliases.lookup name with
          | some text =>
            if (wanted.aliases || aliasNext) && !s.inUse.contains name then
              enterAlias name text
              token script wanted n
            else return .word parts false
          | none => return .word parts false
    | t => return t

/-- The next token, wherever it stands. -/
def look (script : Inner) (wanted : Wanted) : Reading Token := do
  token script wanted (← bound)

/-- Drops a token that has to come next. -/
def require (script : Inner) (wanted : Wanted) (name : String) : Reading Unit := do
  match ← look script wanted with
  | .reserved w => if w == name then return else unexpected (.reserved w) (some (.reserved name))
  | t => unexpected t (some (.reserved name))

/-- What a redirection leads to. -/
def redirection (script : Inner) (descriptor : Option Nat) (sign : String) :
    Reading Redirection := do
  let target : Reading Word := do
    match ← look script {} with
    | .word parts _ => return parts
    | t => unexpected t none
  let announce (dropTabs : Bool) : Reading Redirection := do
    match ← nextToken script true with
    | .word parts isQuoted =>
      let number := (← get).nextDocument
      modify fun s =>
        { s with
          nextDocument := number + 1
          announced := ⟨number, parts.bareText.toList, isQuoted, dropTabs⟩ :: s.announced }
      return .document (descriptor.getD 0) number
    | t => unexpected t none
  match sign with
  | ">" => return .file (descriptor.getD 1) .output (← target)
  | ">>" => return .file (descriptor.getD 1) .append (← target)
  | ">|" => return .file (descriptor.getD 1) .overwrite (← target)
  | ">&" => return .share (descriptor.getD 1) (← target)
  | "<<" => announce false
  | "<<-" => announce true
  | "<&" => return .share (descriptor.getD 0) (← target)
  | "<>" => return .file (descriptor.getD 0) .both (← target)
  | _ => return .file (descriptor.getD 0) .input (← target)

/-- The redirections behind a compound. -/
def redirections (script : Inner) : Nat → Reading (List Redirection)
  | 0 => return []
  | n + 1 => do
    match ← look script { reserved := true, aliases := true } with
    | .redirection d sign =>
      let first ← redirection script d sign
      return first :: (← redirections script n)
    | t =>
      pushBack t
      return []

/-- What a simple command consists of, in reverse. -/
structure SimpleParts where
  assignments : List (String × Word) := []
  words : List Word := []
  redirections : List Redirection := []

/-- The rest of a simple command, or of the definition of a function. `command` reads a command
whatever it stands in. -/
def simple (script : Inner) (command : Reading Command) (line : Nat) :
    Nat → SimpleParts → Reading Command
  | 0, _ => return .nothing
  | n + 1, found => do
    let finish : Command := .simple line found.assignments.reverse found.words.reverse
      found.redirections.reverse
    match ← look script { aliases := found.words.isEmpty } with
    | .word parts _ =>
      match found.words, Word.assignment? parts with
      | [], some a =>
        simple script command line n { found with assignments := a :: found.assignments }
      | _, _ =>
        simple script command line n { found with words := parts :: found.words }
    | .redirection d sign =>
      let r ← redirection script d sign
      simple script command line n { found with redirections := r :: found.redirections }
    | .opening =>
      match found.words, found.assignments, found.redirections with
      | [name], [], [] =>
        match ← look script {} with
        | .closing =>
          match name.plainText? with
          | some name =>
            if isName name && !specialBuiltins.contains name then
              let start := (← get).line
              let next ← look script commandStart
              pushBack next
              return .define start name (← command)
            else fault "Bad function name"
          | none => fault "Bad function name"
        | t => unexpected t (some .closing)
      | _, _, _ =>
        pushBack .opening
        return finish
    | t =>
      pushBack t
      return finish

/-- The branches of a choice behind `if` or `elif`. -/
def branches (script : Inner) (list : Reading Command) : Nat → Reading Command
  | 0 => return .nothing
  | n + 1 => do
    let condition ← list
    require script {} "then"
    let body ← list
    match ← look script {} with
    | .reserved "elif" => return .choice condition body (← branches script list n)
    | .reserved "else" =>
      let otherwise ← list
      return .choice condition body otherwise
    | t =>
      pushBack t
      return .choice condition body .nothing

/-- The words of a loop, up to the end of the line. -/
def loopWords (script : Inner) : Nat → Reading (List Word)
  | 0 => return []
  | n + 1 => do
    match ← look script {} with
    | .word parts _ => return parts :: (← loopWords script n)
    | .newline => do
      documents script
      return []
    | .semicolon => return []
    | t => unexpected t none

/-- The patterns of a branch behind its first token. -/
def patterns (script : Inner) : Nat → Token → Reading (List Word)
  | 0, _ => return []
  | n + 1, t => do
    let first : Word := match t with
      | .word parts _ => parts
      | .reserved name => [.plain name]
      | _ => []
    match ← look script {} with
    | .bar => return first :: (← patterns script n (← look script {}))
    | .closing => return [first]
    | t => unexpected t (some .closing)

/-- The branches of a selection, up to its end. -/
def selection (script : Inner) (list : Reading Command) :
    Nat → Reading (List (List Word × Command))
  | 0 => return []
  | n + 1 => do
    let start : Wanted := { lines := true, reserved := true }
    match ← look script start with
    | .reserved "esac" => return []
    | t =>
      let first ← match t with
        | .opening => look script {}
        | t => pure t
      let ps ← patterns script (← bound) first
      let body ← list
      match ← look script start with
      | .reserved "esac" => return [(ps, body)]
      | .branchEnd => return (ps, body) :: (← selection script list n)
      | t => unexpected t (some .branchEnd)

/-- The rest of a loop over words. -/
def each (script : Inner) (list : Reading Command) (line : Nat) : Reading Command := do
  match ← look script {} with
  | .word parts false =>
    match parts.plainText? with
    | none => fault "Bad for loop variable"
    | some name =>
      if !isName name then fault "Bad for loop variable"
      else
        let words ← match ← look script commandStart with
          | .reserved "in" => pure (some (← loopWords script (← bound)))
          | .semicolon => pure none
          | t => do
            pushBack t
            pure none
        require script commandStart "do"
        let body ← list
        return .each line name words body
  | _ => fault "Bad for loop variable"

/-- A command. `list` reads the lists inside of it. -/
def command (script : Inner) (list : ListKind → Reading Command) : Nat → Reading Command
  | 0 => fault "text too long"
  | n + 1 => do
    let line := (← get).line
    let closed (body : Command) (ending : Token) : Reading Command := do
      let t ← look script {}
      if t.describe == ending.describe then return body
      else unexpected t (some ending)
    let redirected (body : Command) : Reading Command := do
      match body, ← redirections script (← bound) with
      | body, [] => return body
      | .subshell l inner _, rs => return .subshell l inner rs
      | body, rs => return .redirected line body rs
    match ← look script {} with
    | .opening =>
      let body ← list .body
      redirected (← closed (.subshell line body []) .closing)
    | .reserved "\x7b" =>
      let body ← list .body
      redirected (← closed body (.reserved "\x7d"))
    | .reserved "if" =>
      let body ← branches script (list .body) n
      redirected (← closed body (.reserved "fi"))
    | .reserved "while" =>
      let condition ← list .body
      require script {} "do"
      let body ← list .body
      redirected (← closed (.repeated false condition body) (.reserved "done"))
    | .reserved "until" =>
      let condition ← list .body
      require script {} "do"
      let body ← list .body
      redirected (← closed (.repeated true condition body) (.reserved "done"))
    | .reserved "for" =>
      let body ← each script (list .body) line
      redirected (← closed body (.reserved "done"))
    | .reserved "case" =>
      match ← look script {} with
      | .word parts _ =>
        require script commandStart "in"
        redirected (.select line parts (← selection script (list .optional) n))
      | t => unexpected t (some (.word [] false))
    | .word parts isQuoted =>
      pushBack (.word parts isQuoted)
      simple script (command script list n) (← get).line n {}
    | .redirection d sign =>
      pushBack (.redirection d sign)
      simple script (command script list n) (← get).line n {}
    | t => unexpected t none

/-- The commands that a first one feeds. -/
def feeding (script : Inner) (command : Reading Command) : Nat → Reading (List Command)
  | 0 => return []
  | n + 1 => do
    match ← look script {} with
    | .bar =>
      pushBack (← look script commandStart)
      let next ← command
      return next :: (← feeding script command n)
    | t =>
      pushBack t
      return []

/-- A pipeline. -/
def pipeline (script : Inner) (command : Reading Command) (n : Nat) : Reading Command := do
  let piped : Reading Command := do
    let first ← command
    match ← feeding script command n with
    | [] => return first
    | more => return .pipeline (first :: more)
  match ← look script {} with
  | .reserved "!" =>
    pushBack (← look script { reserved := true, aliases := true })
    return .negated (← piped)
  | t =>
    pushBack t
    piped

/-- The pipelines chained behind a first one. -/
def chain (script : Inner) (pipeline : Reading Command) : Nat → Command → Reading Command
  | 0, first => return first
  | n + 1, first => do
    match ← look script {} with
    | .both =>
      pushBack (← look script commandStart)
      chain script pipeline n (.both first (← pipeline))
    | .either =>
      pushBack (← look script commandStart)
      chain script pipeline n (.either first (← pipeline))
    | t =>
      pushBack t
      return first

/-- The rest of a list of commands. `one` reads a chain of pipelines. -/
def listRest (script : Inner) (one : Reading Command) (kind : ListKind) :
    Nat → Bool → Command → Reading Command
  | 0, _, done => return done
  | n + 1, started, done => do
    let inLine := kind == .line
    match ← look script { lines := !inLine, reserved := true, aliases := true } with
    | .newline =>
      documents script
      return done
    | .ended =>
      documents script
      pushBack .ended
      return done
    | t =>
      pushBack t
      if t.endsList && !inLine && (started || kind == .optional) then return done
      else
        let command ← one
        match ← look script {} with
        | .background =>
          listRest script one kind n true (done.andThen command.inBackground)
        | .semicolon => listRest script one kind n true (done.andThen command)
        | .newline =>
          pushBack .newline
          listRest script one kind n true (done.andThen command)
        | .ended =>
          documents script
          pushBack .ended
          return done.andThen command
        | t =>
          if inLine then unexpected t none
          else
            pushBack t
            return done.andThen command

/-- A list of commands. The number bounds the depth of the compounds in it. -/
def list : Nat → ListKind → Reading Command
  | 0, _ => fault "text too long"
  | n + 1, kind => do
    let whole : Reading Command := list n .optional
    let plain : Inner := ⟨whole, whole⟩
    let enclosed : Reading Command := do
      let body ← whole
      match ← look plain {} with
      | .closing =>
        modify fun s => { s with
          documents := (s.announced.map fun d => (d.number, [])) ++ s.documents }
        return body
      | t => unexpected t (some .closing)
    let script : Inner := ⟨whole, enclosed⟩
    let size ← bound
    let one : Reading Command := do
      let item := pipeline script (command script (list n) size) size
      chain script item size (← item)
    listRest script one kind size false .nothing

end Reading

namespace Source

/-- The next command of a script, up to the end of its line, and what is left; nothing at the end
of the text. -/
def next? (s : Source) : Except ScriptFault (Option Command × Source) := do
  let depth := s.chars.length + 2
  let (c, rest) ← Reading.list depth .line |>.run s
  match rest.pushed with
  | some .ended => return (if c.isNothing then none else some c, rest)
  | _ => return (some c, rest)

end Source

end PatchSearch.Shell
