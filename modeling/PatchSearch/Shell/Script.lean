/-!
Shell scripts. A script is a tree of commands: simple commands made of words, and compounds that
chain commands, feed them into each other, choose between them or repeat them. Words keep their
quotes and their expansions apart from their plain text. The text of a document stands behind the
line that announces it, so a redirection only names it by a number.
-/
namespace PatchSearch.Shell

/-- What stands in for the value of a parameter: a text in place of a missing value, the same
text stored as the value too, a text in place of an existing value, or a refusal. -/
inductive Fallback where
  | supply
  | assign
  | replace
  | refuse
  deriving DecidableEq, Repr

/-- How a file is opened for a command. -/
inductive OpenMode where
  | input
  | output
  /-- Output that may empty a file even where that is forbidden otherwise. -/
  | overwrite
  | append
  | both
  deriving DecidableEq, Repr

mutual

/-- A piece of a word. -/
inductive Part where
  | plain (text : String)
  /-- Text that stands for itself though it is outside of quotes. -/
  | escaped (text : String)
  | quoted (parts : List Part)
  | parameter (name : String) (change : Change)
  | output (script : Command)
  | arithmetic (expression : List Part)

/-- What is done with the value of a parameter. -/
inductive Change where
  | keep
  | size
  | fallback (kind : Fallback) (alsoEmpty : Bool) (word : List Part)
  | cut (atEnd longest : Bool) (pattern : List Part)
  /-- What no parameter allows; it is refused when it is met. -/
  | invalid

inductive Redirection where
  | file (descriptor : Nat) (mode : OpenMode) (name : List Part)
  | share (descriptor : Nat) (source : List Part)
  | document (descriptor : Nat) (number : Nat)

/-- A command. Numbers in first place are lines. -/
inductive Command where
  | nothing
  | simple (line : Nat) (assignments : List (String × List Part)) (words : List (List Part))
      (redirections : List Redirection)
  | pipeline (commands : List Command)
  | backgroundPipeline (commands : List Command)
  | redirected (line : Nat) (body : Command) (redirections : List Redirection)
  | subshell (line : Nat) (body : Command) (redirections : List Redirection)
  | background (line : Nat) (body : Command) (redirections : List Redirection)
  | both (first second : Command)
  | either (first second : Command)
  | sequence (first second : Command)
  | negated (body : Command)
  | choice (condition body : Command) (otherwise : Command)
  | repeated (untilHolds : Bool) (condition body : Command)
  | each (line : Nat) (name : String) (words : Option (List (List Part))) (body : Command)
  | select (line : Nat) (word : List Part) (branches : List (List (List Part) × Command))
  | define (line : Nat) (name : String) (body : Command)

end

instance : Inhabited Part :=
  ⟨.plain ""⟩

instance : Inhabited Command :=
  ⟨.nothing⟩

abbrev Word := List Part

namespace Command

def isNothing : Command → Bool
  | nothing => true
  | _ => false

/-- A command and one that follows it. -/
def andThen (first second : Command) : Command :=
  if first.isNothing then second else .sequence first second

/-- A command that is left to run on its own. -/
def inBackground : Command → Command
  | pipeline commands => backgroundPipeline commands
  | redirected line body redirections => background line body redirections
  | body => background 1 body []

end Command

namespace Word

/-- The text of a word without any quotes or expansions. -/
def plainText? : Word → Option String
  | [.plain s] => some s
  | _ => none

/-- The text of a word whose quotes are dropped and whose expansions count for nothing. -/
def bareText : Word → String
  | [] => ""
  | .plain s :: ps => s ++ bareText ps
  | .escaped s :: ps => s ++ bareText ps
  | .quoted ps :: qs => bareText ps ++ bareText qs
  | _ :: ps => bareText ps

/-- The name that a word assigns to, and the value. -/
def assignment? : Word → Option (String × Word)
  | .plain s :: ps =>
    let name := s.toList.takeWhile fun c => c.isAlphanum || c == '_'
    match s.toList.drop name.length with
    | '=' :: value =>
      if name.isEmpty || name.head?.any Char.isDigit then none
      else
        some (String.ofList name, if value.isEmpty then ps else .plain (String.ofList value) :: ps)
    | _ => none
  | _ => none

end Word

/-- Words that open, divide or close compounds where a command may start. -/
def reservedWords : List String :=
  ["!", "case", "do", "done", "elif", "else", "esac", "fi", "for", "if", "in", "then", "until",
    "while", "\x7b", "\x7d"]

/-- The reserved words that end a script inside of a compound. -/
def closingWords : List String :=
  ["do", "done", "elif", "else", "esac", "fi", "then", "\x7d"]

end PatchSearch.Shell
