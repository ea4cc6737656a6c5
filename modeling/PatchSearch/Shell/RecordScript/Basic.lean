import PatchSearch.Shell.Regex.Basic

/-!
Scripts over records, as `awk` runs them. A script is a list of rules, each with a condition on
the record and an action, and of functions that its actions call.
-/
namespace PatchSearch.Shell.RecordScript

/-- A regular expression with the text that it was read from. -/
structure Pattern where
  source : String
  regex : Regex

inductive Arithmetical where
  | add
  | subtract
  | multiply
  | divide
  | remainder
  | power
  deriving DecidableEq, Repr

inductive Comparison where
  | less
  | atMost
  | equal
  | unequal
  | greater
  | atLeast
  deriving DecidableEq, Repr

/-- Where a record is read from. -/
inductive Source where
  /-- The inputs of the script itself. -/
  | inputs
  | file
  | command
  deriving DecidableEq, Repr

/-- Where output goes, unless it goes to the standard output. -/
inductive Sink where
  | file
  | appended
  | command
  deriving DecidableEq, Repr

inductive Expr where
  | number (x : Float)
  | text (s : String)
  /-- Whether the record matches. -/
  | pattern (p : Pattern)
  | name (n : String)
  | item (array : String) (index : List Expr)
  | field (e : Expr)
  | assign (op : Option Arithmetical) (target value : Expr)
  | choice (condition a b : Expr)
  | both (a b : Expr)
  | either (a b : Expr)
  | contains (index : List Expr) (array : String)
  | fits (holds : Bool) (e pattern : Expr)
  | compare (c : Comparison) (a b : Expr)
  | joined (a b : Expr)
  | calculate (op : Arithmetical) (a b : Expr)
  | opposite (e : Expr)
  | negative (e : Expr)
  | positive (e : Expr)
  /-- Counts a target up or down; its value is the one before or the one after that. -/
  | step (up before : Bool) (target : Expr)
  | call (function : String) (args : List Expr)
  /-- A function that every script has; whether it came without brackets. -/
  | ready (function : String) (args : List Expr)
  | readLine (source : Source) (from' : Option Expr) (target : Option Expr)
  | grouped (e : Expr)

inductive Statement where
  | evaluate (e : Expr)
  | print (items : List Expr) (sink : Option (Sink × Expr))
  | printFormat (items : List Expr) (sink : Option (Sink × Expr))
  | block (body : List Statement)
  | branch (condition : Expr) (a : Statement) (b : Option Statement)
  | while (condition : Expr) (body : Statement)
  | doWhile (body : Statement) (condition : Expr)
  | count (first : Option Statement) (condition : Option Expr) (step : Option Statement)
      (body : Statement)
  | each (name array : String) (body : Statement)
  | next
  | nextFile
  | exit (e : Option Expr)
  | return (e : Option Expr)
  | break
  | continue
  | delete (array : String) (index : List Expr)
  | clear (array : String)

/-- When an action is taken. -/
inductive Condition where
  | always
  | holds (e : Expr)
  /-- From a record where the first holds up to one where the second holds. -/
  | span (first last : Expr)

/-- A condition and its action; without an action the record is printed. -/
structure Rule where
  condition : Condition
  action : Option Statement

structure Function where
  name : String
  parameters : List String
  body : Statement

structure Script where
  functions : List Function := []
  beginnings : List Statement := []
  rules : List Rule := []
  endings : List Statement := []

end PatchSearch.Shell.RecordScript
