import PatchSearch.Shell.Octets
import PatchSearch.Shell.Redirect

/-!
Utilities: programs that read arguments, inputs and files, and leave a status behind. This module
holds what they share: their options, the inputs that operands name, and how they tell that
something went wrong.
-/
namespace PatchSearch.Shell

/-- A utility on its arguments. -/
abbrev Utility := List String → Run Unit

/-- A utility that can become another program, or learn why it cannot. -/
abbrev Launching := (List String → Run FileError) → Utility

/-- The letters of options without a value, with one, and with one that stands right behind the
letter if it is given, and longer names for some of them. -/
structure OptionNames where
  plain : String := ""
  valued : String := ""
  attached : String := ""
  /-- The letter of an option whose number can stand behind the dash by itself. -/
  counting : Option Char := none
  long : List (String × Char) := []

/-- Options of one letter, some of them with a value, and the operands. -/
structure Options where
  flags : List (Char × String) := []
  operands : List String := []

/-- What is wrong with the arguments of a utility. -/
inductive OptionFault where
  | unknown (c : Char)
  | unknownName (s : String)
  | missing (c : Char)
  | missingName (s : String)

namespace OptionFault

/-- The fault in words. -/
def message : OptionFault → String
  | unknown c => "invalid option -- \x27" ++ String.ofList [c] ++ "\x27"
  | unknownName s => "unrecognized option \x27" ++ s ++ "\x27"
  | missing c => "option requires an argument -- \x27" ++ String.ofList [c] ++ "\x27"
  | missingName s => "option \x27" ++ s ++ "\x27 requires an argument"

end OptionFault

namespace Options

def has (o : Options) (c : Char) : Bool :=
  o.flags.any (·.1 == c)

/-- The last value given for an option. -/
def value? (o : Options) (c : Char) : Option String :=
  (o.flags.reverse.find? (·.1 == c)).map Prod.snd

/-- All values given for an option. -/
def values (o : Options) (c : Char) : List String :=
  (o.flags.filter (·.1 == c)).map Prod.snd

/-- The one of some letters that was given last. -/
def last? (o : Options) (cs : List Char) : Option Char :=
  (o.flags.reverse.find? fun f => cs.contains f.1).map Prod.fst

/-- The letters of one argument, and the last of them if it still lacks its value. -/
def letters (names : OptionNames) :
    List Char → Except OptionFault (List (Char × String) × Option Char)
  | [] => .ok ([], none)
  | c :: cs =>
    if names.valued.toList.contains c then
      if cs.isEmpty then .ok ([], some c) else .ok ([(c, String.ofList cs)], none)
    else if names.attached.toList.contains c then .ok ([(c, String.ofList cs)], none)
    else if c.isDigit && names.counting.isSome then
      (letters names cs).map fun (flags, pending) =>
        match cs.head?.any Char.isDigit, flags with
        | true, (k, digits) :: flags => ((k, String.ofList [c] ++ digits) :: flags, pending)
        | _, flags => ((names.counting.getD c, String.ofList [c]) :: flags, pending)
    else if names.plain.toList.contains c then
      (letters names cs).map fun (flags, pending) => ((c, "") :: flags, pending)
    else .error (.unknown c)

/-- The letter of a longer name, which may be cut short. -/
def longName? (names : OptionNames) (s : String) : Option Char :=
  match names.long.lookup s with
  | some c => some c
  | none =>
    match names.long.filter fun n => s.toList.isPrefixOf n.1.toList with
    | [(_, c)] => some c
    | _ => none

/-- Arguments as options and operands. Options may follow operands if `mixed` says so. -/
def read (names : OptionNames) (mixed : Bool) : List String → Except OptionFault Options
  | [] => .ok {}
  | "--" :: rest => .ok { operands := rest }
  | "-" :: rest =>
    if mixed then (read names mixed rest).map fun o => { o with operands := "-" :: o.operands }
    else .ok { operands := "-" :: rest }
  | arg :: rest =>
    match arg.toList with
    | '-' :: '-' :: cs => do
      let name := String.ofList (cs.takeWhile (· != '='))
      let given := cs.drop (name.length + 1)
      match longName? names name with
      | none => throw (.unknownName ("--" ++ name))
      | some c =>
        if names.valued.toList.contains c then
          if cs.contains '=' then
            let o ← read names mixed rest
            return { o with flags := (c, String.ofList given) :: o.flags }
          else
            match rest with
            | value :: rest =>
              let o ← read names mixed rest
              return { o with flags := (c, value) :: o.flags }
            | [] => throw (.missingName ("--" ++ name))
        else
          let o ← read names mixed rest
          return { o with flags := (c, String.ofList given) :: o.flags }
    | '-' :: cs => do
      let (flags, pending) ← letters names cs
      match pending, rest with
      | none, rest =>
        let o ← read names mixed rest
        return { o with flags := flags ++ o.flags }
      | some c, value :: rest =>
        let o ← read names mixed rest
        return { o with flags := flags ++ (c, value) :: o.flags }
      | some c, [] => throw (.missing c)
    | _ =>
      if mixed then (read names mixed rest).map fun o => { o with operands := arg :: o.operands }
      else .ok { operands := arg :: rest }

end Options

/-- Which of some words an abbreviated one stands for. -/
def wordOf? (words : List String) (s : String) : Option String :=
  if words.contains s then some s
  else
    match words.filter fun w => !s.isEmpty && s.toList.isPrefixOf w.toList with
    | [w] => some w
    | _ => none

namespace Run

/-- The name that a utility goes by in its messages: the path that it was called by, if it was. -/
def ownName (name : String) : Run String := do
  let given := (← get).name
  return if given.endsWith ("/" ++ name) then given else name

/-- Tells a message of a utility. -/
def warn (name text : String) : Run Unit := do
  tell ((← ownName name) ++ ": " ++ text ++ "\n")

/-- Tells a message of a utility, which fails but goes on. -/
def lament (name text : String) : Run Unit := do
  warn name text
  setStatus 1

/-- Ends a utility with a message. -/
def fail {β : Type} (name : String) (status : Nat) (text : String) : Run β := do
  warn name text
  setStatus status
  halt

/-- Ends a utility with a hint where its arguments are explained. -/
def hint {β : Type} (name : String) (status : Nat) : Run β := do
  tell ("Try " ++ inQuotes ((← ownName name) ++ " --help") ++ " for more information.\n")
  setStatus status
  halt

/-- Ends a utility with a message about its arguments. -/
def misuse {β : Type} (name : String) (status : Nat) (text : String) : Run β := do
  warn name text
  hint name status

/-- Writes output of a utility, which ends if it cannot. -/
def emit (name text : String) : Run Unit := do
  if !text.isEmpty then
    match ← write 1 text with
    | .ok _ => return
    | .error e => fail name 1 ("write error: " ++ e.message)

/-- Ends a utility whose option has a value that is none of some words. -/
def invalidWord {β : Type} (name option value : String) (words : List String) : Run β :=
  misuse name 1 ("invalid argument " ++ cited value ++ " for " ++ cited option ++
    "\nValid arguments are:" ++ String.join (words.map fun w => "\n  - " ++ cited w))

/-- The first word of the group that a text names, perhaps in short, or the end of a utility. Words
of one group mean the same. -/
def chosenWord (name : String) (status : Nat) (option : String) (groups : List (List String))
    (s : String) : Run String := do
  let firstWord (p : String → Bool) : List String :=
    (groups.filter (·.any p)).filterMap List.head?
  match firstWord (· == s), firstWord fun w => s.toList.isPrefixOf w.toList with
  | w :: _, _ => return w
  | [], [w] => return w
  | [], found =>
    let what := if found.isEmpty then "invalid" else "ambiguous"
    misuse name status (what ++ " argument " ++ cited s ++ " for " ++ cited option ++
      "\nValid arguments are:" ++ String.join (groups.map fun ws =>
        "\n  - " ++ String.intercalate ", " (ws.map cited)))

/-- A whole number in decimal notation between two bounds, or the end of a utility. -/
def decimalWithin (name what : String) (low high : Int) (s : String) : Run Int := do
  let text := what ++ ": " ++ cited s
  match integer? (String.ofList (s.toList.dropWhile isSpace)) with
  | some n =>
    if n < 0 && 0 ≤ low then fail name 1 text
    if n < low || high < n then
      fail name 1 (text ++ if 1073741823 < n then ": Value too large for defined data type"
        else ": Numerical result out of range")
    return n
  | none => fail name 1 text

/-- Runs a utility on its options. -/
def withOptions (name : String) (names : OptionNames) (run : Options → Run Unit)
    (mixed : Bool := true) (status : Nat := 1) : Utility := fun args =>
  match Options.read names mixed args with
  | .ok o => do
    setStatus 0
    run o
  | .error e => misuse name status e.message

/-- The directory entry that a name of octets stands for. -/
def path (name : String) : String :=
  textOfOctets name

/-- Opens an input of a utility; a dash stands for the standard input. -/
def openInput (name : String) : Run (Except FileError (Option Channel)) := do
  if name == "-" then return .ok (← channel? 0)
  else return (← openForReading name).map some

/-- All octets of an input, or why it cannot be read. -/
def readInput (name : String) : Run (Except String String) := do
  match ← openInput name with
  | .error e => return .error (causeText e)
  | .ok none => return .error "Bad file descriptor"
  | .ok (some c) =>
    match ← readAll c with
    | .ok s => return .ok s
    | .error e => return .error e.message

/-- The operands of a utility, or its standard input if there are none. -/
def operandsOrInput (o : Options) : List String :=
  if o.operands.isEmpty then ["-"] else o.operands

/-- What is looked at when a path is taken: the position and the entry behind links. -/
def find (name : String) : Run (Except FileError (Position × Entry)) := do
  return (← files).find (path name)

/-- Changes the files, unless that fails. -/
def tryFiles (f : FileTree → Except FileError FileTree) : Run (Except FileError Unit) :=
  onFiles fun files =>
    match f files with
    | .ok files => (.ok (), files)
    | .error e => (.error e, files)

/-- Stores octets in a file, in place of what it held. -/
def storeText (name text : String) : Run (Except String Unit) := do
  match ← openForWriting name .overwrite with
  | .error e => return .error (causeText e)
  | .ok c =>
    match ← writeTo (some c) text with
    | .ok _ => return .ok ()
    | .error e => return .error e.message

end Run

end PatchSearch.Shell
