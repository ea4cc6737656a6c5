import PatchSearch.Shell.RecordScript.Evaluate

/-!
`awk`: runs a script over the records of its inputs.
-/
namespace PatchSearch.Shell

open Run RecordScript

/-- What the arguments of `awk` ask for. -/
structure RecordOptions where
  scripts : List String := []
  settings : List (String × String) := []
  /-- Messages that do not end the program. -/
  remarks : List String := []
  /-- What is printed in place of running a script. -/
  notice : Option String := none
  operands : List String := []

namespace RecordOptions

def usage : String :=
  "Usage: mawk [Options] [Program] [file ...]\n"

def version : String :=
  "mawk 1.3.4 20200120\n"

/-- Arguments up to the first operand, or what is wrong with them. The number bounds them. -/
def read : Nat → List String → Except String RecordOptions
  | 0, args => .ok { operands := args }
  | _, [] => .ok {}
  | _ + 1, "--" :: rest => .ok { operands := rest }
  | _ + 1, "-" :: rest => .ok { operands := "-" :: rest }
  | _ + 1, "--version" :: _ => .ok { notice := some version }
  | _ + 1, "--help" :: _ => .ok { notice := some usage }
  | n + 1, arg :: rest =>
    match arg.toList with
    | '-' :: c :: cs => do
      if !(['f', 'F', 'v', 'W'].contains c) then throw ("not an option: " ++ arg)
      let (value, rest) ← match cs, rest with
        | [], value :: rest => pure (value, rest)
        | [], [] => throw ("option -" ++ String.singleton c ++ " lacks argument")
        | cs, rest => pure (String.ofList cs, rest)
      match c with
      | 'f' =>
        let o ← read n rest
        return { o with scripts := value :: o.scripts }
      | 'F' =>
        let o ← read n rest
        return { o with settings := ("FS", unescapedText value) :: o.settings }
      | 'v' =>
        match Act.assignment? value with
        | some s =>
          let o ← read n rest
          return { o with settings := s :: o.settings }
        | none => throw ("improper assignment: -v " ++ value)
      | _ =>
        if value.startsWith "v" then return { notice := some version }
        else if value.startsWith "u" || value.startsWith "h" then return { notice := some usage }
        else
          let o ← read n rest
          return { o with remarks := ("vacuous option: -W \"" ++ value ++ "\"") :: o.remarks }
    | _ => .ok { operands := arg :: rest }

end RecordOptions

/-- `awk`. -/
def runOnRecords : Launching := fun become args => do
  setStatus 0
  match RecordOptions.read (args.length + 1) args with
  | .error text =>
    announce text
    setStatus 2
  | .ok o =>
    o.remarks.forM announce
    match o.notice, o.scripts, o.operands with
    | some text, _, _ => emit "awk" text
    | none, [], [] => emit "awk" RecordOptions.usage
    | none, files, operands =>
      let mut text := ""
      for name in files do
        match ← readInput name with
        | .ok s => text := (if text.isEmpty || text.endsWith "\n" then text else text ++ "\n") ++ s
        | .error e =>
          announce ("cannot open \"" ++ name ++ "\" (" ++ e ++ ")")
          setStatus 2
          halt
      let source := if files.isEmpty then operands.headD "" else text
      let inputs := if files.isEmpty then operands.drop 1 else operands
      match readScript source with
      | .error faults =>
        let place := match files with
          | [f] => f ++ ": "
          | _ => ""
        for f in faults do
          announce ((if f.startsWith "line" then place else "") ++ f)
        setStatus 2
      | .ok script =>
        setStatus (← runMachine become script o.settings
          (ownNameOf (← get).name :: inputs))

end PatchSearch.Shell
