import PatchSearch.Shell.RecordScript.Fields
import PatchSearch.Shell.RecordScript.Value

/-!
The state of a running script: its names, the record with its fields, and the inputs and outputs
that it has opened. Output is held back until there is enough of it, a command is started, or the
script ends. A record is split only when its fields are asked for, and put together again only
when it is asked for after a field has changed.
-/
namespace PatchSearch.Shell.RecordScript

open Run

/-- What a name stands for. -/
inductive Slot where
  | unset
  | value (v : Value)
  | array (id : Nat)
  deriving Inhabited

/-- An input that was opened. -/
structure Input where
  name : String
  isCommand : Bool
  channel : Option Channel
  /-- The descriptor that keeps it and the program that writes to it, for a command. -/
  descriptor : Option Nat := none
  child : Option Nat := none
  waiting : List Char := []
  atEnd : Bool := false

/-- An output that was opened. -/
structure Output where
  name : String
  isCommand : Bool
  channel : Option Channel
  descriptor : Option Nat := none
  child : Option Nat := none
  isPrompt : Bool := false
  /-- What is held back, last piece first, and how much it is. -/
  held : List String := []
  size : Nat := 0

structure Machine where
  script : Script
  globals : Std.HashMap String Slot := {}
  /-- The names of the functions that are running, innermost first. -/
  frames : List (Std.HashMap String Slot) := []
  arrays : Array (Dictionary Value) := #[]
  record : Value := .text ""
  fields : Option (Array Value) := some #[]
  /-- Whether the record has to be put together from its fields. -/
  isStale : Bool := false
  inputs : List Input := []
  outputs : List Output := []
  current : Option Input := none
  /-- The next argument, and whether an argument named an input. -/
  argument : Nat := 1
  foundInput : Bool := false
  /-- The rules whose span is open. -/
  spans : List Nat := []
  answer : Value := .unset
  status : Nat := 0
  seed : Float := 0

/-- Why an action is left. -/
inductive Leaving where
  | next
  | nextFile
  | exit
  | break
  | continue
  | return
  /-- A fault that was told. -/
  | failed
  deriving DecidableEq

/-- A step of a script. -/
abbrev Act := ExceptT Leaving (StateT Machine Run)

/-- The name that messages start with. -/
def ownNameOf (name : String) : String :=
  (name.splitOn "/").getLastD name

/-- Tells a message. -/
def announce (text : String) : Run Unit := do
  tell (ownNameOf (← get).name ++ ": " ++ text ++ "\n")

namespace Act

def run {α : Type} (x : Run α) : Act α :=
  monadLift x

/-- Ends the script with a fault. -/
def stop {α : Type} (text : String) : Act α := do
  run (announce text)
  modify fun s => { s with status := 2 }
  throw .failed

/-- The shared name of a slot: the innermost function's own or a global one. -/
def slot (name : String) : Act Slot := do
  let m ← getThe Machine
  match m.frames with
  | f :: _ =>
    match f.get? name with
    | some s => return s
    | none => return (m.globals.get? name).getD .unset
  | [] => return (m.globals.get? name).getD .unset

def setSlot (name : String) (s : Slot) : Act Unit :=
  modifyThe Machine fun m =>
    match m.frames with
    | f :: fs =>
      if f.contains name then { m with frames := f.insert name s :: fs }
      else { m with globals := m.globals.insert name s }
    | [] => { m with globals := m.globals.insert name s }

/-- A global value. -/
def global (name : String) : Act Value := do
  match (← getThe Machine).globals.get? name with
  | some (.value v) => return v
  | _ => return .unset

def setGlobal (name : String) (v : Value) : Act Unit :=
  modifyThe Machine fun m => { m with globals := m.globals.insert name (.value v) }

/-- The format for numbers that become texts. -/
def numbers : Act String := do
  return (← global "CONVFMT").toText "%.6g"

def text (v : Value) : Act String := do
  match v with
  | .text s => return s
  | .given s => return s
  | v => return v.toText (← numbers)

/-- Ends the script with a fault at the present record. -/
def fault {α : Type} (message : String) : Act α := do
  let file ← text (← global "FILENAME")
  let inFile ← text (← global "FNR")
  let inAll ← text (← global "NR")
  stop ("run time error: " ++ message ++ "\n\tFILENAME=\"" ++ file ++ "\" FNR=" ++ inFile ++
    " NR=" ++ inAll)

/-- The array that a name stands for, which is made if the name was not used before. -/
def arrayId (name : String) : Act Nat := do
  match ← slot name with
  | .array id => return id
  | _ =>
    let id := (← getThe Machine).arrays.size
    modifyThe Machine fun m => { m with arrays := m.arrays.push {} }
    setSlot name (.array id)
    return id

def dictionary (id : Nat) : Act (Dictionary Value) := do
  return ((← getThe Machine).arrays[id]?).getD {}

/-- A dictionary taken out of its place, where an empty one is left. -/
@[noinline] def takenOut (id : Nat) (ds : Array (Dictionary Value)) :
    Dictionary Value × Array (Dictionary Value) :=
  ((ds[id]?).getD {}, ds.set! id {})

/-- Works on an array. Nothing else holds on to the array meanwhile. -/
def onArray {α : Type} (id : Nat) (f : Dictionary Value → α × Dictionary Value) : Act α :=
  modifyGetThe Machine fun m =>
    let (d, arrays) := takenOut id m.arrays
    let (a, d) := f d
    (a, { m with arrays := arrays.set! id d })

/-- What separates fields by a text. -/
def separator (s : String) : Act Separator := do
  match Separator.ofText s with
  | .ok p => return p
  | .error e => fault ("regular expression compile failed (" ++ e ++ ")\n" ++ s)

/-- The fields of the record. -/
def fields : Act (Array Value) := do
  let m ← getThe Machine
  match m.fields with
  | some fs => return fs
  | none =>
    let sep ← separator (← text (← global "FS"))
    let fs := ((fieldsOf sep (← text m.record)).map Value.given).toArray
    modifyThe Machine fun m => { m with fields := some fs }
    return fs

/-- Takes over a record. -/
def setRecord (v : Value) : Act Unit :=
  modifyThe Machine fun m => { m with record := v, fields := none, isStale := false }

/-- The record, put together from its fields if these have changed. -/
def record : Act Value := do
  let m ← getThe Machine
  if m.isStale then
    let parts ← (← fields).toList.mapM text
    let v := Value.given (String.intercalate (← text (← global "OFS")) parts)
    modifyThe Machine fun m => { m with record := v, isStale := false }
    return v
  else return m.record

def field (n : Nat) : Act Value := do
  if n = 0 then record
  else return ((← fields)[n - 1]?).getD (.text "")

/-- Changes the number of fields. -/
def setFieldCount (n : Nat) : Act Unit := do
  let fs ← fields
  let fs := fs.extract 0 n ++ Array.replicate (n - fs.size) (Value.text "")
  modifyThe Machine fun m => { m with fields := some fs, isStale := true }

def setField (n : Nat) (v : Value) : Act Unit := do
  if n = 0 then setRecord (.given (← text v))
  else
    let fs ← fields
    let fs := fs ++ Array.replicate (n - fs.size) (Value.text "")
    modifyThe Machine fun m => { m with fields := some (fs.set! (n - 1) v), isStale := true }

/-- The value of a name. -/
def valueOf (name : String) : Act Value := do
  if name == "NF" then return .ofNat (← fields).size
  match ← slot name with
  | .value v => return v
  | _ => return .unset

def setValue (name : String) (v : Value) : Act Unit := do
  if name == "NF" then setFieldCount (clampedWhole v.toNumber).toNat
  else
    if name == "OFS" then discard record
    setSlot name (.value v)

/-! ### Outputs -/

/-- How much output is held back at most. -/
def holdLimit : Nat := 4096

/-- Writes what an output holds back. -/
def flushed (o : Output) : Act Output := do
  if o.held.isEmpty then return o
  let text := String.join o.held.reverse
  match ← run (writeTo o.channel text) with
  | .ok _ => return { o with held := [], size := 0 }
  | .error e => stop ("write failure (" ++ e.message ++ ")\n" ++
      ownNameOf (← run (do return (← get).name)) ++ ": close failure (" ++ e.message ++ ")")

/-- Writes what the standard output holds back. -/
def flushStandard : Act Unit := do
  let os ← (← getThe Machine).outputs.mapM fun o =>
    if o.name == "/dev/stdout" && !o.isCommand then flushed o else pure o
  modifyThe Machine fun m => { m with outputs := os }

/-- Adds text to an output. -/
def put (o : Output) (text : String) : Act Output := do
  let o := { o with held := text :: o.held, size := o.size + text.length }
  if o.isPrompt || holdLimit ≤ o.size then flushed o else return o

/-- Writes what all outputs hold back. -/
def flushAll : Act Unit := do
  let os ← (← getThe Machine).outputs.mapM flushed
  modifyThe Machine fun m => { m with outputs := os }

/-- Starts a command; `inside` connects its descriptors. -/
def startCommand (become : List String → Run FileError) (shell command : String)
    (inside : List (Nat × Channel) → List (Nat × Channel)) : Act Nat := do
  run <| start (fun cs => inside (cs.filter (·.1 < keptFrom))) do
    let e ← become [shell, "-c", command]
    announce ("cannot run a shell: " ++ causeText e)
    setStatus 127

/-- Keeps a channel under a descriptor of its own. -/
def keep (c : Channel) : Act Nat := do
  let d := keptFrom + (← run (do return (← get).keeping))
  run (do
    modify fun m => { m with keeping := m.keeping + 1 }
    setChannel d (some c))
  return d

/-- The status that the end of a command counts as. -/
def commandStatus : ExitStatus → Nat
  | .code n => n
  | .signal n => 256 + n

/-- Runs a command to its end. -/
def runCommand (become : List String → Run FileError) (command : String) : Act Nat := do
  flushAll
  let child ← startCommand become "sh" command id
  return commandStatus (← run (waitEnd child))

/-- Whether an output has a name. -/
def Output.isNamed (o : Output) (name : String) (isCommand : Bool) : Bool :=
  o.name == name && o.isCommand == isCommand

/-- Opens an output if it is not open yet; it stands in front of the others then. -/
def openOutput (become : List String → Run FileError) (sink : Sink) (name : String) :
    Act Output := do
  let isCommand := sink == .command
  let name := if name == "-" && !isCommand then "/dev/stdout" else name
  let m ← getThe Machine
  match m.outputs.find? (Output.isNamed · name isCommand) with
  | some o =>
    modifyThe Machine fun m =>
      { m with outputs := o :: m.outputs.filter fun p => !Output.isNamed p name isCommand }
    return o
  | none =>
    let o ←
      if isCommand then do
        flushStandard
        let i ← run (newPipe "")
        let child ← startCommand become "/bin/sh" name fun cs =>
          (0, .source i) :: cs.filter (·.1 != 0)
        let d ← keep (.sink i)
        pure { name, isCommand, channel := some (.sink i), descriptor := some d
               child := some child : Output }
      else do
        match ← run (openForWriting name (if sink == .appended then .append else .overwrite)) with
        | .ok c => pure { name, isCommand, channel := some c, isPrompt := name == "/dev/stderr" }
        | .error e =>
          stop ("cannot open \"" ++ name ++ "\" for output (" ++ causeText e ++ ")")
    modifyThe Machine fun m => { m with outputs := o :: m.outputs }
    return o

/-- Puts an output in place of an earlier state of it. -/
def updateOutput (o : Output) : Act Unit :=
  modifyThe Machine fun m =>
    { m with outputs := m.outputs.map fun p =>
        if Output.isNamed p o.name o.isCommand then o else p }

/-- Prints to the standard output or to a sink. -/
def print (become : List String → Run FileError) (sink : Option (Sink × String)) (s : String) :
    Act Unit := do
  let o ← match sink with
    | none => do
      pure (((← getThe Machine).outputs.find? (Output.isNamed · "/dev/stdout" false)).getD
        { name := "/dev/stdout", isCommand := false, channel := none })
    | some (k, name) => openOutput become k name
  updateOutput (← put o s)

/-- Closes an output; the status of its command. -/
def closeOutput (o : Output) : Act Nat := do
  let o ← flushed o
  if let some d := o.descriptor then run (setChannel d none)
  match o.child with
  | some child => return commandStatus (← run (waitEnd child))
  | none => return 0

def closeInput (i : Input) : Act Nat := do
  if let some d := i.descriptor then run (setChannel d none)
  match i.child with
  | some child => return commandStatus (← run (waitEnd child))
  | none => return 0

/-- Closes what goes by a name; nothing if there is nothing. -/
def close (name : String) : Act (Option Nat) := do
  let m ← getThe Machine
  let outputs := m.outputs.filter fun o => o.name == name
  let inputs := m.inputs.filter fun i => i.name == name
  modifyThe Machine fun m => { m with
    outputs := m.outputs.filter fun o => o.name != name
    inputs := m.inputs.filter fun i => i.name != name }
  let a ← outputs.mapM closeOutput
  let b ← inputs.mapM closeInput
  return (a ++ b).getLast?

/-! ### Inputs -/

/-- How much is read at a time. -/
def blockSize : Nat := 4096

/-- The next record of an input; nothing at its end. What waits is looked at when there is a
whole block of it or nothing follows. The number bounds the pieces. -/
def nextRecord (e : RecordEnd) : Nat → Nat → Input → Act (Option String × Input)
  | 0, _, _ => run forever
  | n + 1, gathered, i => do
    let isFull := i.atEnd || gathered = 0 && !e.needsAll || blockSize ≤ gathered && !e.needsAll
    match if isFull then e.cut? i.atEnd i.waiting else none with
    | some (r, rest) => return (some (String.ofList r), { i with waiting := rest })
    | none =>
      if i.atEnd then return (none, i)
      else
        let gathered := if isFull then 0 else gathered
        let piece ← match i.channel with
          | some c => run (fetch c (fun _ => false) (blockSize - gathered))
          | none => pure (.error .closed)
        match piece with
        | .ok [] => nextRecord e n blockSize { i with atEnd := true }
        | .ok cs =>
          nextRecord e n (gathered + cs.length) { i with waiting := i.waiting ++ cs }
        | .error e => stop ("read error (" ++ e.message ++ ")")

/-- What ends the records of inputs. -/
def recordEnd : Act RecordEnd := do
  let s ← text (← global "RS")
  match RecordEnd.ofText s with
  | .ok e => return e
  | .error e => fault ("regular expression compile failed (" ++ e ++ ")\n" ++ s)

/-- The next record of a file or of a command; nothing at the end, an error if it cannot be
opened. -/
def recordFrom (become : List String → Run FileError) (isCommand : Bool) (name : String) :
    Act (Except Unit (Option String)) := do
  let isSame (i : Input) : Bool := i.name == name && i.isCommand == isCommand
  let found : Option Input ←
    match (← getThe Machine).inputs.find? isSame with
    | some i => pure (some i)
    | none =>
      if isCommand then do
        flushStandard
        let p ← run (newPipe "")
        let d ← keep (.source p)
        let child ← startCommand become "/bin/sh" name fun cs =>
          (1, .sink p) :: cs.filter (·.1 != 1)
        pure (some { name, isCommand, channel := some (.source p), descriptor := some d
                     child := some child : Input })
      else do
        let opened ← run (do
          if name == "-" || name == "/dev/stdin" then return .ok (← channel? 0)
          else return (← openForReading name).map some)
        match opened with
        | .ok channel => pure (some { name, isCommand, channel : Input })
        | .error _ => pure none
  match found with
  | none => return .error ()
  | some i =>
    let (r, i) ← nextRecord (← recordEnd) maxPieces 0 i
    modifyThe Machine fun m => { m with inputs := i :: m.inputs.filter (!isSame ·) }
    return .ok r

/-- Counts a record of the script's own inputs. -/
def countRecord (n : Nat) : Act Unit := do
  let up (name : String) : Act Unit := do
    setGlobal name (.number ((← global name).toNumber + n.toFloat))
  up "NR"
  up "FNR"

/-- An argument that assigns a value: its name and the value. -/
def assignment? (s : String) : Option (String × String) :=
  let cs := s.toList
  let name := cs.takeWhile fun c => c.isAlphanum || c == '_'
  match cs.drop name.length with
  | '=' :: value =>
    if name.isEmpty || name.head?.any Char.isDigit then none
    else some (String.ofList name, unescapedText (String.ofList value))
  | _ => none

/-- An element of the arguments. -/
def argumentAt (k : Nat) : Act String := do
  match (← getThe Machine).globals.get? "ARGV" with
  | some (.array id) =>
    match (← dictionary id).cells.get? (toString k) with
    | some v => text v
    | none => return ""
  | _ => return ""

/-- Opens the next input that the arguments name, or the standard input if they name none; whether
there was one. The number bounds the arguments. -/
def openNext : Nat → Act Bool
  | 0 => return false
  | n + 1 => do
    let m ← getThe Machine
    let count := (clampedWhole (← global "ARGC").toNumber).toNat
    let begin' (name : String) (channel : Option Channel) : Act Bool := do
      setGlobal "FILENAME" (.text name)
      setGlobal "FNR" (.number 0)
      modifyThe Machine fun m =>
        { m with foundInput := true, current := some { name, isCommand := false, channel } }
      return true
    if count ≤ m.argument then
      if m.foundInput then return false
      else begin' "-" (← run (channel? 0))
    else
      let s ← argumentAt m.argument
      modifyThe Machine fun m => { m with argument := m.argument + 1 }
      if s.isEmpty then openNext n
      else
        match assignment? s with
        | some (name, value) =>
          setValue name (.given value)
          openNext n
        | none =>
          if s == "-" || s == "/dev/stdin" then begin' s (← run (channel? 0))
          else
            match ← run (openForReading s) with
            | .ok c => begin' s (some c)
            | .error e => stop ("cannot open \"" ++ s ++ "\" (" ++ causeText e ++ ")")

/-- The next record of the script's own inputs; nothing behind the last one. -/
def mainRecord : Nat → Act (Option String)
  | 0 => return none
  | n + 1 => do
    match (← getThe Machine).current with
    | none => if ← openNext maxPieces then mainRecord n else return none
    | some i =>
      let (r, i) ← nextRecord (← recordEnd) maxPieces 0 i
      match r with
      | some s =>
        modifyThe Machine fun m => { m with current := some i }
        countRecord 1
        return some s
      | none =>
        modifyThe Machine fun m => { m with current := none }
        mainRecord n

end Act

end PatchSearch.Shell.RecordScript
