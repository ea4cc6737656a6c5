import PatchSearch.Shell.RecordScript.Machine
import PatchSearch.Shell.RecordScript.Reader

/-!
Running scripts. Expressions and statements act on a `Machine`; a loop, a function and the script
itself are left by what is thrown inside them. All functions take a bound on the steps.
-/
namespace PatchSearch.Shell.RecordScript

open Run

/-- What a target leads to once its index is known. -/
inductive Place where
  | name (s : String)
  | item (array : Nat) (key : Key)
  | field (n : Nat)

namespace Act

/-- How long a turn of a loop takes. -/
def turnTime : Nat := 5000

/-- Lets time go by; other programs take their steps. -/
def tick (nanos : Nat) : Act Unit :=
  run do
    look fun _ => ()
    pause nanos

def placeValue : Place → Act Value
  | .name s => valueOf s
  | .item a k => onArray a fun d => d.get k
  | .field n => field n

def setPlace : Place → Value → Act Unit
  | .name s, v => setValue s v
  | .item a k, v => onArray a fun d => ((), d.insert k v)
  | .field n, v => setField n v

/-- The regular expression that a text spells. -/
def patternOfText (s : String) : Act Regex := do
  match readPattern s with
  | .ok p => return p.regex
  | .error e => fault ("regular expression compile failed (" ++ e ++ ")\n" ++ s)

/-- The number of a field. -/
def fieldNumber (v : Value) : Act Nat := do
  let x := v.toNumber
  if x < 0 then fault ("negative field index $" ++ toString (clampedWhole x))
  else return (clampedWhole x).toNat

/-- What a replacement puts in place of a match: `&` stands for the match, also in the text of the
replacement unless a backslash stands before it. -/
def replacementPieces : List Char → List (Option Char)
  | '\\' :: '&' :: cs => some '&' :: replacementPieces cs
  | '\\' :: '\\' :: cs => some '\\' :: replacementPieces cs
  | '&' :: cs => none :: replacementPieces cs
  | c :: cs => some c :: replacementPieces cs
  | [] => []

def replaced (pieces : List (Option Char)) (found : List Char) : List Char :=
  pieces.flatMap fun p =>
    match p with
    | some c => [c]
    | none => found

/-- A text with the first match or all matches replaced, and how many there were. -/
def substitute (all : Bool) (r : Regex) (replacement : String) (s : String) : Nat × String :=
  let cs := s.toList
  let found := if all then r.matchesOf cs else (r.findIn cs).toList
  let pieces := replacementPieces replacement.toList
  let (out, position) := found.foldl (fun (state : List (List Char) × Nat) m =>
    let kept := (cs.drop state.2).take (m.1 - state.2)
    let text := (cs.drop m.1).take (m.2.position - m.1)
    (replaced pieces text :: kept :: state.1, m.2.position)) ([], 0)
  (found.length, String.ofList ((cs.drop position :: out).reverse.flatten))

/-- A part of a text: the characters whose places lie between two rounded bounds. -/
def part (s : String) (start : Float) (length : Option Float) : String :=
  let size := s.length.toFloat
  let round (x : Float) : Float :=
    let f := x.floor
    if x - f == 0.5 then (if floatRest f 2 == 0 then f else f + 1) else (x + 0.5).floor
  let low := round start
  let high := match length with
    | some n => round (start + n)
    | none => size + 1
  let low := if low < 1 then 1 else low
  let high := if size + 1 < high then size + 1 else high
  if low < high then
    let i := (low - 1).toUInt64.toNat
    String.ofList ((s.toList.drop i).take ((high - low).toUInt64.toNat))
  else ""

/-- The place of a text in another one, counted from one on; zero if it is not there. -/
def placeOf (s t : String) : Nat :=
  let wanted := t.toList
  let rec go : Nat → List Char → Nat
    | k, [] => if wanted.isEmpty then k else 0
    | k, c :: cs => if wanted.isPrefixOf (c :: cs) then k else go (k + 1) cs
  if s.isEmpty then 0 else go 1 s.toList

/-- A key from the values of an index. -/
def keyOf (vs : List Value) : Act Key := do
  match vs with
  | [v] => return v.toKey (← numbers)
  | vs =>
    let parts ← vs.mapM text
    return .text (String.intercalate (← text (← global "SUBSEP")) parts)

/-- Functions that look at nothing but their arguments. -/
def plainFunction (name : String) (vs : List Value) : Act Value := do
  let number (k : Nat) : Float := ((vs[k]?).getD .unset).toNumber
  let word (k : Nat) : Act String := text ((vs[k]?).getD .unset)
  match name with
  | "index" => return .ofNat (placeOf (← word 0) (← word 1))
  | "substr" =>
    let length := if vs.length < 3 then none else some (number 2)
    return .text (part (← word 0) (number 1) length)
  | "sprintf" =>
    match formatted (← numbers) "sprintf" (← word 0) (vs.drop 1) with
    | (s, none) => return .text s
    | (_, some e) => fault e
  | "sin" => return .number (number 0).sin
  | "cos" => return .number (number 0).cos
  | "atan2" => return .number (Float.atan2 (number 0) (number 1))
  | "exp" => return .number (number 0).exp
  | "log" => return .number (number 0).log
  | "sqrt" => return .number (number 0).sqrt
  | "int" =>
    let x := number 0
    return .number (if x < 0 then x.ceil else x.floor)
  | "tolower" => return .text (String.ofList ((← word 0).toList.map Char.toLower))
  | "toupper" => return .text (String.ofList ((← word 0).toList.map Char.toUpper))
  | "systime" =>
    let now ← run (look fun w => (w.began + w.now) / 1000000000)
    return .ofNat now
  | "srand" =>
    let before := (← getThe Machine).seed
    let now ← run (look fun w => (w.began + w.now) / 1000000000)
    modifyThe Machine fun m =>
      { m with seed := if vs.isEmpty then now.toFloat else number 0 }
    return .number before
  | "rand" => return .number 0.5
  | _ => return .unset

mutual

def eval (become : List String → Run FileError) : Nat → Expr → Act Value
  | 0, _ => run forever
  | _, .number x => return .number x
  | _, .text s => return .text s
  | _, .pattern p => do
    return .ofBool (p.regex.isIn (← text (← record)))
  | _, .name s => valueOf s
  | n + 1, .item a index => do
    let k ← keyOf (← evalAll become n index)
    placeValue (.item (← arrayId a) k)
  | n + 1, .field e => do
    field (← fieldNumber (← eval become n e))
  | n + 1, .assign none target e => do
    let p ← place become n target
    let v ← eval become n e
    setPlace p v
    return v
  | n + 1, .assign (some op) target e => do
    let p ← place become n target
    let y := (← eval become n e).toNumber
    let v := Value.number (op.apply (← placeValue p).toNumber y)
    setPlace p v
    return v
  | n + 1, .choice c a b => do
    if (← eval become n c).isTrue then eval become n a else eval become n b
  | n + 1, .both a b => do
    if (← eval become n a).isTrue then return .ofBool (← eval become n b).isTrue
    else return .ofBool false
  | n + 1, .either a b => do
    if (← eval become n a).isTrue then return .ofBool true
    else return .ofBool (← eval become n b).isTrue
  | n + 1, .contains index a => do
    let k ← keyOf (← evalAll become n index)
    let id ← arrayId a
    return .ofBool (← onArray id fun d => d.touch false k)
  | n + 1, .fits holds e p => do
    let s ← text (← eval become n e)
    let r ← pattern become n p
    return .ofBool (r.isIn s == holds)
  | n + 1, .compare c a b => do
    let x ← eval become n a
    let y ← eval become n b
    return .ofBool (c.compare (← numbers) x y)
  | n + 1, .joined a b => do
    let x ← eval become n a
    let y ← eval become n b
    return .text ((← text x) ++ (← text y))
  | n + 1, .calculate op a b => do
    let x ← eval become n a
    let y ← eval become n b
    return .number (op.apply x.toNumber y.toNumber)
  | n + 1, .opposite e => do
    return .ofBool !(← eval become n e).isTrue
  | n + 1, .negative e => do
    return .number (-(← eval become n e).toNumber)
  | n + 1, .positive e => do
    return .number (← eval become n e).toNumber
  | n + 1, .step up before target => do
    let p ← place become n target
    let old := (← placeValue p).toNumber
    let new := if up then old + 1 else old - 1
    setPlace p (.number new)
    return .number (if before then new else old)
  | n + 1, .grouped e => eval become n e
  | n + 1, .call f args => call become n f args
  | n + 1, .ready f args => ready become n f args
  | n + 1, .readLine source from' target => readLine become n source from' target

def evalAll (become : List String → Run FileError) : Nat → List Expr → Act (List Value)
  | 0, _ => run forever
  | _, [] => return []
  | n + 1, e :: es => do
    let v ← eval become n e
    return v :: (← evalAll become n es)

/-- What a target leads to. -/
def place (become : List String → Run FileError) : Nat → Expr → Act Place
  | 0, _ => run forever
  | _, .name s => return .name s
  | n + 1, .item a index => do
    let k ← keyOf (← evalAll become n index)
    return .item (← arrayId a) k
  | n + 1, .field e => do
    return .field (← fieldNumber (← eval become n e))
  | n + 1, .grouped e => place become n e
  | _, _ => return .name ""

/-- A regular expression that stands as an operand: as it is written, or from a text. -/
def pattern (become : List String → Run FileError) : Nat → Expr → Act Regex
  | 0, _ => run forever
  | _, .pattern p => return p.regex
  | n + 1, e => do patternOfText (← text (← eval become n e))

/-- Calls a function. An argument that is a bare name without a value can become an array inside
the function. -/
def call (become : List String → Run FileError) : Nat → String → List Expr → Act Value
  | 0, _, _ => run forever
  | n + 1, f, args => do
    match (← getThe Machine).script.functions.find? (·.name == f) with
    | none => return .unset
    | some function =>
      let slots ← argumentSlots become n args
      let frame : Std.HashMap String Slot :=
        (function.parameters.zipIdx).foldl (fun frame (p, k) =>
          frame.insert p ((slots[k]?).getD .unset)) {}
      modifyThe Machine fun m => { m with frames := frame :: m.frames, answer := .unset }
      tick turnTime
      let left : Option Leaving ← tryCatchThe Leaving
        (do
          exec become n function.body
          return none)
        (fun e => return some e)
      let m ← getThe Machine
      let frame := m.frames.headD {}
      let answer := m.answer
      modifyThe Machine fun m => { m with frames := m.frames.drop 1, answer := .unset }
      for ((p, a), s) in (function.parameters.zip args).zip slots do
        match a, s, frame.get? p with
        | .name x, .unset, some (.array id) => setSlot x (.array id)
        | _, _, _ => pure ()
      match left with
      | none => return answer
      | some .return => return answer
      | some e => throw e

/-- The slots that arguments bring along. -/
def argumentSlots (become : List String → Run FileError) : Nat → List Expr → Act (List Slot)
  | 0, _ => run forever
  | _, [] => return []
  | n + 1, .name s :: es => do
    let first ← if s == "NF" then do pure (Slot.value (← valueOf s)) else slot s
    return first :: (← argumentSlots become n es)
  | n + 1, e :: es => do
    let v ← eval become n e
    return .value v :: (← argumentSlots become n es)

/-- Functions that every script has. -/
def ready (become : List String → Run FileError) : Nat → String → List Expr → Act Value
  | 0, _, _ => run forever
  | n + 1, f, args => do
    match f, args with
    | "length", [] => return .ofNat (← text (← record)).length
    | "length", [.name s] =>
      match ← slot s with
      | .array id => return .ofNat (← dictionary id).size
      | _ => return .ofNat (← text (← valueOf s)).length
    | "length", e :: _ => return .ofNat (← text (← eval become n e)).length
    | "match", [e, p] =>
      let s ← text (← eval become n e)
      let r ← pattern become n p
      let (start, length) : Float × Float := match r.findIn s.toList with
        | some (start, q) => ((start + 1).toFloat, (q.position - start).toFloat)
        | none => (0, -1)
      setGlobal "RSTART" (.number start)
      setGlobal "RLENGTH" (.number length)
      return .number start
    | "split", e :: .name a :: rest =>
      let s ← text (← eval become n e)
      let sep ← match rest with
        | .pattern p :: _ => pure (Separator.pattern p.regex)
        | p :: _ => separator (← text (← eval become n p))
        | [] => separator (← text (← global "FS"))
      let parts := fieldsOf sep s
      let id ← arrayId a
      onArray id fun _ => ((), Dictionary.ofRow (parts.map Value.given))
      return .ofNat parts.length
    | "sub", args => substitution become n false args
    | "gsub", args => substitution become n true args
    | "close", [e] =>
      match ← close (← text (← eval become n e)) with
      | some status => return .ofNat status
      | none => return .number (-1)
    | "system", [e] =>
      return .ofNat (← runCommand become (← text (← eval become n e)))
    | "fflush", [] =>
      flushAll
      return .number 0
    | "fflush", e :: _ =>
      let name ← text (← eval become n e)
      flushAll
      let isOpen := (← getThe Machine).outputs.any (·.name == name)
      return .number (if isOpen || name.isEmpty then 0 else -1)
    | f, args => plainFunction f (← evalAll become n args)

/-- Replaces matches in a target, or in the record. -/
def substitution (become : List String → Run FileError) : Nat → Bool → List Expr → Act Value
  | 0, _, _ => run forever
  | n + 1, all, args => do
    match args with
    | p :: e :: rest =>
      let r ← pattern become n p
      let replacement ← text (← eval become n e)
      let target ← match rest with
        | t :: _ => place become n t
        | [] => pure (Place.field 0)
      let s ← text (← placeValue target)
      let (count, new) := substitute all r replacement s
      if 0 < count then setPlace target (.text new)
      return .ofNat count
    | _ => return .unset

/-- Reads a record into a target, or in place of the present one. -/
def readLine (become : List String → Run FileError) :
    Nat → Source → Option Expr → Option Expr → Act Value
  | 0, _, _, _ => run forever
  | n + 1, source, from', target => do
    let found : Except Unit (Option String) ← match source, from' with
      | .inputs, _ => do pure (.ok (← mainRecord maxPieces))
      | kind, some e => do
        recordFrom become (kind == .command) (← text (← eval become n e))
      | _, none => pure (.error ())
    match found with
    | .error _ => return .number (-1)
    | .ok none => return .number 0
    | .ok (some s) =>
      match target with
      | some t => setPlace (← place become n t) (.given s)
      | none => setRecord (.given s)
      return .number 1

/-- Takes the steps of a statement. -/
def exec (become : List String → Run FileError) : Nat → Statement → Act Unit
  | 0, _ => run forever
  | n + 1, .evaluate e => do
    discard (eval become n e)
  | n + 1, .print es sink => do
    let vs ← if es.isEmpty then do pure [← record] else evalAll become n es
    let format ← text (← global "OFMT")
    let parts ← vs.mapM fun v =>
      match v with
      | .number x => pure (Value.numberText format x)
      | v => text v
    let line := String.intercalate (← text (← global "OFS")) parts ++ (← text (← global "ORS"))
    print become (← sinkOf become n sink) line
  | n + 1, .printFormat es sink => do
    match ← evalAll become n es with
    | f :: vs =>
      let (s, problem) := formatted (← numbers) "printf" (← text f) vs
      print become (← sinkOf become n sink) s
      if let some e := problem then fault e
    | [] => return
  | n + 1, .block body => execAll become n body
  | n + 1, .branch c a b => do
    if (← eval become n c).isTrue then exec become n a
    else
      match b with
      | some b => exec become n b
      | none => return
  | n + 1, .while c body => do
    if (← eval become n c).isTrue then
      if ← turn become n body then exec become n (.while c body)
  | n + 1, .doWhile body c => do
    if ← turn become n body then
      if (← eval become n c).isTrue then exec become n (.doWhile body c)
  | n + 1, .count first c step body => do
    if let some s := first then exec become n s
    let goesOn ← match c with
      | some c => do pure (← eval become n c).isTrue
      | none => pure true
    if goesOn then
      if ← turn become n body then exec become n (.count step c step body)
  | n + 1, .each x a body => do
    let id ← arrayId a
    let keys ← onArray id fun d => d.keys
    eachKey become n x keys body
  | _, .next => throw .next
  | _, .nextFile => throw .nextFile
  | n + 1, .exit e => do
    if let some e := e then
      let v ← eval become n e
      modifyThe Machine fun m => { m with status := (clampedWhole v.toNumber % 256).toNat }
    throw .exit
  | n + 1, .return e => do
    let v ← match e with
      | some e => eval become n e
      | none => pure .unset
    modifyThe Machine fun m => { m with answer := v }
    throw .return
  | _, .break => throw .break
  | _, .continue => throw .continue
  | n + 1, .delete a index => do
    let k ← keyOf (← evalAll become n index)
    let id ← arrayId a
    onArray id fun d => ((), d.erase k)
  | _, .clear a => do
    let id ← arrayId a
    onArray id fun _ => ((), {})

def execAll (become : List String → Run FileError) : Nat → List Statement → Act Unit
  | 0, _ => run forever
  | _, [] => return
  | n + 1, s :: ss => do
    exec become n s
    execAll become n ss

/-- A turn of a loop; whether the loop goes on. -/
def turn (become : List String → Run FileError) : Nat → Statement → Act Bool
  | 0, _ => run forever
  | n + 1, body => do
    tick turnTime
    tryCatchThe Leaving
      (do
        exec become n body
        return true)
      (fun e =>
        match e with
        | .break => return false
        | .continue => return true
        | e => throw e)

/-- The turns of a loop over keys. -/
def eachKey (become : List String → Run FileError) :
    Nat → String → List String → Statement → Act Unit
  | 0, _, _, _ => run forever
  | _, _, [], _ => return
  | n + 1, x, k :: ks, body => do
    setValue x (.given k)
    if ← turn become n body then eachKey become n x ks body

/-- The sink of a print statement by its name. -/
def sinkOf (become : List String → Run FileError) :
    Nat → Option (Sink × Expr) → Act (Option (Sink × String))
  | 0, _ => run forever
  | _, none => return none
  | n + 1, some (k, e) => do return some (k, ← text (← eval become n e))

end

/-- The most steps into the depth. -/
def maxSteps : Nat := 1000000000

/-- Whether a rule applies to the record. Its number tells whether its span is open. -/
def applies (become : List String → Run FileError) (k : Nat) : Condition → Act Bool
  | .always => return true
  | .holds e => do return (← eval become maxSteps e).isTrue
  | .span first last => do
    let isOpen := (← getThe Machine).spans.contains k
    let starts ← if isOpen then pure true else do pure (← eval become maxSteps first).isTrue
    if !starts then return false
    let ends := (← eval become maxSteps last).isTrue
    modifyThe Machine fun m =>
      { m with spans := if ends then m.spans.filter (· != k)
          else if m.spans.contains k then m.spans else k :: m.spans }
    return true

/-- Applies the rules to the record. -/
def applyRules (become : List String → Run FileError) : Nat → List Rule → Act Unit
  | _, [] => return
  | k, r :: rs => do
    if ← applies become k r.condition then
      exec become maxSteps (r.action.getD (.print [] none))
    applyRules become (k + 1) rs

/-- Goes through the records. The number bounds them. -/
def applyToRecords (become : List String → Run FileError) (rules : List Rule) : Nat → Act Unit
  | 0 => run forever
  | n + 1 => do
    match ← mainRecord maxPieces with
    | none => return
    | some s =>
      setRecord (.given s)
      tick 1000
      tryCatchThe Leaving (applyRules become 0 rules) fun e =>
        match e with
        | .next => return
        | .nextFile => modifyThe Machine fun m => { m with current := none }
        | e => throw e
      applyToRecords become rules n

/-- Runs a computation; whether it was not left by an `exit`. -/
def untilExit (x : Act Unit) : Act Bool :=
  tryCatchThe Leaving
    (do
      x
      return true)
    (fun e => do
      modifyThe Machine fun m => { m with frames := [] }
      if e == .failed then throw e else return false)

/-- Runs a whole script. What comes last is done also after an `exit`. -/
def runScript (become : List String → Run FileError) : Act Unit := do
  let script := (← getThe Machine).script
  let goesOn ← untilExit (script.beginnings.forM (exec become maxSteps))
  if goesOn && !(script.rules.isEmpty && script.endings.isEmpty) then
    discard (untilExit (applyToRecords become script.rules maxSteps))
  discard (untilExit (script.endings.forM (exec become maxSteps)))

/-- Closes all outputs. -/
def closeAll : Act Unit := do
  for o in (← getThe Machine).outputs do
    discard (closeOutput o)

end Act

/-- Runs a script with assignments in front and arguments; its status. -/
def runMachine (become : List String → Run FileError) (script : Script)
    (settings : List (String × String)) (args : List String) : Run Nat := do
  let variables' ← (do return (← get).environment)
  let texts (vs : List (String × String)) : List (String × Value) :=
    vs.map fun v => (v.1, .given v.2)
  let globals : Std.HashMap String Slot := Std.HashMap.ofList
    [("FS", .value (.text " ")), ("OFS", .value (.text " ")), ("ORS", .value (.text "\n")),
      ("RS", .value (.text "\n")), ("SUBSEP", .value (.text "\x1c")),
      ("CONVFMT", .value (.text "%.6g")), ("OFMT", .value (.text "%.6g")),
      ("NR", .value (.number 0)), ("FNR", .value (.number 0)), ("FILENAME", .value (.text "")),
      ("RSTART", .value (.number 0)), ("RLENGTH", .value (.number (-1))),
      ("ARGC", .value (.ofNat args.length)), ("ARGV", .array 0), ("ENVIRON", .array 1)]
  let arguments := args.zipIdx.foldl (fun (d : Dictionary Value) (s, k) =>
    d.insert (.whole (Int.ofNat k)) (.given s)) {}
  let surroundings := (texts variables').foldl (fun (d : Dictionary Value) v =>
    d.insert (.text v.1) v.2) {}
  let standard : Output :=
    { name := "/dev/stdout", isCommand := false, channel := ← channel? 1 }
  let machine : Machine :=
    { script, globals, arrays := #[arguments, surroundings], outputs := [standard] }
  let work : Act Unit := do
    for (name, value) in settings do
      Act.setValue name (.given value)
    tryCatchThe Leaving (Act.runScript become) fun _ => return
    Act.closeAll
  let (_, m) ← StateT.run (ExceptT.run work) machine
  return m.status

end PatchSearch.Shell.RecordScript
