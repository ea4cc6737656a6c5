import PatchSearch.Shell.Utility.Basic

/-!
Paths that utilities make out of their operands, walks through directories, and what utilities ask
before they change something.
-/
namespace PatchSearch.Shell

open Run

/-- A name below a path. -/
def below (front name : String) : String :=
  if front.endsWith "/" then front ++ name else front ++ "/" ++ name

/-- The octets of the last name of a path, without slashes behind it. -/
def lastPart? (name : String) : Option String :=
  (baseName (textOfOctets name)).map octets

/-- A path without the slashes at its end. -/
def withoutSlashes (s : String) : String :=
  let kept := (s.toList.reverse.dropWhile (· == '/')).reverse
  if kept.isEmpty && !s.isEmpty then "/" else String.ofList kept

/-- The items from a position on, parents first: their names from there and what they are. -/
def itemsFrom (files : FileTree) : Nat → Position → List (List String × Item)
  | 0, _ => []
  | n + 1, p =>
    match files.item? p with
    | none => []
    | some x =>
      ([], x) :: if x.entry.isDirectory then
        (files.namesBelow p).flatMap fun name =>
          (itemsFrom files n (p ++ [name])).map fun e => (name :: e.1, e.2)
      else []

/-- All items from a position on. -/
def treeFrom (files : FileTree) (p : Position) : List (List String × Item) :=
  itemsFrom files (files.items.length + 1) p

/-- A name with further names below it. -/
def namedBelow (name : String) (names : List String) : String :=
  names.foldl (fun s n => below s (octets n)) name

/-- Where a source goes: below the target if that is a directory, unless it must not be. -/
def destination (source target : String) (plain : Bool) : Run String := do
  match ← find target with
  | .ok (_, .directory) =>
    if plain then return target
    else
      let last := lastPart? source
      let keeps := withoutSlashes source == "." || source.endsWith "/." || last == some ".."
      match last with
      | some n => return if keeps then target else below target n
      | none => return target
  | _ => return target

/-- Runs a step of a utility on each of its sources and the path each of them goes to; a step gets
what the one before it left. -/
def ontoTarget {α : Type} (name : String) (o : Options) (start : α)
    (one : α → String → String → Run α) : Run Unit := do
  let plain := o.has 'T'
  let (sources, target) := match o.value? 't' with
    | some t => (o.operands, some t)
    | none => (o.operands.dropLast, o.operands.getLast?)
  match sources, target with
  | [], some source =>
    misuse name 1 ("missing destination file operand after " ++ inQuotes source)
  | _, none => misuse name 1 "missing file operand"
  | sources, some target =>
    if plain && 1 < sources.length then
      misuse name 1 ("extra operand " ++ inQuotes (o.operands.getLastD ""))
    let found ← find target
    let isDirectory := match found with
      | .ok (_, .directory) => true
      | _ => false
    if (1 < sources.length || (o.value? 't').isSome) && !isDirectory then
      fail name 1 (((if (o.value? 't').isSome then "target directory " else "target ")) ++
        inQuotes target ++ ": " ++ match found with
          | .ok _ => "Not a directory"
          | .error e => causeText e)
    let mut state := start
    for s in sources do
      state ← one state s (← destination s target plain)

/-- Asks whether to go on; whether the answer is yes. -/
def confirm (name question : String) : Run Bool := do
  tell ((← ownName name) ++ ": " ++ question ++ "? ")
  let answer := ((← readLine 0).toOption.getD "").toList
  return answer.head? == some 'y' || answer.head? == some 'Y'

/-- How a file that is about to be replaced is kept. -/
structure Backup where
  /-- Whether copies are numbered, always or where numbered ones exist. -/
  numbered : Bool := false
  existing : Bool := false
  suffix : String := "~"

namespace Backup

/-- The way of keeping files that options ask for; a letter asks for it without more. -/
def ofOptions (o : Options) (plain long : Char) : Option Backup :=
  let suffix := (o.value? 'S').getD "~"
  match o.last? [plain, long] with
  | none => if (o.value? 'S').isSome then some { existing := true, suffix } else none
  | some _ =>
    match o.value? long with
    | some "numbered" | some "t" => some { numbered := true, suffix }
    | some "simple" | some "never" => some { suffix }
    | some "none" | some "off" => none
    | _ => some { existing := true, suffix }

/-- The name that a file is kept under. -/
def nameOf (b : Backup) (t : FileTree) (name : String) : String :=
  let isTaken (k : Nat) : Bool := (t.findLink (path (name ++ ".~" ++ toString k ++ "~"))).isOk
  let taken := (List.range (t.items.length + 1)).filter fun k => isTaken (k + 1)
  match b.numbered || b.existing && !taken.isEmpty, taken.getLast? with
  | true, some k => name ++ ".~" ++ toString (k + 2) ++ "~"
  | true, none => name ++ ".~1~"
  | false, _ => name ++ b.suffix

end Backup

/-- Gives what stands at a path the name that it is kept under; that name. -/
def keepBackup (b : Backup) (name : String) : Run String := do
  let t ← files
  let copy := b.nameOf t name
  match t.resolve false (path name), t.resolve false (path copy) with
  | .ok p, .ok q => onFiles fun t => ((), t.move p q)
  | _, _ => pure ()
  return copy

/-- A message that one name has become another one, and the name that an earlier file is kept
under. -/
def namesTold (old new : String) (backup : Option String) : String :=
  inQuotes old ++ " -> " ++ inQuotes new ++
    match backup with
    | some copy => " (backup: " ++ inQuotes copy ++ ")\n"
    | none => "\n"

end PatchSearch.Shell
