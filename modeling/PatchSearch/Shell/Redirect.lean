import PatchSearch.Shell.Expand

/-!
Redirections. What a redirection leads to is expanded first; then descriptors change one after
the other, and after a command each of them leads where it did before. A fault is told and gives
the command the status two.
-/
namespace PatchSearch.Shell

/-- A redirection whose words are expanded. -/
inductive Opening where
  | file (descriptor : Nat) (mode : OpenMode) (name : String)
  | share (descriptor : Nat) (source : Option Nat)
  | text (descriptor : Nat) (content : String)

namespace Opening

def descriptor : Opening → Nat
  | file d _ _ => d
  | share d _ => d
  | text d _ => d

end Opening

/-- The cause of a failure without its number. -/
def causeText (e : FileError) : String :=
  ((e.message.splitOn " (os error").head?).getD ""

/-- Why a file cannot be opened, where it matters most that something is missing. -/
def openFailure (missing : String) (e : FileError) : String :=
  if e == .notFound || e == .notADirectory then missing else causeText e

namespace Run

/-- Names of devices. -/
def deviceNames : List String :=
  ["/dev/null", "/dev/full", "/dev/zero", "/dev/tty"]

/-- The device that a name stands for, if it is one. -/
def device? (name : String) : Run (Option (Except FileError Channel)) := do
  let shared (d : Nat) : Run (Option (Except FileError Channel)) := do
    match ← channel? d with
    | some c => return some (.ok c)
    | none => return some (.error .notFound)
  match name with
  | "/dev/null" => return some (.ok .nowhere)
  | "/dev/full" => return some (.ok (.zeros false))
  | "/dev/zero" => return some (.ok (.zeros true))
  | "/dev/stdin" => shared 0
  | "/dev/stdout" => shared 1
  | "/dev/stderr" => shared 2
  | _ =>
    match name.splitOn "/" with
    | ["", "dev", "fd", n] =>
      match integer? n with
      | some n => shared n.toNat
      | none => return some (.error .notFound)
    | _ => return none

/-- Opens a file for reading. -/
def openForReading (name : String) : Run (Except FileError Channel) := do
  match ← device? name with
  | some c => return c
  | none =>
    match (← files).findItem (textOfOctets name) with
    | .ok (_, x) => return .ok (← newOpened { number := x.number, canRead := true, canWrite := false })
    | .error e => return .error e

/-- Opens a file for writing, which is made if it does not exist. -/
def openForWriting (name : String) (mode : OpenMode) : Run (Except FileError Channel) := do
  match ← device? name with
  | some c => return c
  | none =>
    let path := textOfOctets name
    let keepsContent := mode == .append || mode == .both
    let guarded := mode == .output && (← get).has 'C'
    let opened ← onFiles fun files =>
      if guarded && files.isFile path then (.error .alreadyExists, files)
      else
        let old := if keepsContent then (files.read path).toOption.getD ByteArray.empty
          else ByteArray.empty
        match files.write path old with
        | .error e => (.error e, files)
        | .ok files => ((files.findItem path).map (·.2.number), files)
    match opened with
    | .error e => return .error e
    | .ok number =>
      return .ok (← newOpened
        { number, canRead := mode == .both, canWrite := true, appends := mode == .append })

/-- The channel that an opening leads to; nothing if it closes the descriptor. -/
def channelOf (o : Opening) : Run (Except String (Option Channel)) := do
  match o with
  | .file _ .input name =>
    match ← openForReading name with
    | .ok c => return .ok (some c)
    | .error e => return .error ("cannot open " ++ name ++ ": " ++ openFailure "No such file" e)
  | .file _ mode name =>
    match ← openForWriting name mode with
    | .ok c => return .ok (some c)
    | .error e =>
      return .error ("cannot create " ++ name ++ ": " ++ openFailure "Directory nonexistent" e)
  | .share _ none => return .ok none
  | .share _ (some source) =>
    match ← channel? source with
    | some c => return .ok (some c)
    | none => return .error (toString source ++ ": Bad file descriptor")
  | .text _ content => return .ok (some (.source (← newPipe content)))

/-- Follows openings up to the first fault, which is told; whether there was none. -/
def follow : List Opening → Run Bool
  | [] => return true
  | o :: os => do
    match ← channelOf o with
    | .ok c =>
      setChannel o.descriptor c
      follow os
    | .error text =>
      complain text
      return false

/-- Runs a computation under openings and takes them back; nothing if one of them fails. -/
def under {β : Type} (os : List Opening) (act : Run β) : Run (Option β) := do
  if os.isEmpty then return some (← act)
  else
    let before ← channels
    let changed := (os.map Opening.descriptor).eraseDups
    let kept := changed.filterMap fun d => before.lookup d
    let base := keptFrom + (← get).keeping
    modify fun m => { m with keeping := m.keeping + kept.length }
    for (c, i) in kept.zipIdx do
      setChannel (base + i) (some c)
    let restore : Run Unit := do
      for d in changed do
        setChannel d (before.lookup d)
      for (_, i) in kept.zipIdx do
        setChannel (base + i) none
      modify fun m => { m with keeping := m.keeping - kept.length }
    ensuring (do if ← follow os then return some (← act) else return none) restore

end Run

/-- Expands a redirection. -/
def opening (e : Engine) : Redirection → Run Opening
  | .file d mode name => return .file d mode (← expandText e name)
  | .share d source => do
    let text ← expandText e source
    match text.toList with
    | ['-'] => return .share d none
    | [c] =>
      if c.isDigit then return .share d (some (c.toNat - 48))
      else Run.refuse "Syntax error: Bad fd number"
    | _ => Run.refuse "Syntax error: Bad fd number"
  | .document d number => do
    let body := ((← get).documents.lookup number).getD []
    let as ← e.expand { toFields := false, isQuoted := true, tilde := false } body
    return .text d (atomText as)

end PatchSearch.Shell
