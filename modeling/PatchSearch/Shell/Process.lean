import PatchSearch.Command
import PatchSearch.Files.Tree
import PatchSearch.Shell.Octets

/-!
What the programs of a run share: the files, the clock, opened files, pipes between programs, and
the table of the programs themselves with their descriptors and signals. A pipe holds so much and
no more; it has come to its end when it is empty and no program can write to it, and is broken
when no program can read from it.
-/
namespace PatchSearch.Shell

/-- Where a descriptor leads. -/
inductive Channel where
  /-- What is printed on behalf of the whole run, as output or as errors. -/
  | printed (isError : Bool)
  | nowhere
  /-- A device that gives zeros without end, and takes anything or has no room at all. -/
  | zeros (hasRoom : Bool)
  | file (i : Nat)
  /-- The two ends of a pipe. -/
  | source (i : Nat)
  | sink (i : Nat)
  deriving DecidableEq

/-- A file that was opened: where the next octet is read or written, and what is allowed. -/
structure OpenedFile where
  /-- The number of its item. -/
  number : Nat
  offset : Nat := 0
  canRead : Bool
  canWrite : Bool
  appends : Bool := false

/-- Octets on their way: the next ones, and later pieces, newest first. -/
structure Pipe where
  front : List Char := []
  back : List String := []
  size : Nat := 0

namespace Pipe

/-- The most octets in a pipe. -/
def capacity : Nat := 65536

/-- What is put into a pipe without a wait. -/
def batch : Nat := 4096

def isEmpty (p : Pipe) : Bool :=
  p.size == 0

def push (p : Pipe) (s : String) : Pipe :=
  { p with back := s :: p.back, size := p.size + s.length }

/-- All octets of a pipe. -/
def text (p : Pipe) : List Char :=
  p.front ++ (p.back.reverse.map String.toList).flatten

/-- The pipe with its pieces joined, if there are no octets in front of them. -/
def settled (p : Pipe) : Pipe :=
  if p.front.isEmpty then { p with front := p.text, back := [] } else p

/-- Takes octets as long as `stop` does not hold for what is left of the front. -/
def takeUntil (p : Pipe) (stop : Char → Bool) (most : Nat) : List Char × Pipe :=
  let p := p.settled
  let rec go : Nat → List Char → List Char → List Char × List Char
    | 0, taken, cs => (taken.reverse, cs)
    | _, taken, [] => (taken.reverse, [])
    | n + 1, taken, c :: cs =>
      if stop c then ((c :: taken).reverse, cs) else go n (c :: taken) cs
  let (taken, rest) := go most [] p.front
  (taken, { p with front := rest, size := p.size - taken.length })

theorem text_push (p : Pipe) (s : String) : (p.push s).text = p.text ++ s.toList := by
  simp [push, text, List.append_assoc]

theorem text_settled (p : Pipe) : p.settled.text = p.text := by
  unfold settled
  split <;> simp_all [text]

end Pipe

/-- A program that was started: who started it, where its descriptors lead, which signals it acts
on by itself, which it ignores, and which have arrived, and how it ended if it has. -/
structure Program where
  id : Nat
  parent : Nat
  channels : List (Nat × Channel)
  caught : List Nat := []
  ignored : List Nat := []
  pending : List Nat := []
  stopped : Bool := false
  ended : Option ExitStatus := none

structure World where
  files : FileTree
  /-- The time in nanoseconds, and what the calendar says when it is zero. -/
  now : Nat := 0
  began : Nat := 0
  opened : Array OpenedFile := #[]
  pipes : Array Pipe := #[]
  programs : List Program := []
  /-- What was printed, newest first. -/
  printed : List (Bool × String) := []
  nextId : Nat

namespace World

def program? (w : World) (id : Nat) : Option Program :=
  w.programs.find? (·.id == id)

def changeProgram (w : World) (id : Nat) (f : Program → Program) : World :=
  { w with programs := w.programs.map fun p => if p.id == id then f p else p }

/-- Whether a program has been started and has not ended. -/
def isRunning (w : World) (id : Nat) : Bool :=
  w.programs.any fun p => p.id == id && p.ended.isNone

/-- How a program ended. -/
def ended? (w : World) (id : Nat) : Option ExitStatus :=
  (w.program? id).bind (·.ended)

/-- Whether some program that has not ended holds a channel. -/
def isHeld (w : World) (test : Channel → Bool) : Bool :=
  w.programs.any fun p => p.ended.isNone && p.channels.any fun c => test c.2

/-- Whether something can still arrive at the end of a pipe. -/
def isWritable (w : World) (i : Nat) : Bool :=
  w.isHeld fun c => c == .sink i

/-- Whether anyone can take what is put into a pipe. -/
def isReadable (w : World) (i : Nat) : Bool :=
  w.isHeld fun c => c == .source i

def pipe (w : World) (i : Nat) : Pipe :=
  (w.pipes[i]?).getD {}

def changePipe (w : World) (i : Nat) (f : Pipe → Pipe) : World :=
  { w with pipes := w.pipes.modify i f }

/-- Starts a program with the descriptors and the ignored signals of another one. -/
def enter (w : World) (parent : Nat) : Nat × World :=
  let id := w.nextId
  let (channels, ignored) := match w.program? parent with
    | some p => (p.channels, p.ignored)
    | none => ([], [])
  (id, { w with
    programs := { id, parent, channels, ignored : Program } :: w.programs, nextId := id + 1 })

/-- Ends a program, unless it has ended before. Its descriptors are closed. -/
def leave (w : World) (id : Nat) (status : ExitStatus) : World :=
  w.changeProgram id fun p =>
    { p with ended := p.ended.orElse fun _ => some status, channels := [] }

/-- Forgets a program that has ended. -/
def forget (w : World) (id : Nat) : World :=
  { w with programs := w.programs.filter (·.id != id) }

/-- Signals without an effect unless a program acts on them. -/
def isHarmless (signal : Nat) : Bool :=
  [17, 18, 23, 28].contains signal

/-- Signals that make a program stand still. -/
def isPausing (signal : Nat) : Bool :=
  [19, 20, 21, 22].contains signal

/-- Sends a signal to a program. -/
def signal (w : World) (id signal : Nat) : World :=
  match w.program? id with
  | none => w
  | some p =>
    if p.ended.isSome || signal = 0 then w
    else
      let w := if signal = 18 then w.changeProgram id fun p => { p with stopped := false } else w
      if signal = 9 then w.leave id (.signal 9)
      else if signal = 19 then w.changeProgram id fun p => { p with stopped := true }
      else if p.ignored.contains signal then w
      else if p.caught.contains signal then
        w.changeProgram id fun p =>
          { p with pending := if p.pending.contains signal then p.pending
                    else p.pending ++ [signal] }
      else if isPausing signal then w.changeProgram id fun p => { p with stopped := true }
      else if isHarmless signal then w
      else w.leave id (.signal signal)

/-- The files as they are seen from a directory, at this time. -/
def view (w : World) (here : Position) (mask : Nat) : FileTree :=
  { w.files with here, mask, now := w.began + w.now }

/-- The octets of the file of a number. -/
def content (w : World) (number : Nat) : ByteArray :=
  match (w.files.numbered? number).map Item.entry with
  | some (.file content) => content
  | _ => ByteArray.empty

/-- Puts octets into an opened file. -/
def store (w : World) (i : Nat) (text : String) : World :=
  match w.opened[i]? with
  | none => w
  | some o =>
    let old := w.content o.number
    let offset := if o.appends then old.size else o.offset
    let new := octetBytes text
    let gap := ByteArray.mk (Array.replicate (offset - old.size) 0)
    let whole := (old ++ gap).extract 0 offset ++ new ++ old.extract (offset + new.size) old.size
    { w with
      files := { w.files with now := w.began + w.now }.fill o.number whole
      opened := w.opened.set! i { o with offset := offset + new.size } }

/-- Takes octets from an opened file, up to one that `stop` holds for. -/
def fetch (w : World) (i : Nat) (stop : Char → Bool) (most : Nat) : List Char × World :=
  match w.opened[i]? with
  | none => ([], w)
  | some o =>
    let content := w.content o.number
    let rec go : Nat → Nat → List Char → List Char
      | 0, _, taken => taken.reverse
      | n + 1, k, taken =>
        match content[k]? with
        | none => taken.reverse
        | some b =>
          let c := Char.ofNat b.toNat
          if stop c then (c :: taken).reverse else go n (k + 1) (c :: taken)
    let taken := go (min most (content.size - o.offset)) o.offset []
    (taken, { w with opened := w.opened.set! i { o with offset := o.offset + taken.length } })

end World

end PatchSearch.Shell

/-!
Programs as trees of steps. A step acts on what all programs share, lets time go by, waits for
something to hold, or starts a further program. `Schedule.run` takes the steps of several programs
in the order of their times, so programs that feed each other, signal each other or outlive each
other all follow from the steps alone.
-/
namespace PatchSearch.Shell

inductive Process where
  | ended
  | act (step : World → World × Process)
  | pause (nanos : Nat) (next : Process)
  | await (ready : World → Bool) (next : Process)
  /-- Starts a program with descriptors made from the present ones. -/
  | start (channels : List (Nat × Channel) → List (Nat × Channel)) (child : Nat → Process)
      (next : Nat → Process)

instance : Inhabited Process :=
  ⟨.ended⟩

/-- The steps that a program has still to take, and the time at which it takes the next one. -/
structure Task where
  id : Nat
  time : Nat
  process : Process

/-- How a run came to its end. -/
structure Finish where
  world : World
  /-- How the first program ended and when; nothing if it did not within its time. -/
  result : Option (ExitStatus × Nat)
  /-- When the last program that could print had ended. -/
  silentAt : Nat

namespace Schedule

/-- How long a program takes to come up. -/
def startup : Nat := 400000

/-- How long it takes to start one. -/
def launchTime : Nat := 100000

/-- Whether a task can take its next step. -/
def isReady (w : World) (t : Task) : Bool :=
  match w.program? t.id with
  | none => false
  | some p =>
    !p.stopped && match t.process with
      | .await ready _ => ready w
      | _ => true

/-- The ready task with the least time, the earlier one of two. -/
def nextTask (w : World) (tasks : List Task) : Option Task :=
  tasks.foldl (fun best t =>
    if isReady w t then
      match best with
      | some b => if t.time < b.time then some t else best
      | none => some t
    else best) none

/-- Puts a task in place of an earlier state of it. -/
def update (tasks : List Task) (t : Task) : List Task :=
  tasks.map fun u => if u.id == t.id then t else u

/-- The tasks without what one of them has still to do, so that nobody else holds on to it while
it is done. -/
def parked (tasks : List Task) (id : Nat) : List Task :=
  tasks.map fun u => if u.id == id then ⟨u.id, u.time, .ended⟩ else u

/-- Whether some program can still print. -/
def isSilent (w : World) : Bool :=
  !w.isHeld fun c => c == .printed true || c == .printed false

/-- Takes steps of one task until it pauses, waits, ends or starts another one. -/
def advance : Nat → World → Nat → Process → World × Process
  | 0, w, _, p => (w, p)
  | n + 1, w, id, .act step =>
    let (w, p) := step w
    if w.isRunning id then advance n w id p else (w, .ended)
  | _ + 1, w, _, p => (w, p)

/-- The most steps in a row. -/
def burst : Nat := 1000

/-- Takes steps until the first program has ended and nothing more can be printed, or until the
time is over. -/
def run (main deadline : Nat) :
    Nat → Option (ExitStatus × Nat) → List Task → World → Finish
  | 0, result, _, w => ⟨w, result, w.now⟩
  | n + 1, result, tasks, w =>
    let result := result.orElse fun _ => (w.ended? main).map fun s => (s, w.now)
    let tasks := tasks.filter fun t => w.isRunning t.id
    if result.isSome && isSilent w then ⟨w, result, w.now⟩
    else
      match nextTask w tasks with
      | none => ⟨w, result, w.now⟩
      | some ⟨id, time, process⟩ =>
        let now := max w.now time
        if result.isNone && deadline < now then ⟨w, none, deadline⟩
        else
          let w := { w with now }
          let tasks := parked tasks id
          match process with
          | .ended => run main deadline n result (tasks.filter (·.id != id)) w
          | .await _ next => run main deadline n result (update tasks ⟨id, now, next⟩) w
          | .pause nanos next =>
            run main deadline n result (update tasks ⟨id, now + nanos, next⟩) w
          | .start channels child next =>
            let (child', w) := w.enter id
            let w := w.changeProgram child' fun p => { p with channels := channels p.channels }
            run main deadline n result
              (update tasks ⟨id, now + launchTime, next child'⟩ ++
                [⟨child', now + startup, child child'⟩]) w
          | .act step =>
            let (w, p) := advance burst w id (.act step)
            run main deadline n result (update tasks ⟨id, now, p⟩) w

end Schedule

end PatchSearch.Shell
