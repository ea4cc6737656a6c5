import PatchSearch.Shell.Calendar.Reader
import PatchSearch.Shell.Regex.Reader
import PatchSearch.Shell.Utility.Facts

/-!
Searching directories: `find` walks down from its operands and puts each item to tests, some of
which tell the item, remove it or run a program on it.
-/
namespace PatchSearch.Shell

open Run

/-- A number that is wanted exactly, or as a bound that is not reached. -/
structure FindNumber where
  /-- A plus for more, a minus for less. -/
  sign : Option Char
  n : Nat

namespace FindNumber

def accepts (f : FindNumber) (n : Nat) : Bool :=
  match f.sign with
  | some '+' => f.n < n
  | some _ => n < f.n
  | none => n == f.n

/-- A number with its sign, and what stands behind its digits. -/
def read? (s : String) : Option (FindNumber × List Char) :=
  let (sign, cs) := match s.toList with
    | '+' :: cs => (some '+', cs)
    | '-' :: cs => (some '-', cs)
    | cs => (none, cs)
  let ds := cs.takeWhile Char.isDigit
  (integer? (String.ofList ds)).map fun n => (⟨sign, n.toNat⟩, cs.drop ds.length)

end FindNumber

/-- A test that an item is put to. -/
inductive FindTest where
  | always (result : Bool)
  | kind (letters : List Char) (follows : Bool)
  | named (pattern : List PatternItem) (fold : Bool)
  | pathLike (pattern : List PatternItem) (fold : Bool)
  | linkLike (pattern : List PatternItem)
  | matched (r : Regex) (fold : Bool)
  | empty
  | sized (n : FindNumber) (unit : Char)
  /-- How long ago it was changed, in units of so many seconds. -/
  | aged (n : FindNumber) (unit : Nat)
  | newer (time : Nat)
  | sameAs (number : Nat)
  | names (n : FindNumber)
  | rights (way : Option Char) (bits : Nat)
  | runnable
  | print (ending : String)
  | printAs (format : String)
  | listed
  | delete
  | prune
  | quit
  /-- A program that is run on items one by one or all at once, where they stand if it is `inside`,
  and only if it is agreed to when it `asks`. -/
  | run (words : List String) (atOnce inside asks : Bool)
  | not (t : FindTest)
  | both (a b : FindTest)
  | either (a b : FindTest)
  | sequence (a b : FindTest)

namespace FindTest

/-- Whether a test tells or changes something by itself. -/
def acts : FindTest → Bool
  | print _ | printAs _ | listed | delete | run _ _ _ _ => true
  | not t => t.acts
  | both a b | either a b | sequence a b => a.acts || b.acts
  | _ => false

/-- Whether an expression looks at entries behind what they hold. -/
def isDeep : FindTest → Bool
  | delete => true
  | not t => t.isDeep
  | both a b | either a b | sequence a b => a.isDeep || b.isDeep
  | _ => false

/-- The words up to one that ends a command, and the rest behind. -/
def commandWords : List String → Option (List String × Bool × List String)
  | [] => none
  | ";" :: rest => some ([], false, rest)
  | "\x7b\x7d" :: "+" :: rest => some ([], true, rest)
  | w :: rest => (commandWords rest).map fun (ws, atOnce, rest) => (w :: ws, atOnce, rest)

/-- The pattern that a text spells. -/
def wordPattern (s : String) : List PatternItem :=
  pattern (s.toList.map (·, false))

/-- A text in small letters. -/
def lowered (s : String) : String :=
  String.ofList (s.toList.map Char.toLower)

/-- A test with one argument. -/
def withArgument? (t : FileTree) (style : RegexStyle) (name a : String) :
    Option (Except String FindTest) :=
  let invalid : Except String FindTest :=
    .error ("invalid argument \x60" ++ a ++ "\x27 to \x60" ++ name ++ "\x27")
  let number (make : FindNumber → FindTest) : Except String FindTest :=
    match FindNumber.read? a with
    | some (n, []) => .ok (make n)
    | _ => invalid
  let reference (make : Item → FindTest) : Except String FindTest :=
    match t.findItem (textOfOctets a) with
    | .ok (_, x) => .ok (make x)
    | .error e => .error (cited a ++ ": " ++ causeText e)
  let regex (fold : Bool) : Except String FindTest :=
    match Regex.read style (spell a) with
    | .ok r => .ok (.matched (if fold then r.foldCase else r) fold)
    | .error e => .error e
  match name with
  | "-type" | "-xtype" =>
    let letters := a.splitOn ","
    some (if letters.all fun l => ["f", "d", "l", "b", "c", "p", "s", "D"].contains l then
        .ok (.kind (a.toList.filter (· != ',')) (name == "-xtype"))
      else .error ("Unknown argument to " ++ name ++ ": " ++ a))
  | "-name" => some (.ok (.named (wordPattern a) false))
  | "-iname" => some (.ok (.named (wordPattern (lowered a)) true))
  | "-path" | "-wholename" => some (.ok (.pathLike (wordPattern a) false))
  | "-ipath" | "-iwholename" => some (.ok (.pathLike (wordPattern (lowered a)) true))
  | "-lname" => some (.ok (.linkLike (wordPattern a)))
  | "-regex" => some (regex false)
  | "-iregex" => some (regex true)
  | "-newer" | "-anewer" | "-cnewer" | "-newermm" => some (reference fun x => .newer x.changed)
  | "-newermt" =>
    some (match readDate? t.now a with
      | some n => .ok (.newer n.toNat)
      | none => .error ("I cannot figure out how to interpret " ++ cited a ++ " as a date or time"))
  | "-samefile" => some (reference fun x => .sameAs x.number)
  | "-inum" =>
    some (match FindNumber.read? a with
      | some (n, []) => .ok (.sameAs (n.n - 2))
      | _ => invalid)
  | "-links" => some (number .names)
  | "-mtime" | "-atime" | "-ctime" => some (number (.aged · 86400))
  | "-mmin" | "-amin" | "-cmin" => some (number (.aged · 60))
  | "-user" | "-group" => some (.ok (.always (a == "root" || a == "0")))
  | "-uid" | "-gid" => some (.ok (.always (a == "0")))
  | "-size" =>
    some (match FindNumber.read? a with
      | some (n, []) => .ok (.sized n 'b')
      | some (n, [c]) =>
        if "cwbkMG".toList.contains c then .ok (.sized n c)
        else .error ("invalid -size type \x60" ++ String.ofList [c] ++ "\x27")
      | _ => .error ("invalid -size type \x60" ++ String.ofList (a.toList.drop (a.length - 1)) ++
          "\x27"))
  | "-perm" =>
    let (way, text) := match a.toList with
      | '-' :: cs => (some '-', String.ofList cs)
      | '/' :: cs => (some '/', String.ofList cs)
      | _ => (none, a)
    some (match RightStep.read? text with
      | some steps => .ok (.rights way (RightStep.applyAll steps false 0 0))
      | none => .error ("invalid mode " ++ cited a))
  | "-printf" => some (.ok (.printAs a))
  | _ => none

/-- A test without an argument. -/
def plain? : String → Option FindTest
  | "-empty" => some .empty
  | "-executable" => some .runnable
  | "-readable" | "-writable" | "-true" | "-depth" | "-d" | "-mount" | "-xdev" | "-daystart" |
    "-noleaf" | "-follow" | "-warn" | "-nowarn" | "-ignore_readdir_race" => some (.always true)
  | "-false" | "-nouser" | "-nogroup" => some (.always false)
  | "-print" => some (.print "\n")
  | "-print0" => some (.print "\x00")
  | "-ls" => some .listed
  | "-delete" => some .delete
  | "-prune" => some .prune
  | "-quit" => some .quit
  | _ => none

/-- A test at the start of words, and the words behind it. -/
def primary (t : FileTree) (style : RegexStyle)
    (whole : List String → Except String (FindTest × List String)) :
    List String → Except String (FindTest × List String)
  | ["("] => .error ("invalid expression; expected to find a \x27)\x27 but didn\x27t see one. " ++
      "Perhaps you need an extra predicate after \x27(\x27")
  | "(" :: rest =>
    match whole rest with
    | .ok (t, ")" :: rest) => .ok (t, rest)
    | .ok _ => .error ("invalid expression; I was expecting to find a \x27)\x27 somewhere but " ++
        "did not see one.")
    | .error e => .error e
  | word :: rest =>
    let command (inside asks : Bool) : Except String (FindTest × List String) :=
      match commandWords rest with
      | some ([], _, _) | none => .error ("missing argument to \x60" ++ word ++ "\x27")
      | some (ws, atOnce, rest) => .ok (.run ws atOnce inside asks, rest)
    match word, plain? word, rest with
    | "-exec", _, _ => command false false
    | "-execdir", _, _ => command true false
    | "-ok", _, _ => command false true
    | "-okdir", _, _ => command true true
    | _, some t, _ => .ok (t, rest)
    | _, none, a :: rest =>
      match withArgument? t style word a with
      | some (.ok test) => .ok (test, rest)
      | some (.error e) => .error e
      | none =>
        if word.startsWith "-" then .error ("unknown predicate \x60" ++ word ++ "\x27")
        else .error ("paths must precede expression: \x60" ++ word ++ "\x27")
    | _, none, [] =>
      if (withArgument? t style word "f").isSome then
        .error ("missing argument to \x60" ++ word ++ "\x27")
      else if word.startsWith "-" then .error ("unknown predicate \x60" ++ word ++ "\x27")
      else .error ("paths must precede expression: \x60" ++ word ++ "\x27")
  | [] => .error "expected an expression"

/-- A test that may be turned round. -/
def factor (single : List String → Except String (FindTest × List String)) :
    Nat → List String → Except String (FindTest × List String)
  | 0, _ => .error "expression too deep"
  | n + 1, w :: rest =>
    if (w == "!" || w == "-not") && rest.isEmpty then
      .error ("expected an expression after \x27" ++ w ++ "\x27")
    else if w == "!" || w == "-not" then
      (factor single n rest).map fun (t, rest) => (.not t, rest)
    else single (w :: rest)
  | _, [] => single []

/-- Tests that all have to hold. -/
def conjunction (single : List String → Except String (FindTest × List String)) :
    Nat → List String → Except String (FindTest × List String)
  | 0, _ => .error "expression too deep"
  | n + 1, ws => do
    let (a, rest) ← factor single (ws.length + 1) ws
    match rest with
    | [] => return (a, [])
    | w :: more =>
      if ["-o", "-or", ")", ","].contains w then return (a, rest)
      else
        let (b, rest) ← conjunction single n (if w == "-a" || w == "-and" then more else rest)
        return (.both a b, rest)

/-- Tests of which one has to hold. -/
def disjunction (single : List String → Except String (FindTest × List String)) :
    Nat → List String → Except String (FindTest × List String)
  | 0, _ => .error "expression too deep"
  | n + 1, ws => do
    let (a, rest) ← conjunction single (ws.length + 1) ws
    match rest with
    | w :: more =>
      if w == "-o" || w == "-or" then
        let (b, rest) ← disjunction single n more
        return (.either a b, rest)
      else return (a, rest)
    | [] => return (a, [])

/-- Tests of which the last one counts. -/
def listOf (single : List String → Except String (FindTest × List String)) :
    Nat → List String → Except String (FindTest × List String)
  | 0, _ => .error "expression too deep"
  | n + 1, ws => do
    let (a, rest) ← disjunction single (ws.length + 1) ws
    match rest with
    | "," :: more =>
      let (b, rest) ← listOf single n more
      return (.sequence a b, rest)
    | _ => return (a, rest)

/-- An expression; the number bounds its depth. -/
def read (t : FileTree) (style : RegexStyle) :
    Nat → List String → Except String (FindTest × List String)
  | 0, _ => .error "expression too deep"
  | n + 1, ws => listOf (primary t style (read t style n)) (ws.length + 1) ws

end FindTest

/-- What comes of putting an item to tests: whether they hold, whether the item is not walked
down, and what is to be run on it with others at the end. -/
structure FindResult where
  holds : Bool
  pruned : Bool := false
  /-- Commands with what they are to be run on, and the directories that they are run in. -/
  gathered : List (List String × Option String × String) := []

/-- An item on the way of a search. -/
structure FindItem where
  /-- The operand that the walk started from, and the path from there. -/
  start : String
  shown : String
  depth : Nat
  position : Position
  item : Item

namespace FindItem

/-- The name that tests look at. -/
def name (x : FindItem) : String :=
  ((withoutSlashes x.shown).splitOn "/").getLastD x.shown

/-- The letter of what an item is. -/
def letterOf (x : Item) : Char :=
  match x.entry with
  | .file _ => 'f'
  | .directory => 'd'
  | .link _ => 'l'

/-- The units of a size that an item takes. -/
def unitsOf (x : Item) (unit : Char) : Nat :=
  let width := match unit with
    | 'c' => 1
    | 'w' => 2
    | 'k' => 1024
    | 'M' => 1048576
    | 'G' => 1073741824
    | _ => 512
  (itemSize x + width - 1) / width

/-- The text that a letter of a format asks for. -/
def fact (t : FileTree) (x : FindItem) (c : Char) : String :=
  match c with
  | 'p' => x.shown
  | 'f' => if x.shown == "/" then "/" else x.name
  | 'h' =>
    let front := (x.shown.toList.reverse.dropWhile (· != '/')).drop 1
    if !x.shown.toList.contains '/' then "." else String.ofList front.reverse
  | 'P' => String.ofList ((x.shown.toList.drop x.start.length).dropWhile (· == '/'))
  | 'H' => x.start
  | 's' => toString (itemSize x.item)
  | 'k' => toString (itemBlocks x.item)
  | 'b' => toString (2 * itemBlocks x.item)
  | 'm' => octalText 1 x.item.rights
  | 'M' => itemRights x.item
  | 'y' | 'Y' => String.ofList [letterOf x.item]
  | 'd' => toString x.depth
  | 'l' =>
    match x.item.entry with
    | .link target => octets target
    | _ => ""
  | 'n' => toString (linkCount t x.position x.item)
  | 'i' => toString (x.item.number + 2)
  | 'u' | 'g' => "root"
  | 'U' | 'G' => "0"
  | 'D' => "1"
  | 'F' => "overlay"
  | 't' | 'a' | 'c' => (Moment.ofNanos x.item.changed).format "%a %b %e %H:%M:%S.%N0 %Y"
  | c => "%" ++ String.ofList [c]

/-- The time of an item as a letter of a format asks for it. -/
def timeFact (x : FindItem) (c : Char) : String :=
  let moment := Moment.ofNanos x.item.changed
  let fine := "." ++ moment.fraction none ++ "0"
  match c with
  | '@' => toString (x.item.changed / 1000000000) ++ fine
  | 'S' => moment.format "%S" ++ fine
  | 'T' => moment.format "%T" ++ fine
  | '+' => moment.format "%Y-%m-%d+%T" ++ fine
  | c => moment.format (String.ofList ['%', c])

/-- What a format tells of an item, and whether it ends all output. -/
def formatted (t : FileTree) (x : FindItem) : Nat → List Char → List Char
  | 0, _ => []
  | n + 1, '\\' :: c :: cs =>
    match c with
    | 'c' => []
    | 'n' => '\n' :: formatted t x n cs
    | 't' => '\t' :: formatted t x n cs
    | 'a' => '\x07' :: formatted t x n cs
    | 'b' => '\x08' :: formatted t x n cs
    | 'f' => '\x0c' :: formatted t x n cs
    | 'r' => '\r' :: formatted t x n cs
    | 'v' => '\x0b' :: formatted t x n cs
    | '\\' => '\\' :: formatted t x n cs
    | _ =>
      let ds := ((c :: cs).take 3).takeWhile fun d => '0' ≤ d && d ≤ '7'
      if ds.isEmpty then '\\' :: c :: formatted t x n cs
      else Char.ofNat (ds.foldl (fun k d => 8 * k + (d.toNat - 48)) 0 % 256) ::
        formatted t x n ((c :: cs).drop ds.length)
  | n + 1, '%' :: cs =>
    let flags := cs.takeWhile ['-', '0', ' ', '+', '#'].contains
    let digits := (cs.drop flags.length).takeWhile Char.isDigit
    let behind := cs.drop (flags.length + digits.length)
    let places := if behind.head? == some '.' then (behind.drop 1).takeWhile Char.isDigit else []
    let behind := if behind.head? == some '.' then behind.drop (1 + places.length) else behind
    let number (ds : List Char) : Nat := ds.foldl (fun k d => 10 * k + (d.toNat - 48)) 0
    let isNumeric := behind.head?.any ['d', 'm', 'n', 'k', 'b'].contains
    let fit (s : String) : List Char :=
      let s := if places.isEmpty then s.toList else s.toList.take (number places)
      let fill := List.replicate (number digits - s.length)
        (if flags.contains '0' && !flags.contains '-' && isNumeric then '0' else ' ')
      if flags.contains '-' then s ++ fill else fill ++ s
    match behind with
    | [] => ['%']
    | '%' :: rest => '%' :: formatted t x n rest
    | c :: d :: rest =>
      if ['T', 'A', 'C'].contains c then fit (x.timeFact d) ++ formatted t x n rest
      else fit (fact t x c) ++ formatted t x n (d :: rest)
    | [c] => fit (fact t x c)
  | n + 1, c :: cs => c :: formatted t x n cs
  | _, [] => []

/-- A line that tells all about an item. -/
def line (t : FileTree) (x : FindItem) : String :=
  let right (width : Nat) (s : String) : String :=
    String.ofList (List.replicate (width - s.length) ' ') ++ s
  right 9 (toString (x.item.number + 2)) ++ " " ++ right 6 (toString (itemBlocks x.item)) ++ " " ++
    itemRights x.item ++ " " ++ right 3 (toString (linkCount t x.position x.item)) ++
    " root     root     " ++ right 8 (toString (itemSize x.item)) ++ " " ++
    itemTime t.now listedTimes x.item ++ " " ++ x.shown ++
    match x.item.entry with
    | .link target => " -> " ++ octets target ++ "\n"
    | _ => "\n"

end FindItem

/-- Runs a program for a search in a directory and waits for it; whether it succeeded. -/
def runFound (become : List String → Run FileError) (directory : Option String)
    (words : List String) : Run Bool := do
  let child ← start (fun cs => cs) do
    if let some d := directory then
      if let .ok (p, .directory) := (← files).find (path d) then
        modify fun m => { m with here := p, place := none }
    let e ← become words
    fail "find" 127 (cited (words.headD "") ++ ": " ++ causeText e)
  return (← waitEnd child) == .code 0

/-- Puts an item to a test. -/
def FindTest.judge (become : List String → Run FileError) (x : FindItem) :
    FindTest → Run FindResult
  | .always b => return { holds := b }
  | .kind letters follows => do
    let t ← files
    let item := if follows then ((t.findItem (path x.shown)).toOption.map Prod.snd).getD x.item
      else x.item
    return { holds := letters.contains (FindItem.letterOf item) }
  | .named p fold =>
    let cs := x.name.toList
    return { holds := matchesPattern p (if fold then cs.map Char.toLower else cs) }
  | .pathLike p fold =>
    let cs := x.shown.toList
    return { holds := matchesPattern p (if fold then cs.map Char.toLower else cs) }
  | .linkLike p =>
    match x.item.entry with
    | .link target => return { holds := matchesPattern p (octets target).toList }
    | _ => return { holds := false }
  | .matched r _ =>
    let cs := (spell x.shown).toList
    return { holds := (r.longestFrom (Regex.lineFront cs)).any fun q => q.rest.isEmpty }
  | .empty => do
    let t ← files
    match x.item.entry with
    | .file content => return { holds := content.size == 0 }
    | .directory => return { holds := (t.namesBelow x.position).isEmpty }
    | .link _ => return { holds := false }
  | .sized n unit => return { holds := n.accepts (FindItem.unitsOf x.item unit) }
  | .aged n unit => do
    let age := ((← files).now - x.item.changed) / 1000000000
    let count := if unit = 60 && n.sign.isNone then (age + 59) / 60 else age / unit
    return { holds := if unit = 60 && n.sign == some '+' then n.n * 60 < age else n.accepts count }
  | .newer time => return { holds := time < x.item.changed }
  | .sameAs number => return { holds := x.item.number == number }
  | .names n => do return { holds := n.accepts (linkCount (← files) x.position x.item) }
  | .rights way bits =>
    let own := x.item.rights &&& 4095
    return { holds := match way with
      | some '-' => own &&& bits == bits
      | some _ => bits == 0 || own &&& bits != 0
      | none => own == bits }
  | .runnable => return { holds := !x.item.entry.isFile || x.item.isRunnable }
  | .print ending => do
    emit "find" (x.shown ++ ending)
    return { holds := true }
  | .printAs format => do
    let t ← files
    emit "find" (String.ofList (x.formatted t (format.length + 1) format.toList))
    return { holds := true }
  | .listed => do
    emit "find" (x.line (← files))
    return { holds := true }
  | .delete => do
    if x.shown != "." then
      let t ← files
      if x.item.entry.isDirectory && !(t.namesBelow x.position).isEmpty then
        lament "find" ("cannot delete " ++ cited x.shown ++ ": Directory not empty")
        return { holds := false }
      else onFiles fun t => ((), t.remove x.position)
    return { holds := true }
  | .prune => return { holds := true, pruned := true }
  | .quit => halt
  | .run words atOnce inside asks => do
    let t ← files
    let directory := if inside then some (x.fact t 'h') else none
    let target := if inside then below "." x.name else x.shown
    if atOnce then return { holds := true, gathered := [(words, directory, target)] }
    else
      let filled := words.map fun w => String.intercalate target (w.splitOn "\x7b\x7d")
      if asks then
        tell ("< " ++ words.headD "" ++ " ... " ++ x.shown ++ " > ? ")
        let answer := (← readLine 0).toOption.getD ""
        if !(answer.startsWith "y" || answer.startsWith "Y") then return { holds := false }
      return { holds := ← runFound become directory filled }
  | .not t => do
    let r ← t.judge become x
    return { r with holds := !r.holds }
  | .both a b => do
    let r ← a.judge become x
    if !r.holds then return r
    else
      let r' ← b.judge become x
      return ⟨r'.holds, r.pruned || r'.pruned, r.gathered ++ r'.gathered⟩
  | .either a b => do
    let r ← a.judge become x
    if r.holds then return r
    else
      let r' ← b.judge become x
      return ⟨r'.holds, r.pruned || r'.pruned, r.gathered ++ r'.gathered⟩
  | .sequence a b => do
    let r ← a.judge become x
    let r' ← b.judge become x
    return ⟨r'.holds, r.pruned || r'.pruned, r.gathered ++ r'.gathered⟩

/-- How a search walks. -/
structure FindWalk where
  test : FindTest
  /-- The least and the most steps down. -/
  least : Nat := 0
  most : Option Nat := none
  /-- Whether directories come behind what they hold. -/
  deep : Bool := false
  /-- Whether links count as what they lead to, everywhere or as operands only. -/
  follows : Bool := false
  followsNamed : Bool := false
  style : RegexStyle := .forPaths

/-- Walks down from an item; what is to be run at the end. -/
def FindWalk.walk (w : FindWalk) (become : List String → Run FileError) (start : String) :
    Nat → Nat → String → Position → Run (List (List String × Option String × String))
  | 0, _, _, _ => return []
  | n + 1, depth, shown, p => do
    let t ← files
    let behind := if w.follows || w.followsNamed && depth = 0 then
        (t.findItem (path shown)).toOption else none
    match behind.or ((t.item? p).map (p, ·)) with
    | none => return []
    | some (p, item) =>
      let judge : Run FindResult := do
        if depth < w.least then return { holds := false }
        else w.test.judge become ⟨start, shown, depth, p, item⟩
      let before ← if w.deep then pure { holds := true } else judge
      let goesDown := item.entry.isDirectory && !before.pruned && w.most.all (depth < ·)
      let mut gathered := before.gathered
      if goesDown then
        for name in (← files).namesBelow p do
          gathered := gathered ++
            (← w.walk become start n (depth + 1) (below shown (octets name)) (p ++ [name]))
      if w.deep then
        gathered := gathered ++ (← judge).gathered
      return gathered

/-- The notation that a name of one stands for. -/
def findStyle? : String → Option RegexStyle
  | "findutils-default" | "emacs" => some .forPaths
  | "posix-extended" | "posix-egrep" | "egrep" | "awk" | "posix-awk" | "gnu-awk" =>
    some (.extended false)
  | "posix-basic" | "posix-minimal-basic" | "grep" | "ed" | "sed" => some (.basic false)
  | _ => none

/-- Options that hold for a whole search, and the words without them. -/
def findBounds : List String → FindWalk → Except String (FindWalk × List String)
  | [], w => .ok (w, [])
  | [word], w => .ok (if word == "-depth" || word == "-d" then { w with deep := true } else w, [word])
  | word :: a :: rest, w => do
    if word == "-maxdepth" || word == "-mindepth" then
      match integer? a with
      | some n =>
        if n < 0 then
          throw ("Expected a positive decimal integer argument to " ++ word ++ ", but got " ++
            cited a)
        let n := n.toNat
        findBounds rest (if word == "-maxdepth" then { w with most := some n }
          else { w with least := n })
      | none =>
        throw ("Expected a positive decimal integer argument to " ++ word ++ ", but got " ++
          cited a)
    else if word == "-regextype" then
      match findStyle? a with
      | some style => findBounds rest { w with style }
      | none => throw ("Unknown regular expression type " ++ cited a)
    else
      let w := if word == "-depth" || word == "-d" then { w with deep := true }
        else if word == "-follow" then { w with follows := true } else w
      let (w, rest) ← findBounds (a :: rest) w
      return (w, word :: rest)

/-- `find`. -/
def findFiles : Launching := fun become args => do
  setStatus 0
  let leading := args.takeWhile fun a => a == "-L" || a == "-P" || a == "-H"
  let args := args.drop leading.length
  let isTest (s : String) : Bool :=
    (s.toList.head? == some '-' && s != "-") || s == "!" || s == "(" || s == ")"
  let starts := args.takeWhile fun s => !isTest s
  let follow : FindWalk :=
    { test := .always true, follows := leading.getLast? == some "-L"
      followsNamed := leading.getLast? == some "-H" }
  match findBounds (args.drop starts.length) follow with
  | .error text => fail "find" 1 text
  | .ok (bounds, words) =>
    let test ←
      if words.isEmpty then pure (.print "\n")
      else
        match FindTest.read (← files) bounds.style (words.length + 1) words with
        | .ok (t, []) => pure (if t.acts then t else .both t (.print "\n"))
        | .ok (_, _) =>
          fail "find" 1 "you have too many \x27)\x27"
        | .error text => fail "find" 1 text
    let w := { bounds with test, deep := bounds.deep || test.isDeep }
    let mut gathered : List (List String × Option String × String) := []
    for name in if starts.isEmpty then ["."] else starts do
      let t ← files
      match t.findLink (path name) with
      | .error e => lament "find" (cited name ++ ": " ++ causeText e)
      | .ok (p, _) =>
        gathered := gathered ++ (← w.walk become name (t.items.length + 2) 0 name p)
    let key (x : List String × Option String × String) : List String × Option String := (x.1, x.2.1)
    for k in (gathered.map key).eraseDups do
      let found := (gathered.filter (key · == k)).map (·.2.2)
      if !(← runFound become k.2 (k.1 ++ found)) then setStatus 1

end PatchSearch.Shell
