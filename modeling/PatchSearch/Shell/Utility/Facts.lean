import PatchSearch.Shell.Calendar.Basic
import PatchSearch.Shell.Utility.Moving
import PatchSearch.Shell.Utility.Print

/-!
Utilities that tell facts about single files: their sizes, rights and times, the paths behind
links, and the parts of paths.
-/
namespace PatchSearch.Shell

open Run

/-- The octets that an item counts for. -/
def itemSize (x : Item) : Nat :=
  match x.entry with
  | .file content => content.size
  | .directory => 4096
  | .link target => (octets target).length

/-- The blocks of 1024 octets that an item takes. -/
def itemBlocks (x : Item) : Nat :=
  match x.entry with
  | .file content => (content.size + 4095) / 4096 * 4
  | .directory => 4
  | .link _ => 0

/-- How many names an item has. A directory has one in itself and in each directory that stands in
it. -/
def linkCount (t : FileTree) (p : Position) (x : Item) : Nat :=
  match x.entry with
  | .directory =>
    2 + (t.items.filter fun y =>
      y.2.entry.isDirectory && y.1.length = p.length + 1 && p.isPrefixOf y.1).length
  | _ => max 1 (t.items.filter fun y => y.2.number == x.number).length

/-- What an item is, as one letter in front of its rights. -/
def itemLetter (x : Item) : String :=
  match x.entry with
  | .file _ => "-"
  | .directory => "d"
  | .link _ => "l"

/-- The letters of what an item is and of its rights. -/
def itemRights (x : Item) : String :=
  itemLetter x ++ rightLetters x.rights

/-- The formats of times in a long listing: those of another half year are without the hour. -/
def listedTimes : String × String :=
  ("%b %e  %Y", "%b %e %H:%M")

/-- The time of an item in one of two formats, the second for times of the last half year. -/
def itemTime (now : Nat) (times : String × String) (x : Item) : String :=
  let isNear := x.changed ≤ now && now < x.changed + 15778476 * 1000000000
  (Moment.ofNanos x.changed).format (if isNear then times.2 else times.1)

/-- The position that a path leads to, and whether each name on the way is there: all of them, all
but the last, or it does not matter. -/
def canonical (t : FileTree) (allMissing lastMissing : Bool) (name : String) :
    Except FileError Position :=
  if allMissing then
    let start := FileTree.startFrom t.here (path name)
    .ok ((pathSteps (path name)).foldl (fun p step =>
      let next := FileTree.stepFrom p step
      match t.entry? next with
      | some (.link _) =>
        match t.followLinks true FileTree.maxLinks p [step] with
        | .ok q => q
        | .error _ => next
      | _ => next) start)
  else
    match t.locate (path name) with
    | .ok p =>
      match t.entry? p with
      | some e => if endsInSlash name && !e.isDirectory then .error .notADirectory else .ok p
      | none => if lastMissing && t.isDirectoryAt p.dropLast then .ok p else .error .notFound
    | .error e => .error e

/-- `readlink`. -/
def showLinks : Utility :=
  withOptions "readlink"
    { plain := "femnqsvz"
      long := [("canonicalize", 'f'), ("canonicalize-existing", 'e'),
        ("canonicalize-missing", 'm'), ("no-newline", 'n'), ("quiet", 'q'), ("silent", 's'),
        ("verbose", 'v'), ("zero", 'z')] }
    fun o => do
      if o.operands.isEmpty then misuse "readlink" 1 "missing operand"
      let t ← files
      let mark := if o.has 'z' then "\x00" else "\n"
      let ending := if o.has 'n' && o.operands.length = 1 then "" else mark
      if o.has 'n' && 1 < o.operands.length then
        warn "readlink" "ignoring --no-newline with multiple arguments"
      let failed (name : String) (e : FileError) : Run Unit :=
        if o.last? ['v', 'q', 's'] == some 'v' then
          lament "readlink" (shownName name ++ ": " ++ causeText e)
        else setStatus 1
      for name in o.operands do
        match o.last? ['f', 'e', 'm'] with
        | some c =>
          match canonical t (c == 'm') (c == 'f') name with
          | .ok p => emit "readlink" (octets (FileTree.positionText p) ++ ending)
          | .error e => failed name e
        | none =>
          match t.findLink (path name) with
          | .ok (_, .link target) => emit "readlink" (octets target ++ ending)
          | .ok _ => failed name .invalidTarget
          | .error e => failed name e

/-- `realpath`. -/
def showPaths : Utility :=
  withOptions "realpath"
    { plain := "emLPqsz", valued := "ρβ"
      long := [("canonicalize-existing", 'e'), ("canonicalize-missing", 'm'), ("logical", 'L'),
        ("physical", 'P'), ("quiet", 'q'), ("no-symlinks", 's'), ("strip", 's'), ("zero", 'z'),
        ("relative-to", 'ρ'), ("relative-base", 'β')] }
    fun o => do
      if o.operands.isEmpty then misuse "realpath" 1 "missing operand"
      let t ← files
      let plainly (name : String) : Position :=
        (pathSteps (path name)).foldl FileTree.stepFrom (FileTree.startFrom t.here (path name))
      let resolved (name : String) : Except FileError Position :=
        if o.has 's' || o.has 'L' then .ok (plainly name)
        else canonical t (o.has 'm') (!o.has 'e') name
      let anchor (c : Char) : Run (Option Position) := do
        match o.value? c with
        | none => return none
        | some name =>
          match resolved name with
          | .ok p => return some p
          | .error e => fail "realpath" 1 (shownName name ++ ": " ++ causeText e)
      let base ← anchor 'β'
      let origin := (← anchor 'ρ').or base
      for name in o.operands do
        match resolved name with
        | .ok p =>
          let isBelow (q : Position) : Bool := base.all (·.isPrefixOf q)
          let shown := match origin with
            | some q => if isBelow p && isBelow q then pathBetween q p else FileTree.positionText p
            | none => FileTree.positionText p
          emit "realpath" (octets shown ++ if o.has 'z' then "\x00" else "\n")
        | .error e =>
          if o.has 'q' then setStatus 1
          else lament "realpath" (shownName name ++ ": " ++ causeText e)

/-- The fact that a letter of a format asks for. -/
def fact (t : FileTree) (name : String) (p : Position) (x : Item) (c : Char) : String :=
  let moment := Moment.ofNanos x.changed
  match c with
  | 'n' => name
  | 'N' =>
    match x.entry with
    | .link target => inQuotes name ++ " -> " ++ inQuotes (octets target)
    | _ => inQuotes name
  | 's' => toString (itemSize x)
  | 'b' => toString (2 * itemBlocks x)
  | 'B' => "512"
  | 'o' => "4096"
  | 'F' => itemKind x
  | 'a' => octalText 1 x.rights
  | 'A' => itemRights x
  | 'f' => String.ofList (Nat.toDigits 16 (x.rights + match x.entry with
      | .file _ => 32768
      | .directory => 16384
      | .link _ => 40960))
  | 'U' | 'G' => "root"
  | 'u' | 'g' | 't' | 'T' | 'W' => "0"
  | 'h' => toString (linkCount t p x)
  | 'i' => toString (x.number + 2)
  | 'd' => "1"
  | 'D' => "1"
  | 'm' => "/"
  | 'w' => "-"
  | 'x' | 'y' | 'z' => moment.format "%Y-%m-%d %H:%M:%S.%N %z"
  | 'X' | 'Y' | 'Z' => toString (x.changed / 1000000000)
  | '%' => "%"
  | _ => "?"

/-- The facts that a format asks for, with their widths. -/
def factsText (t : FileTree) (name : String) (p : Position) (x : Item) :
    Nat → List Char → List Char
  | 0, _ => []
  | n + 1, '%' :: cs =>
    let flags := cs.takeWhile ['-', '0', '+', ' ', '#', '\x27'].contains
    let digits := (cs.drop flags.length).takeWhile Char.isDigit
    let behind := cs.drop (flags.length + digits.length)
    let dotted := behind.head? == some '.'
    let places := (behind.drop 1).takeWhile Char.isDigit
    let rest := if dotted then behind.drop (1 + places.length) else behind
    match rest with
    | [] => '%' :: cs
    | c :: rest =>
      let width := digits.foldl (fun n c => 10 * n + (c.toNat - 48)) 0
      let most := places.foldl (fun n c => 10 * n + (c.toNat - 48)) 0
      let text := fact t name p x c
      let text :=
        if dotted && ['X', 'Y', 'Z'].contains c then
          text ++ "." ++ (Moment.ofNanos x.changed).fraction
            (some (if places.isEmpty then 9 else most))
        else if dotted then String.ofList (text.toList.take most)
        else if flags.contains '#' && c == 'a' then "0" ++ text
        else text
      let filler := if flags.contains '0' && !flags.contains '-' then '0' else ' '
      let fill := List.replicate (width - text.length) filler
      (if flags.contains '-' then text.toList ++ fill else fill ++ text.toList) ++
        factsText t name p x n rest
  | n + 1, c :: cs => c :: factsText t name p x n cs
  | _, [] => []

/-- What is told of an item without a format. -/
def plainFacts (name : String) (x : Item) : String :=
  "  File: " ++ (match x.entry with
    | .link _ => "%N"
    | _ => name) ++ "\n" ++
  "  Size: %-10s\tBlocks: %-10b IO Block: %-6o %F\n" ++
  "Device: 0,1\tInode: %-11i Links: %h\n" ++
  "Access: (%04a/%10.10A)  Uid: (%5u/%8U)   Gid: (%5g/%8G)\n" ++
  "Access: %x\nModify: %y\nChange: %z\n Birth: %w"

/-- `stat`. -/
def showFacts : Utility :=
  withOptions "stat"
    { plain := "Lft", valued := "cP"
      long := [("format", 'c'), ("dereference", 'L'), ("printf", 'P'), ("terse", 't'),
        ("file-system", 'f')] }
    fun o => do
      if o.operands.isEmpty then misuse "stat" 1 "missing operand"
      let t ← files
      for name in o.operands do
        match if o.has 'L' then t.findLinkItem (path name) >>= fun _ => t.findItem (path name)
          else t.findLinkItem (path name) with
        | .error e => lament "stat" ("cannot statx " ++ inQuotes name ++ ": " ++ causeText e)
        | .ok (p, x) =>
          let told (format : String) : String :=
            String.ofList (factsText t name p x (format.length + 1) format.toList)
          match o.last? ['c', 'P', 't'] with
          | some 'c' => emit "stat" (told ((o.value? 'c').getD "") ++ "\n")
          | some 'P' => emit "stat" (told (unescape true ((o.value? 'P').getD "")).1)
          | some _ => emit "stat" (told "%n %s %b %f %u %g %D %i %h %t %T %X %Y %Z %W %o" ++ "\n")
          | none => emit "stat" (told (plainFacts name x) ++ "\n")

/-- The last name of a path, without an ending if it is longer than that. -/
def lastName (ending name : String) : String :=
  if name.isEmpty then ""
  else
    let whole := withoutSlashes name
    let last := if whole == "/" then "/" else ((whole.splitOn "/").getLast?).getD ""
    if last != ending && last.endsWith ending then
      String.ofList (last.toList.take (last.length - ending.length))
    else last

/-- `basename`. -/
def showLastNames : Utility :=
  withOptions "basename"
    { plain := "az", valued := "s", long := [("multiple", 'a'), ("suffix", 's'), ("zero", 'z')] }
    (fun o => do
      let mark := if o.has 'z' then "\x00" else "\n"
      match o.operands with
      | [] => misuse "basename" 1 "missing operand"
      | name :: rest =>
        if o.has 'a' || (o.value? 's').isSome then
          emit "basename" (String.join ((name :: rest).map fun n =>
            lastName ((o.value? 's').getD "") n ++ mark))
        else
          match rest with
          | _ :: extra :: _ => misuse "basename" 1 ("extra operand " ++ cited extra)
          | _ => emit "basename" (lastName (rest.headD "") name ++ mark))
    false

/-- A path without its last name. -/
def frontPath (name : String) : String :=
  let whole := withoutSlashes name
  if whole == "/" then "/"
  else if !whole.toList.contains '/' then "."
  else
    let front := (whole.toList.reverse.dropWhile (· != '/')).reverse
    withoutSlashes (String.ofList front)

/-- `dirname`. -/
def showFronts : Utility :=
  withOptions "dirname" { plain := "z", long := [("zero", 'z')] } fun o => do
    if o.operands.isEmpty then misuse "dirname" 1 "missing operand"
    emit "dirname" (String.join (o.operands.map fun n =>
      frontPath n ++ if o.has 'z' then "\x00" else "\n"))

end PatchSearch.Shell
