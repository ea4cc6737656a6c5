import PatchSearch.Shell.Archive
import PatchSearch.Shell.Calendar.Reader
import PatchSearch.Shell.Deflate.Packed
import PatchSearch.Shell.Utility.Copying

/-!
Archives of files: `tar` makes them, adds to them, lists them, compares them with files, and takes
files out of them again. Archives may be packed.
-/
namespace PatchSearch.Shell

open Run Shell.Archive

/-- What is done with an archive. -/
inductive ArchiveAction where
  | create
  | append
  | update
  | join
  | list
  | extract
  | compare
  | delete
  deriving DecidableEq

/-- A name among the arguments and the directory that it is taken from; or a file with names. -/
structure ArchivePlace where
  directory : String
  name : String
  isList : Bool := false

/-- What is asked of an archive. -/
structure ArchiveMode where
  action : ArchiveAction
  o : Options
  archive : String
  places : List ArchivePlace
  /-- The directory that holds at the end of the arguments. -/
  directory : String

/-- What is known while members are gathered or taken out. -/
structure ArchiveCourse where
  /-- Members, last one first. -/
  members : List Member := []
  /-- Files with several names, by number, with the name of their member. -/
  linked : List (Nat × String) := []
  /-- Fronts of names that were told to be dropped, from members or from what links lead to. -/
  told : List (Bool × String) := []
  form : ListForm := {}
  /-- Directories that were made, with their times, last one first. -/
  made : List (String × Nat) := []
  /-- Paths that were put into the archive, last one first. -/
  stored : List String := []

/-- Ends `tar` with a hint. -/
def archiveMisused {β : Type} (text : String) : Run β := do
  warn "tar" text
  tell "Try \x27tar --help\x27 or \x27tar --usage\x27 for more information.\n"
  setStatus 2
  halt

/-- Ends `tar` at once. -/
def archiveFailed {β : Type} (text : String) : Run β := do
  warn "tar" text
  fail "tar" 2 "Error is not recoverable: exiting now"

/-- Tells what is wrong and goes on. -/
def archiveWarn (text : String) : Run Unit := do
  warn "tar" text
  setStatus 2

namespace ArchiveMode

/-- How often names are asked for. -/
def verbosity (m : ArchiveMode) : Nat :=
  (m.o.values 'v').length

/-- Whether output of other kinds goes to the standard output. -/
def occupiesOutput (m : ArchiveMode) : Bool :=
  match m.action with
  | .create | .append | .update | .join | .delete => m.archive == "-"
  | .extract => m.o.has 'O'
  | .list | .compare => false

/-- Tells a line about a member. -/
def inform (m : ArchiveMode) (text : String) : Run Unit :=
  if m.occupiesOutput then tell text else emit "tar" text

/-- Tells a member if that is asked for. -/
def tellMember (m : ArchiveMode) (c : ArchiveCourse) (shown : String) (x : Member) :
    Run ArchiveCourse := do
  let level := m.verbosity + if m.action = .list then 1 else 0
  if level = 0 then return c
  else if level = 1 then
    m.inform (listedName shown ++ "\n")
    return c
  else
    let (line, form) := c.form.line { x with name := shown }
    m.inform line
    return { c with form }

/-- A name without an unsafe front, which is told once. -/
def settledName (m : ArchiveMode) (c : ArchiveCourse) (ofLink : Bool) (name : String) :
    Run (String × ArchiveCourse) := do
  let front := unsafeFront name
  if m.o.has 'P' || front.isEmpty then return (name, c)
  else if c.told.contains (ofLink, front) then return (safeName name, c)
  else
    warn "tar" ("Removing leading \x60" ++ front ++ "\x27 from " ++
      if ofLink then "hard link targets" else "member names")
    return (safeName name, { c with told := (ofLink, front) :: c.told })

/-- Patterns of names that are left out. -/
def excluded (m : ArchiveMode) (patterns : List String) (name : String) : Bool :=
  (m.o.values 'ε' ++ patterns).any (chooses true · name)

/-- Patterns of names that are left out, from files. -/
def listedPatterns (m : ArchiveMode) : Run (List String) := do
  let mut all : List String := []
  for file in m.o.values 'X' do
    match ← readInput file with
    | .ok s => all := all ++ splitLines s
    | .error e => archiveFailed (file ++ ": " ++ e)
  return all

/-- A user or a group that an option tells, as a name, a number, or both. -/
def ownerTold (s : String) : Owner :=
  match s.splitOn ":" with
  | [name, number] => ⟨name, (number.toNat?).getD 0⟩
  | _ => match s.toNat? with
    | some n => ⟨"", n⟩
    | none => ⟨s, 0⟩

/-- The member that a file becomes. -/
def memberOf (m : ArchiveMode) (now : Int) (name : String) (x : Item) (kind : MemberKind) : Member :=
  let rights := match (m.o.value? 'μ').bind RightStep.read? with
    | some steps => RightStep.applyAll steps x.entry.isDirectory 0 x.rights
    | none => match x.entry with
      | .link _ => 511
      | _ => x.rights
  let time := match (m.o.value? 'τ').bind (readDate? now) with
    | some n => (n / Moment.second).toNat
    | none => x.changed / 1000000000
  { name, kind, rights, time
    user := ((m.o.value? 'ω').map ownerTold).getD {}
    group := ((m.o.value? 'γ').map ownerTold).getD {} }

/-- Gathers what a name stands for, taken from a directory. The first number is that of the archive
itself, which does not go into it; the second one bounds the depth. -/
def gather (m : ArchiveMode) (own : Option Nat) (patterns : List String) (directory : String) :
    Nat → ArchiveCourse → String → Run ArchiveCourse
  | 0, c, _ => return c
  | fuel + 1, c, name => do
    if m.excluded patterns name then return c
    let t ← files
    let place := if directory.isEmpty then name else below directory name
    let place := if name.startsWith "/" then name else place
    match if m.o.has 'h' then t.findItem (path place) else t.findLinkItem (path place) with
    | .error e =>
      archiveWarn (toldName name ++ ": Cannot stat: " ++ causeText e)
      return c
    | .ok (p, x) =>
      let now : Int := t.now
      let put (c : ArchiveCourse) (shown : String) (kind : MemberKind) : Run ArchiveCourse := do
        let (stored, c) ← m.settledName c false shown
        let stored := if kind matches .directory then
            if stored.endsWith "/" then stored else stored ++ "/"
          else stored
        let member := m.memberOf now stored x kind
        let c ← m.tellMember c shown member
        return { c with members := member :: c.members, stored := place :: c.stored }
      match x.entry with
      | .directory =>
        let base := withoutSlashes name
        let shown := if base == "/" then base else base ++ "/"
        let c ← put c shown .directory
        if m.o.has 'ν' then return c
        else
          ((t.namesBelow p).map octets).foldlM
            (fun c s => gather m own patterns directory fuel c (below base s)) c
      | .link s => put c name (.symbolic (octets s))
      | .file content =>
        if own == some x.number then
          warn "tar" (toldName name ++ ": file is the archive; not dumped")
          return c
        let links := t.items.countP fun y => y.2.number == x.number
        match c.linked.lookup x.number with
        | some first => put c name (.hard first)
        | none =>
          let c ← put c name (.file (octetsOfBytes content))
          if links < 2 then return c
          else
            let (stored, c) ← m.settledName c true name
            return { c with linked := (x.number, stored) :: c.linked }

/-- Whether an archive that is written is packed. -/
def packs (m : ArchiveMode) : Bool :=
  m.o.has 'z' || m.o.has 'a' &&
    ([".gz", ".tgz", ".taz", ".z"].any fun ending => m.archive.endsWith ending)

/-- The size that archives are filled up to. -/
def record (m : ArchiveMode) : Nat :=
  match ((m.o.value? 'b').bind String.toNat?) with
  | some n => if n = 0 then recordSize else n * blockSize
  | none => recordSize

/-- Packed archives of other kinds need programs that are not there. -/
def checkPacker (m : ArchiveMode) : Run Unit := do
  let program? := [('j', "bzip2"), ('J', "xz"), ('Z', "compress"), ('ζ', "zstd")].find?
    fun x => m.o.has x.1
  if let some (_, program) := program? then
    tell ("/bin/sh: 1: " ++ program ++ ": not found\n")
    warn "tar" "Child returned status 127"
    fail "tar" 2 "Error is not recoverable: exiting now"

/-- Writes an archive. -/
def writeArchive (m : ArchiveMode) (members : List Member) : Run Unit := do
  let text := encode m.record members
  let text := if m.packs then octetsOfBytes (Deflate.pack {} 6 (octetBytes text)) else text
  if m.archive == "-" then emit "tar" text
  else
    match ← storeText m.archive text with
    | .ok () => return
    | .error e => archiveFailed (toldName m.archive ++ ": Cannot open: " ++ e)

/-- The text of an archive, unpacked, and whether the packer failed. -/
def readArchive (m : ArchiveMode) (isUpdate : Bool) : Run (String × Bool) := do
  m.checkPacker
  match ← readInput m.archive with
  | .error e => archiveFailed (toldName m.archive ++ ": Cannot open: " ++ e)
  | .ok s =>
    let isPacked := s.toList.take 2 == ['\x1f', '\x8b']
    if isUpdate && (isPacked || m.o.has 'z') then
      warn "tar" "Cannot update compressed archives"
      fail "tar" 2 "Error is not recoverable: exiting now"
    if isPacked && m.archive == "-" && !m.o.has 'z' then
      archiveFailed "Archive is compressed. Use -z option"
    if !isPacked && !m.o.has 'z' then return (s, false)
    let u := Deflate.unpack (octetBytes s)
    for e in u.faults do
      tell ("\ngzip: stdin: " ++ e.message ++ "\n")
    return (octetsOfBytes u.text, !u.faults.isEmpty)

/-- Ends the work on an archive that could not be unpacked. -/
def endFailedPacker {β : Type} : Run β := do
  warn "tar" "Child returned status 1"
  fail "tar" 2 "Error is not recoverable: exiting now"

/-- Tells how the end of an archive came, unless it is as it should be. -/
def tellEnding (ending : Ending) (passedOver : Bool) : Run Unit := do
  if passedOver then archiveWarn "Skipping to next header"
  match ending with
  | .proper => return
  | .lone n => warn "tar" ("A lone zero block at " ++ toString n)
  | .early => archiveFailed "Unexpected EOF in archive"
  | .foreign => archiveWarn "This does not look like a tar archive"

/-- The names that choose members: all of them if there are none. -/
def isChosen (m : ArchiveMode) (patterns : List String) (names : List ArchivePlace) (name : String) :
    Bool :=
  !m.excluded patterns name && (names.isEmpty || names.any fun p =>
    if m.o.has 'ψ' then chooses false p.name name else isAtOrBelow p.name name)

/-- Tells the names that chose nothing. -/
def tellMissing (m : ArchiveMode) (names : List ArchivePlace) (members : List Member) : Run Unit := do
  let missing := names.filter fun p => !members.any fun x =>
    if m.o.has 'ψ' then chooses false p.name x.name else isAtOrBelow p.name x.name
  if !m.o.has 'ψ' && !m.o.has 'χ' && missing.any fun p => hasPatternSigns p.name then
    warn "tar" "Pattern matching characters used in file names"
    warn "tar"
      "Use --wildcards to enable pattern matching, or --no-wildcards to suppress this warning"
  for p in missing do
    archiveWarn (toldName p.name ++ ": Not found in archive")

/-- Makes way for a member: what stands at its place goes, unless it is kept or holds something.
Whether the place is free then. -/
def makeWay (place : String) : Run Bool := do
  let t ← files
  match t.findLink (path place) with
  | .error _ => return true
  | .ok (p, e) =>
    if e.isDirectory && !(t.namesBelow p).isEmpty then return false
    else
      onFiles fun t => ((), t.remove p)
      return true

/-- Makes the directories above a place. -/
def makeAbove (place : String) : Run Unit :=
  onFiles fun t => ((), match (ancestorPaths (path place))[1]? with
    | some d => (t.makeDirs d).2
    | none => t)

/-- Puts something new at a place, with rights and a time. -/
def putAt (m : ArchiveMode) (place : String) (e : Entry) (x : Member) : Run (Except FileError Unit) := do
  makeAbove place
  tryFiles fun t => do
    let p ← t.resolve false (path place)
    if !t.isDirectoryAt p.dropLast then throw .notADirectory
    let u := t.put p e
    return u.changeAt p fun y =>
      { y with
        rights := match e with
          | .link _ => y.rights
          | _ => if m.o.has 'π' then clearBits x.rights t.mask else x.rights
        changed := if m.o.has 'm' then y.changed else x.time * 1000000000 }

/-- Takes a member out of an archive to a place. -/
def takeOut (m : ArchiveMode) (c : ArchiveCourse) (directory name : String) (x : Member) :
    Run ArchiveCourse := do
  let place := if directory.isEmpty || name.startsWith "/" then name else below directory name
  let t ← files
  let standing := (t.findLinkItem (path place)).toOption
  let keeps := standing.isSome && (m.o.has 'k' || m.o.has 'κ')
  let refuse (what : String) (cause : String) : Run ArchiveCourse := do
    archiveWarn (toldName x.name ++ ": " ++ what ++ ": " ++ cause)
    return c
  let skipOr (act : Run ArchiveCourse) (what : String) : Run ArchiveCourse := do
    if keeps then
      if m.o.has 'κ' then
        if 0 < m.verbosity then warn "tar" (toldName x.name ++ ": skipping existing file")
        return c
      else refuse what "File exists"
    else if ← makeWay place then act
    else refuse what "File exists"
  let put (e : Entry) (what : String) : Run ArchiveCourse := do
    match ← m.putAt place e x with
    | .ok () => return c
    | .error e => refuse what (causeText e)
  match x.kind with
  | .directory =>
    match standing with
    | some (_, ⟨.directory, _, _, _⟩) => return { c with made := (place, x.time) :: c.made }
    | _ =>
      skipOr (do
        let c ← put .directory "Cannot mkdir"
        return { c with made := (place, x.time) :: c.made }) "Cannot mkdir"
  | .file content => skipOr (put (.file (octetBytes content)) "Cannot open") "Cannot open"
  | .symbolic s =>
    let what := "Cannot create symlink to " ++ cited s
    skipOr (put (.link (path s)) what) what
  | .hard s =>
    let (s, c) ← m.settledName c true s
    let s := ((m.o.value? 'σ').bind String.toNat?).elim (some s) fun n => withoutSteps n s
    let s := s.getD ""
    let what := "Cannot hard link to " ++ cited s
    let source := if directory.isEmpty then s else below directory s
    match t.findLinkItem (path source) with
    | .error e => refuse what (causeText e)
    | .ok (_, y) =>
      if y.entry.isDirectory then
        if standing.isSome && !keeps then discard <| makeWay place
        refuse what "Operation not permitted"
      else if standing.any fun z => z.2.number == y.number then return c
      else
        skipOr (do
          makeAbove place
          match ← tryFiles fun t => do
            let p ← t.resolve false (path place)
            return t.place p y with
          | .ok () => return c
          | .error e => refuse what (causeText e)) what

/-- Does with a member what is asked for, if it is chosen. -/
def treat (m : ArchiveMode) (patterns : List String) (names : List ArchivePlace) (c : ArchiveCourse)
    (x : Member) : Run ArchiveCourse := do
  if !m.isChosen patterns names x.name then return c
  let steps := ((m.o.value? 'σ').bind String.toNat?).getD 0
  let kept := withoutSteps steps x.name
  match m.action, kept with
  | .extract, none => return c
  | .list, _ =>
    let (_, c) ← m.settledName c false x.name
    m.tellMember c x.name x
  | .compare, _ =>
    let c ← if 0 < m.verbosity then m.tellMember c x.name x else pure c
    let (name, c) ← m.settledName c false x.name
    let tells (what : String) : Run Unit := do
      m.inform (name ++ ": " ++ what ++ "\n")
      if (← status) = 0 then setStatus 1
    let place := if m.directory.isEmpty then name else below m.directory name
    match (← files).findLinkItem (path place) with
    | .error e =>
      warn "tar" (toldName name ++ ": Warning: Cannot stat: " ++ causeText e)
      if (← status) = 0 then setStatus 1
    | .ok (_, y) =>
      let sameKind := match x.kind, y.entry with
        | .file _, .file _ | .hard _, .file _ | .directory, .directory | .symbolic _, .link _ => true
        | _, _ => false
      if !sameKind then tells "File type differs"
      else
        match x.kind, y.entry with
        | .symbolic s, .link s' => if path s != s' then tells "Symlink differs"
        | .file content, .file new =>
          if x.rights != y.rights then tells "Mode differs"
          if x.time != y.changed / 1000000000 then tells "Mod time differs"
          if content.length != new.size then tells "Size differs"
          else if octetBytes content != new then tells "Contents differ"
        | .directory, _ => if x.rights != y.rights then tells "Mode differs"
        | _, _ => pure ()
    return c
  | .extract, some kept =>
    let (name, c) ← m.settledName c false kept
    if !m.o.has 'P' && (x.name.splitOn "/").contains ".." then
      archiveWarn (toldName x.name ++ ": Member name contains \x27..\x27")
      return c
    let c ← m.tellMember c x.name x
    if m.o.has 'O' then
      emit "tar" x.content
      return c
    let directory := ((names.find? fun p => isAtOrBelow p.name x.name).map
      ArchivePlace.directory).getD m.directory
    let name := match m.o.has 'φ', m.o.value? 'φ' with
      | true, some "" =>
        let last := (lastPart? m.archive).getD ""
        below (String.ofList (last.toList.takeWhile (· != '.'))) name
      | true, some d => below d name
      | _, _ => name
    m.takeOut c directory name { x with name := if steps = 0 then x.name else kept }
  | _, _ => return c

/-- Gives directories that were made their times. -/
def settleTimes (m : ArchiveMode) (c : ArchiveCourse) : Run Unit := do
  if !m.o.has 'm' then
    for (place, time) in c.made do
      changeItem (withoutSlashes place) fun _ y =>
        if y.entry.isDirectory then { y with changed := time * 1000000000 } else y

/-- The names that are asked for, with those from files. -/
def namesAsked (m : ArchiveMode) : Run (List ArchivePlace) := do
  let mut all : List ArchivePlace := []
  for p in m.places do
    if p.isList then
      match ← readInput p.name with
      | .ok s =>
        let ends := if m.o.has 'ξ' then (s.splitOn "\x00").filter (!·.isEmpty) else splitLines s
        all := all ++ ends.map fun name => { p with name, isList := false }
      | .error e => archiveFailed (toldName p.name ++ ": Cannot open: " ++ e)
    else all := all ++ [p]
  return all

/-- Checks that a directory can be entered. -/
def checkDirectory (d : String) : Run Unit := do
  if !d.isEmpty then
    match ← find d with
    | .ok (_, .directory) => return
    | .ok _ => archiveFailed (toldName d ++ ": Cannot open: Not a directory")
    | .error e => archiveFailed (toldName d ++ ": Cannot open: " ++ causeText e)

/-- Gathers all members that are asked for behind those that are there. -/
def gatherAll (m : ArchiveMode) (before : List Member) : Run ArchiveCourse := do
  let names ← m.namesAsked
  let patterns ← m.listedPatterns
  let t ← files
  let own := if m.archive == "-" then none else
    ((t.findItem (path m.archive)).toOption).map (·.2.number)
  let mut c : ArchiveCourse := {}
  for p in names do
    checkDirectory p.directory
    let fresh ← m.gather own patterns p.directory (t.items.length + 1) { c with members := [] } p.name
    let fresh := match m.action with
      | .update =>
        { fresh with members := fresh.members.filter fun x =>
            !before.any fun y => y.name == x.name && x.time ≤ y.time }
      | _ => fresh
    c := { fresh with members := fresh.members ++ c.members }
  return c

/-- Removes the files that were put into an archive. -/
def removeStored (m : ArchiveMode) (c : ArchiveCourse) : Run Unit := do
  if m.o.has 'ρ' then
    for place in c.stored do
      onFiles fun t => ((), match t.resolve false (path (withoutSlashes place)) with
        | .ok p => if (t.namesBelow p).isEmpty then t.remove p else t
        | .error _ => t)

/-- Makes an archive, or adds to one. -/
def writeMembers (m : ArchiveMode) : Run Unit := do
  m.checkPacker
  let old ← match m.action with
    | .create => do
      if m.archive != "-" then
        if let .error e ← storeText m.archive "" then
          archiveFailed (toldName m.archive ++ ": Cannot open: " ++ e)
      pure []
    | _ => do
      if m.archive != "-" && ((← files).find (path m.archive)).toOption.isNone then pure []
      else
        let (s, _) ← m.readArchive true
        let (members, ending, _) := decode s
        if ending = .foreign && !s.isEmpty then tellEnding ending false
        pure members
  let c ← match m.action with
    | .join => do
      let mut added : List Member := []
      for p in m.places do
        match ← readInput p.name with
        | .ok s => added := added ++ (decode s).1
        | .error e => archiveFailed (toldName p.name ++ ": Cannot open: " ++ e)
      pure { members := added.reverse : ArchiveCourse }
    | _ => m.gatherAll old
  m.writeArchive (old ++ c.members.reverse)
  m.removeStored c

/-- Reads an archive and does what is asked for with its members. -/
def readMembers (m : ArchiveMode) : Run Unit := do
  let (s, isFailed) ← m.readArchive false
  checkDirectory m.directory
  let names ← m.namesAsked
  let patterns ← m.listedPatterns
  if isFailed && s.isEmpty then endFailedPacker
  let (members, ending, passedOver) := decode s
  let start : ArchiveCourse :=
    { form := { numeric := m.o.has 'η', wholeTime := m.o.has 'λ' } }
  let c ← members.foldlM (m.treat patterns names) start
  m.settleTimes c
  if ending = .early && m.action = .extract then warn "tar" "Unexpected EOF in archive"
  tellEnding ending passedOver
  m.tellMissing names members
  if isFailed then endFailedPacker

/-- Takes members out of an archive for good. -/
def deleteMembers (m : ArchiveMode) : Run Unit := do
  let (s, _) ← m.readArchive true
  let names ← m.namesAsked
  let (members, ending, passedOver) := decode s
  tellEnding ending passedOver
  let kept := members.filter fun x => !names.any fun p => isAtOrBelow p.name x.name
  m.writeArchive kept
  m.tellMissing names members

end ArchiveMode

/-- What `tar` understands. -/
def archiveOptions : OptionNames :=
  { plain := "AcdrtuxaBGhiIjJklmnoOpPRsSUvwWzZδρηψχκνλξπζοΠΣ", valued := "bCfFgHKLNTVXεσωγμτθςβΞ"
    attached := "φ"
    long := [("catenate", 'A'), ("concatenate", 'A'), ("create", 'c'), ("diff", 'd'),
      ("compare", 'd'), ("delete", 'δ'), ("append", 'r'), ("list", 't'), ("update", 'u'),
      ("extract", 'x'), ("get", 'x'), ("file", 'f'), ("directory", 'C'), ("verbose", 'v'),
      ("gzip", 'z'), ("gunzip", 'z'), ("ungzip", 'z'), ("bzip2", 'j'), ("xz", 'J'),
      ("compress", 'Z'), ("zstd", 'ζ'), ("auto-compress", 'a'), ("exclude", 'ε'),
      ("exclude-from", 'X'), ("files-from", 'T'), ("null", 'ξ'), ("to-stdout", 'O'),
      ("strip-components", 'σ'), ("keep-old-files", 'k'), ("skip-old-files", 'κ'),
      ("overwrite", 'ο'), ("remove-files", 'ρ'), ("dereference", 'h'), ("absolute-names", 'P'),
      ("touch", 'm'), ("same-permissions", 'p'), ("preserve-permissions", 'p'),
      ("no-same-permissions", 'π'), ("no-same-owner", 'o'), ("same-owner", 'ο'),
      ("numeric-owner", 'η'), ("owner", 'ω'), ("group", 'γ'), ("mode", 'μ'), ("mtime", 'τ'),
      ("transform", 'θ'), ("xform", 'θ'), ("sort", 'ς'), ("format", 'H'), ("warning", 'β'),
      ("wildcards", 'ψ'), ("no-wildcards", 'χ'), ("recursion", 'ο'), ("no-recursion", 'ν'),
      ("full-time", 'λ'), ("one-top-level", 'φ'), ("totals", 'Σ'), ("blocking-factor", 'b'),
      ("anchored", 'Π'), ("no-anchored", 'Π'), ("interactive", 'w'), ("verify", 'W'),
      ("sparse", 'S'), ("ignore-zeros", 'i'), ("keep-newer-files", 'ο'), ("newer", 'N'),
      ("label", 'V'), ("posix", 'ο'), ("old-archive", 'ο'), ("unlink-first", 'U')] }

/-- Letters in the first argument without a dash, each with its value if it takes one. -/
def spreadLetters (names : OptionNames) : List Char → List String → Except Char (List String)
  | [], rest => .ok rest
  | c :: cs, rest =>
    if names.valued.toList.contains c then
      match rest with
      | value :: rest =>
        (spreadLetters names cs rest).map fun args => String.ofList ['-', c] :: value :: args
      | [] => .error c
    else (spreadLetters names cs rest).map (String.ofList ['-', c] :: ·)

/-- The names among arguments, each with the directory that holds where it stands, and the one that
holds at the end. -/
def archivePlaces (names : OptionNames) (directory : String) :
    List String → List ArchivePlace × String
  | [] => ([], directory)
  | arg :: rest =>
    let enter (d : String) : String :=
      if directory.isEmpty || d.startsWith "/" then d else below directory d
    let noted (c : Char) (value : String) (more : List ArchivePlace × String) :
        List ArchivePlace × String :=
      if c == 'T' then ({ directory, name := value, isList := true } :: more.1, more.2) else more
    if arg == "--" then
      (rest.map fun name => ({ directory, name } : ArchivePlace), directory)
    else if !arg.startsWith "-" || arg == "-" then
      let (places, last) := archivePlaces names directory rest
      ({ directory, name := arg } :: places, last)
    else
      let (c, given, lacks) : Char × String × Bool :=
        match arg.toList with
        | '-' :: '-' :: cs =>
          let name := String.ofList (cs.takeWhile (· != '='))
          let c := (Options.longName? names name).getD ' '
          (c, String.ofList (cs.drop (name.length + 1)),
            !cs.contains '=' && names.valued.toList.contains c)
        | _ :: cs =>
          match Options.letters names cs with
          | .ok (_, some c) => (c, "", true)
          | .ok (flags, none) => ((flags.getLast?.map Prod.fst).getD ' ',
              (flags.getLast?.map Prod.snd).getD "", false)
          | .error _ => (' ', "", false)
        | [] => (' ', "", false)
      match lacks, rest with
      | true, value :: rest =>
        noted c value (archivePlaces names (if c == 'C' then enter value else directory) rest)
      | _, rest => noted c given (archivePlaces names (if c == 'C' then enter given else directory) rest)

/-- `tar`. -/
def archiveFiles : Utility := fun args => do
  let names := archiveOptions
  let args ← match args with
    | first :: rest =>
      if first.startsWith "-" || first.isEmpty then pure args
      else
        match spreadLetters names first.toList rest with
        | .ok args => pure args
        | .error c =>
          archiveMisused ("Old option \x27" ++ String.singleton c ++ "\x27 requires an argument.")
    | [] => pure args
  match Options.read names true args with
  | .error e => archiveMisused e.message
  | .ok o =>
    setStatus 0
    let actions : List (Char × ArchiveAction) :=
      [('c', .create), ('r', .append), ('u', .update), ('A', .join), ('t', .list), ('x', .extract),
        ('d', .compare), ('δ', .delete)]
    match actions.filter fun a => o.has a.1 with
    | [] =>
      archiveMisused
        "You must specify one of the \x27-Acdtrux\x27, \x27--delete\x27 or \x27--test-label\x27 options"
    | [(_, action)] =>
      let (places, last) := archivePlaces names "" args
      let m : ArchiveMode :=
        { action, o, places, directory := last, archive := (o.value? 'f').getD "-" }
      match action with
      | .create =>
        if places.isEmpty then archiveMisused "Cowardly refusing to create an empty archive"
        m.writeMembers
      | .append | .update | .join => m.writeMembers
      | .delete => m.deleteMembers
      | .list | .extract | .compare => m.readMembers
      if !places.isEmpty && (places.getLast?.map ArchivePlace.directory) != some last then
        warn "tar" ("The following options were used after non-option arguments.  These options " ++
          "are positional and affect only arguments that follow them.  Please, rearrange them " ++
          "properly.")
        archiveWarn ("-C " ++ cited ((o.value? 'C').getD "") ++ " has no effect")
      if (← status) = 2 then
        fail "tar" 2 "Exiting with failure status due to previous errors"
    | _ =>
      archiveMisused ("You may not specify more than one \x27-Acdtrux\x27, \x27--delete\x27 or  " ++
        "\x27--test-label\x27 option")

end PatchSearch.Shell
