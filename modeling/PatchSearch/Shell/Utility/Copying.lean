import PatchSearch.Shell.Rights
import PatchSearch.Shell.Utility.Paths

/-!
Copying. A file that is copied onto another one keeps that file's number and rights; a new one
gets the rights of its source, less what the mask takes, or all of them and the time of its source
if they are preserved.
-/
namespace PatchSearch.Shell

open Run

/-- How items are copied. -/
structure CopyMode where
  deep : Bool := false
  /-- Whether links are copied as links, always or where they are not named themselves. -/
  keepsLinks : Bool := false
  followsNamed : Bool := false
  told : Bool := false
  /-- Whether existing files stay as they are, are asked for, or stay if they are newer. -/
  sparing : Bool := false
  asks : Bool := false
  newer : Bool := false
  /-- Whether existing files are taken away first. -/
  replaces : Bool := false
  keepsRights : Bool := false
  keepsTime : Bool := false
  /-- Whether names of one file become names of one copy. -/
  keepsNames : Bool := false
  backup : Option Backup := none
  /-- Whether links of one of two kinds are made in place of copies. -/
  hardLinks : Bool := false
  symbolicLinks : Bool := false
  withParents : Bool := false

/-- What was copied so far: the numbers of sources with the paths of their copies, and the numbers
of files that were made. -/
structure CopyLog where
  copied : List (Nat × String) := []
  made : List Nat := []
  sources : List String := []

/-- The files without what stands at a path, which may be a link. -/
def withoutPath (t : FileTree) (name : String) : FileTree :=
  match t.resolve false (path name) with
  | .ok p => t.remove p
  | .error _ => t

/-- Puts an entry at a path where nothing stands. -/
def putNew (name : String) (e : Entry) : Run (Except FileError Unit) :=
  tryFiles fun t => do
    let p ← t.resolve false (path name)
    if endsInSlash name then throw .notADirectory
    else if t.isDirectoryAt p.dropLast then return t.put p e
    else throw .notFound

/-- Changes the item at a path. -/
def changeItem (name : String) (f : FileTree → Item → Item) : Run Unit :=
  onFiles fun t =>
    ((), match t.resolve false (path name) with
      | .ok p => t.changeAt p (f t)
      | .error _ => t)

/-- Gives a copy what is preserved of its source. -/
def preserve (mode : CopyMode) (x : Item) (target : String) (isNew : Bool) : Run Unit :=
  changeItem target fun t y =>
    { y with
      rights := if x.entry.isDirectory || x.entry.isFile then
          if mode.keepsRights then x.rights
          else if isNew then clearBits (x.rights &&& 511) t.mask
          else y.rights
        else y.rights
      changed := if mode.keepsTime then x.changed else y.changed }

/-- Why a copy cannot be made. -/
def copyFailed (program : String) (x : Item) (target : String) (e : FileError) : Run Unit :=
  let what := match x.entry with
    | .link _ => "symbolic link "
    | _ => "regular file "
  lament program ("cannot create " ++ what ++ inQuotes target ++ ": " ++ causeText e)

/-- Makes the copy of one item, which is no directory, where nothing is in the way. -/
def makeCopy (program : String) (mode : CopyMode) (source target : String) (x : Item)
    (log : CopyLog) : Run CopyLog := do
  let t ← files
  let earlier := if mode.keepsNames then log.copied.lookup x.number else none
  if mode.hardLinks || earlier.isSome then
    let origin := (earlier.map fun n => t.resolve false (path n)).getD
      (t.resolve (!mode.keepsLinks) (path source))
    match origin, t.resolve false (path target) with
    | .ok p, .ok q =>
      if t.entry? q |>.isSome then
        lament program ("cannot create hard link " ++ inQuotes target ++ " to " ++
          inQuotes source ++ ": File exists")
      else if let some y := t.item? p then onFiles fun t => ((), t.place q y)
    | _, .error e => copyFailed program x target e
    | .error e, _ => copyFailed program x target e
    return log
  if mode.symbolicLinks then
    if (t.findLink (path target)).isOk then
      lament program ("cannot create symbolic link " ++ inQuotes target ++ " to " ++
        inQuotes source ++ ": File exists")
    else if !isAbsolutePath source && target.toList.contains '/' then
      lament program (shownName target ++
        ": can make relative symbolic links only in current directory")
    else if let .error e ← putNew target (.link (path source)) then
      copyFailed program { x with entry := .link "" } target e
    return log
  let exists' := (t.find (path target)).isOk
  let stored ← match x.entry with
    | .file content =>
      if exists' then tryFiles fun t => t.write (path target) content
      else putNew target x.entry
    | e => do
      onFiles fun t => ((), withoutPath t target)
      putNew target e
  match stored with
  | .error e =>
    copyFailed program x target e
    return log
  | .ok _ =>
    preserve mode x target (!exists')
    let made := ((← files).findLinkItem (path target)).toOption.map (·.2.number)
    return { log with
      copied := if mode.keepsNames then (x.number, target) :: log.copied else log.copied
      made := if exists' then log.made else made.toList ++ log.made }

/-- Copies one item, which is no directory, to a path. -/
def copyItem (program : String) (mode : CopyMode) (source target : String) (x : Item)
    (log : CopyLog) : Run CopyLog := do
  if let some c ← device? target then
    if let (.ok c, .file content) := (c, x.entry) then
      discard (writeTo (some c) (octetsOfBytes content))
    return log
  let t ← files
  let isLink := !x.entry.isFile
  let there := if isLink || mode.replaces then t.findLinkItem (path target)
    else t.findItem (path target)
  if let .error e := there then
    if e != .notFound then
      lament program ("cannot stat " ++ inQuotes target ++ ": " ++ causeText e)
      return log
  let old := there.toOption.map Prod.snd
  let isDangling := old.isNone && (t.findLink (path target)).isOk
  let refused (text : String) : Run CopyLog := do
    lament program text
    return log
  match old with
  | some y =>
    if y.entry.isDirectory then
      return ← refused ("cannot overwrite directory " ++ inQuotes target ++
        " with non-directory")
    let behind := if isLink && y.entry.isFile then
        (t.findItem (path source)).toOption.map (·.2.number) else none
    if (y.number == x.number && x.number != 0 || behind == some y.number) &&
        !(mode.hardLinks || mode.symbolicLinks || mode.replaces) then
      return ← refused (inQuotes source ++ " and " ++ inQuotes target ++ " are the same file")
    if y.number == x.number && mode.hardLinks then return log
    if mode.newer && x.changed ≤ y.changed then return log
    if mode.sparing then return log
    if mode.asks then
      if !(← confirm program ("overwrite " ++ inQuotes target)) then return log
    if log.made.contains y.number then
      return ← refused ("will not overwrite just-created " ++ inQuotes target ++ " with " ++
        inQuotes source)
  | none => pure ()
  if isDangling && !isLink && !mode.replaces && mode.backup.isNone then
    if mode.sparing then return log
    return ← refused ("not writing through dangling symlink " ++ inQuotes target)
  let mut backup := none
  if old.isSome || isDangling then
    if let some b := mode.backup then backup := some (← keepBackup b target)
    else if mode.replaces || mode.keepsNames && (log.copied.lookup x.number).isSome then
      onFiles fun t => ((), withoutPath t target)
  if mode.told then emit program (namesTold source target backup)
  makeCopy program mode source target x log

/-- Copies a directory with all that stands in it, except for what the copy itself puts there. -/
def copyDirectory (mode : CopyMode) (source target : String) (origin : Position)
    (log : CopyLog) : Run CopyLog := do
  let t ← files
  let goal := (t.locate (path target)).toOption
  let mut log := log
  let mut finished : List (Item × String × Bool) := []
  let mut closed : List (List String) := []
  for (names, x) in treeFrom t origin do
    if goal.any fun p => origin.isPrefixOf p && p.isPrefixOf (origin ++ names) then continue
    if closed.any fun c => c.isPrefixOf names then continue
    let item := namedBelow source names
    let copy := namedBelow target names
    match x.entry with
    | .directory =>
      match (← files).find (path copy) with
      | .ok (_, .directory) => finished := (x, copy, false) :: finished
      | .ok _ =>
        lament "cp" ("cannot overwrite non-directory " ++ inQuotes copy ++ " with directory " ++
          inQuotes item)
        closed := names :: closed
      | .error _ =>
        match ← tryFiles fun t => t.makeDir (path copy) with
        | .ok _ =>
          if mode.told then emit "cp" (inQuotes item ++ " -> " ++ inQuotes copy ++ "\n")
          finished := (x, copy, true) :: finished
        | .error e =>
          lament "cp" ("cannot create directory " ++ inQuotes copy ++ ": " ++ causeText e)
          closed := names :: closed
    | .link _ =>
      if mode.keepsLinks then log ← copyItem "cp" mode item copy x log
      else
        match (← files).findItem (path item) with
        | .ok (p, y) =>
          if y.entry.isDirectory then
            if !(origin.isPrefixOf p) then
              for (inner, z) in treeFrom (← files) p do
                if z.entry.isDirectory then
                  discard (tryFiles fun t => t.makeDir (path (namedBelow copy inner)))
                else
                  log ← copyItem "cp" mode (namedBelow item inner) (namedBelow copy inner) z log
          else log ← copyItem "cp" mode item copy y log
        | .error e => lament "cp" ("cannot stat " ++ inQuotes item ++ ": " ++ causeText e)
    | .file _ => log ← copyItem "cp" mode item copy x log
  for (x, copy, isNew) in finished do
    preserve mode x copy isNew
  return log

/-- Makes the directories in front of a path below a target, where they are missing. -/
def makeParents (mode : CopyMode) (target : String) : String → List String → Run Unit
  | _, [] => return
  | front, step :: rest => do
    let name := front ++ step
    if step.isEmpty then makeParents mode target front rest
    else
      match ← tryFiles fun t => t.makeDir (path (below target name)) with
      | .ok _ =>
        if mode.told then emit "cp" (name ++ " -> " ++ below target name ++ "\n")
        if let .ok (_, x) := (← files).findItem (path name) then
          preserve mode x (below target name) true
      | .error _ => pure ()
      makeParents mode target (name ++ "/") rest

/-- Copies one source to a path. -/
def copyOne (mode : CopyMode) (log : CopyLog) (source target : String) : Run CopyLog := do
  let t ← files
  let found ← do
    if source == "/dev/stdin" then
      let text := (← readInput "-").toOption.getD ""
      pure (.ok (["dev", "stdin"], ⟨.file (octetBytes text), 0, 384, t.now⟩))
    else if source == "/dev/null" then pure (.ok (["dev", "null"], ⟨.file .empty, 0, 438, t.now⟩))
    else if mode.keepsLinks && !mode.followsNamed then pure (t.findLinkItem (path source))
    else pure (t.findItem (path source))
  match found with
  | .error e =>
    lament "cp" ("cannot stat " ++ inQuotes source ++ ": " ++ causeText e)
    return log
  | .ok (origin, x) =>
    if log.sources.contains source then
      warn "cp" ("warning: source " ++ (if x.entry.isDirectory then "directory " else "file ") ++
        inQuotes source ++ " specified more than once")
      return log
    let log := { log with sources := source :: log.sources }
    if !x.entry.isDirectory then copyItem "cp" mode source target x log
    else if !mode.deep then
      lament "cp" ("-r not specified; omitting directory " ++ inQuotes source)
      return log
    else
      match t.find (path target) with
      | .ok (_, .file _) =>
        lament "cp" ("cannot overwrite non-directory " ++ inQuotes target ++ " with directory " ++
          inQuotes source)
        return log
      | _ =>
        match t.locate (path target) with
        | .ok goal =>
          if goal == origin then
            lament "cp" (inQuotes source ++ " and " ++ inQuotes target ++ " are the same file")
            return log
          else if origin.isPrefixOf goal then
            let log ← copyDirectory mode source target origin log
            lament "cp" ("cannot copy a directory, " ++ inQuotes source ++ ", into itself, " ++
              inQuotes target)
            return log
          else copyDirectory mode source target origin log
        | .error _ => copyDirectory mode source target origin log

/-- Whether options preserve something that a list may name. -/
def preserves (o : Options) (what : String) (byDefault : Bool) : Bool :=
  o.flags.foldl (fun kept (c, value) =>
    let names := value.splitOn ","
    if c == 'a' then true
    else if c == 'p' || c == 'π' && value.isEmpty then kept || byDefault
    else if c == 'π' then kept || names.contains what || names.contains "all"
    else if c == 'ν' then kept && !(names.contains what || names.contains "all")
    else if c == 'd' then kept || what == "links"
    else kept) false

/-- `cp`. -/
def copyFiles : Utility :=
  withOptions "cp"
    { plain := "RrafLPdnvuTHlsixbpδπνβκ", valued := "tS"
      long := [("recursive", 'r'), ("archive", 'a'), ("force", 'f'), ("verbose", 'v'),
        ("no-clobber", 'n'), ("target-directory", 't'), ("no-target-directory", 'T'),
        ("dereference", 'L'), ("no-dereference", 'P'), ("preserve", 'π'), ("no-preserve", 'ν'),
        ("update", 'u'), ("parents", 'κ'), ("link", 'l'), ("symbolic-link", 's'),
        ("interactive", 'i'), ("backup", 'β'), ("suffix", 'S'), ("remove-destination", 'δ'),
        ("one-file-system", 'x')] }
    fun o => do
      let deep := o.has 'R' || o.has 'r' || o.has 'a'
      let keepsLinks := match o.last? ['L', 'P', 'd', 'a', 'H'] with
        | some 'L' => false
        | some _ => true
        | none => deep || o.has 'l'
      let asked := o.last? ['n', 'i']
      let mode : CopyMode :=
        { deep, keepsLinks, followsNamed := o.last? ['L', 'P', 'd', 'a', 'H'] == some 'H'
          told := o.has 'v', sparing := asked == some 'n', asks := asked == some 'i'
          newer := o.has 'u', replaces := o.has 'δ' || (o.has 'f' && (o.has 'l' || o.has 's'))
          keepsRights := preserves o "mode" true, keepsTime := preserves o "timestamps" true
          keepsNames := preserves o "links" false, backup := Backup.ofOptions o 'b' 'β'
          hardLinks := o.has 'l', symbolicLinks := o.has 's', withParents := o.has 'κ' }
      if mode.withParents then
        let (sources, target) := match o.value? 't' with
          | some t => (o.operands, t)
          | none => (o.operands.dropLast, o.operands.getLastD "")
        match ← find target with
        | .ok (_, .directory) =>
          let mut log : CopyLog := {}
          for s in sources do
            let steps := ((withoutSlashes s).splitOn "/").filter (!·.isEmpty)
            if (← find s).isOk then makeParents mode target "" steps.dropLast
            log ← copyOne mode log s (below target (String.intercalate "/" steps))
        | _ =>
          if sources.isEmpty then ontoTarget "cp" o {} (copyOne mode)
          misuse "cp" 1 "with --parents, the destination must be a directory"
      else ontoTarget "cp" o {} (copyOne mode)

/-- Makes a directory with all directories above it; whether there is one then. -/
def installDirectory (told : Bool) (name : String) : Run Bool := do
  let rec along (front : String) : List String → Run Bool
    | [] => return true
    | step :: rest => do
      let next := front ++ step
      if step.isEmpty then along (next ++ "/") rest
      else
        match ← tryFiles fun t => t.makeDir (path next) with
        | .ok _ =>
          changeItem next fun _ y => { y with rights := 493 }
          if told then emit "install" ("install: creating directory " ++ inQuotes next ++ "\n")
          along (next ++ "/") rest
        | .error e =>
          if (← files).isDirectory (path next) then along (next ++ "/") rest
          else
            lament "install" ("cannot create directory " ++ inQuotes next ++ ": " ++ causeText e)
            return false
  along "" (name.splitOn "/")

/-- `install`. -/
def installFiles : Utility :=
  withOptions "install"
    { plain := "dDvpTCcsbβ", valued := "mogtS"
      long := [("directory", 'd'), ("mode", 'm'), ("verbose", 'v'), ("preserve-timestamps", 'p'),
        ("target-directory", 't'), ("no-target-directory", 'T'), ("backup", 'β'),
        ("suffix", 'S'), ("owner", 'o'), ("group", 'g'), ("compare", 'C'), ("strip", 's')] }
    fun o => do
      let given := (o.value? 'm').getD "755"
      match RightStep.read? given with
      | none => fail "install" 1 ("invalid mode " ++ cited given)
      | some steps =>
        let rights (isDirectory : Bool) : Nat := RightStep.applyAll steps isDirectory 0 0
        if o.has 'd' then
          if o.operands.isEmpty then misuse "install" 1 "missing file operand"
          for name in o.operands do
            if ← installDirectory (o.has 'v') name then
              changeItem name fun _ y => { y with rights := rights true }
        else
          let mode : CopyMode :=
            { told := o.has 'v', replaces := true, keepsTime := o.has 'p'
              backup := Backup.ofOptions o 'b' 'β' }
          let place (log : CopyLog) (source target : String) : Run CopyLog := do
            match (← files).findItem (path source) with
            | .error e =>
              lament "install" ("cannot stat " ++ inQuotes source ++ ": " ++ causeText e)
              return log
            | .ok (_, x) =>
              if x.entry.isDirectory then
                lament "install" ("omitting directory " ++ inQuotes source)
                return log
              let log' ← copyItem "install" mode source target x log
              if log'.made != log.made then
                changeItem target fun _ y => { y with rights := rights false }
              return log'
          if o.has 'D' then
            let directory := match o.value? 't' with
              | some t => t
              | none => octets ((parentPath (path (o.operands.getLastD ""))).getD "")
            if !directory.isEmpty then
              if !(← installDirectory (o.has 'v') directory) then halt
          let isNull (s : String) : Bool := s == "/dev/null"
          if o.operands.dropLast.any isNull && o.operands.length = 2 then
            let target ← destination "null" (o.operands.getLastD "") (o.has 'T')
            onFiles fun t => ((), withoutPath t target)
            discard (putNew target (.file .empty))
            changeItem target fun _ y => { y with rights := rights false }
          else ontoTarget "install" o {} place

end PatchSearch.Shell
