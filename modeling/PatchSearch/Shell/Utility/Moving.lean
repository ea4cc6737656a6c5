import PatchSearch.Shell.Utility.Copying
import PatchSearch.Shell.Utility.Paths

/-!
Moving and linking: names that come to stand for what another name stands for, with or without the
other name being given up, and links that stand for a path.
-/
namespace PatchSearch.Shell

open Run

/-- Moves one source to a path; `made` are the numbers of what was moved before. -/
def moveOne (o : Options) (made : List Nat) (source target : String) : Run (List Nat) := do
  let t ← files
  let refused (text : String) : Run (List Nat) := do
    lament "mv" text
    return made
  let failed (e : FileError) : Run (List Nat) :=
    refused ("cannot move " ++ inQuotes source ++ " to " ++ inQuotes target ++ ": " ++ causeText e)
  let asked := o.last? ['n', 'i', 'f']
  match t.findLinkItem (path source) with
  | .error e => refused ("cannot stat " ++ inQuotes source ++ ": " ++ causeText e)
  | .ok (origin, x) =>
    let isLink := match t.findLink (path (withoutSlashes source)) with
      | .ok (_, .link _) => true
      | _ => false
    match t.resolve false (path (withoutSlashes target)) with
    | .error e => failed e
    | .ok goal =>
      if isLink && endsInSlash source then return ← failed .notADirectory
      let isDirectory := x.entry.isDirectory
      let move : Run (List Nat) := do
        let mut backup := none
        if let some b := Backup.ofOptions o 'b' 'β' then
          if (t.item? goal).isSome then backup := some (← keepBackup b (withoutSlashes target))
        onFiles fun t => ((), t.move origin goal)
        if o.has 'v' then emit "mv" ("renamed " ++ namesTold source target backup)
        return x.number :: made
      if origin == goal then
        refused (inQuotes source ++ " and " ++ inQuotes target ++ " are the same file")
      else if isDirectory && origin.isPrefixOf goal then
        refused ("cannot move " ++ inQuotes source ++ " to a subdirectory of itself, " ++
          inQuotes target)
      else
        match t.item? goal with
        | none =>
          if !t.isDirectoryAt goal.dropLast then failed .notFound
          else if endsInSlash target && !isDirectory then failed .notADirectory
          else move
        | some y =>
          if asked == some 'n' || o.has 'u' && x.changed ≤ y.changed then return made
          else if y.entry.isDirectory then
            if !isDirectory then
              refused ("cannot overwrite directory " ++ inQuotes target ++ " with non-directory")
            else if !(t.namesBelow goal).isEmpty && !o.has 'b' then
              refused ("cannot overwrite " ++ inQuotes target ++ ": Directory not empty")
            else move
          else if isDirectory then
            refused ("cannot overwrite non-directory " ++ inQuotes target ++
              " with directory " ++ inQuotes source)
          else if made.contains y.number then
            refused ("will not overwrite just-created " ++ inQuotes target ++ " with " ++
              inQuotes source)
          else if asked == some 'i' then
            if ← confirm "mv" ("overwrite " ++ inQuotes target) then move else return made
          else if y.number == x.number then
            refused (inQuotes source ++ " and " ++ inQuotes target ++ " are the same file")
          else move

/-- `mv`. -/
def moveFiles : Utility :=
  withOptions "mv"
    { plain := "fnvuTibβ", valued := "tS"
      long := [("force", 'f'), ("no-clobber", 'n'), ("verbose", 'v'), ("target-directory", 't'),
        ("no-target-directory", 'T'), ("interactive", 'i'), ("update", 'u'), ("backup", 'β'),
        ("suffix", 'S')] }
    fun o => ontoTarget "mv" o [] (moveOne o)

/-- The path that leads from a directory to a position. -/
def pathBetween (origin goal : Position) : String :=
  let common := ((origin.zip goal).takeWhile fun x => x.1 == x.2).length
  let steps := List.replicate (origin.length - common) ".." ++ goal.drop common
  if steps.isEmpty then "." else String.intercalate "/" steps

/-- Makes one link at a path. -/
def linkOne (o : Options) (source target : String) : Run Unit := do
  let t ← files
  let what := if o.has 's' then "symbolic link " else "hard link "
  let failed (e : FileError) : Run Unit :=
    lament "ln" ("failed to create " ++ what ++ inQuotes target ++
      (if o.has 's' || e == .alreadyExists then "" else " => " ++ inQuotes source) ++ ": " ++
      causeText e)
  let put (origin? : Option Position) (make : FileTree → Position → FileTree) : Run Unit := do
    match t.resolve false (path target) with
    | .error e => failed e
    | .ok p =>
      let backup := Backup.ofOptions o 'b' 'β'
      let finish (kept : Option String) : Run Unit := do
        onFiles fun t => ((), make t p)
        if o.has 'v' then
          emit "ln" (inQuotes target ++ (if o.has 's' then " -> " else " => ") ++
            inQuotes source ++ match kept with
              | some copy => " (backup: " ++ inQuotes copy ++ ")\n"
              | none => "\n")
      match t.item? p with
      | some y =>
        if y.entry.isDirectory then
          if o.has 'f' then lament "ln" (inQuotes target ++ ": cannot overwrite directory")
          else failed .alreadyExists
        else if origin? == some p && o.has 'f' then
          lament "ln" (inQuotes source ++ " and " ++ inQuotes target ++ " are the same file")
        else if let some b := backup then finish (some (← keepBackup b target))
        else if o.last? ['f', 'i'] == some 'i' then
          if ← confirm "ln" ("replace " ++ inQuotes target) then finish none
        else if o.has 'f' then finish none
        else failed .alreadyExists
      | none => if t.isDirectoryAt p.dropLast then finish none else failed .notFound
  if o.has 's' then
    if source.isEmpty then
      lament "ln" ("failed to create symbolic link " ++ inQuotes target ++
        " -> \x27\x27: No such file or directory")
    else
      let shown : String :=
        if o.has 'r' then
          match t.locate (path source), t.resolve false (path target) with
          | .ok p, .ok q => octets (pathBetween q.dropLast p)
          | _, _ => source
        else source
      put none fun t p => t.put p (.link (path shown))
  else
    let found := if o.has 'L' then t.findItem (path source) else t.findLinkItem (path source)
    match found with
    | .error e => lament "ln" ("failed to access " ++ inQuotes source ++ ": " ++ causeText e)
    | .ok (origin, x) =>
      if x.entry.isDirectory then
        lament "ln" (shownName source ++ ": hard link not allowed for directory")
      else put (some origin) fun t p => t.place p x

/-- `ln`. -/
def linkFiles : Utility :=
  withOptions "ln"
    { plain := "sfnvrTLPibβ", valued := "tS"
      long := [("symbolic", 's'), ("force", 'f'), ("verbose", 'v'), ("relative", 'r'),
        ("no-dereference", 'n'), ("target-directory", 't'), ("no-target-directory", 'T'),
        ("interactive", 'i'), ("backup", 'β'), ("suffix", 'S'), ("logical", 'L'),
        ("physical", 'P')] }
    fun o => do
      let place (source target : String) : Run String := do
        let t ← files
        let found := if o.has 'n' then t.findLink (path target) else t.find (path target)
        match found with
        | .ok (_, .directory) =>
          return if o.has 'T' then target else below target ((lastPart? source).getD "")
        | _ => return target
      match o.value? 't', o.operands with
      | some _, [] => misuse "ln" 1 "missing file operand"
      | some t, sources =>
        for s in sources do
          linkOne o s (← place s t)
      | none, [] => misuse "ln" 1 "missing file operand"
      | none, [source] =>
        if o.has 'T' then
          misuse "ln" 1 ("missing destination file operand after " ++ inQuotes source)
        linkOne o source (below "." ((lastPart? source).getD "."))
      | none, [source, target] => linkOne o source (← place source target)
      | none, operands =>
        let target := operands.getLastD ""
        match ← find target with
        | .ok (_, .directory) =>
          for s in operands.dropLast do
            linkOne o s (← place s target)
        | .ok _ => fail "ln" 1 ("target " ++ inQuotes target ++ ": Not a directory")
        | .error e => fail "ln" 1 ("target " ++ inQuotes target ++ ": " ++ causeText e)

/-- `link`. -/
def linkPlainly : Utility := fun args => do
  setStatus 0
  match args with
  | [source, target] =>
    let t ← files
    let failed (e : FileError) : Run Unit :=
      lament "link" ("cannot create link " ++ inQuotes target ++ " to " ++ inQuotes source ++
        ": " ++ causeText e)
    match t.findLinkItem (path source), t.resolve false (path target) with
    | .error e, _ => failed e
    | _, .error e => failed e
    | .ok (_, x), .ok p =>
      if x.entry.isDirectory then
        lament "link" ("cannot create link " ++ inQuotes target ++ " to " ++ inQuotes source ++
          ": Operation not permitted")
      else if (t.item? p).isSome then failed .alreadyExists
      else if !t.isDirectoryAt p.dropLast then failed .notFound
      else onFiles fun t => ((), t.place p x)
  | [] => misuse "link" 1 "missing operand"
  | [source] => misuse "link" 1 ("missing operand after " ++ cited source)
  | _ :: _ :: extra :: _ => misuse "link" 1 ("extra operand " ++ cited extra)

/-!
Removing what stands in the file tree, one name at a time or a directory with all that it holds.
-/

/-- What an item is, as a question about it says. -/
def itemKind (x : Item) : String :=
  match x.entry with
  | .file content => if content.size = 0 then "regular empty file" else "regular file"
  | .directory => "directory"
  | .link _ => "symbolic link"

/-- How items are removed. -/
structure RemoveMode where
  deep : Bool
  forced : Bool
  asks : Bool
  told : Bool
  /-- Whether directories that hold nothing are removed. -/
  bare : Bool

/-- Removes an item with what it holds, children first; whether it is gone. -/
def removeFrom (mode : RemoveMode) : Nat → String → Position → Run Bool
  | 0, _, _ => return false
  | n + 1, name, p => do
    let t ← files
    match t.item? p with
    | none => return true
    | some x =>
      let gone : Run Bool := do
        onFiles fun t => ((), t.remove p)
        if mode.told then
          emit "rm" ("removed " ++ (if x.entry.isDirectory then "directory " else "") ++
            inQuotes name ++ "\n")
        return true
      let asked (question : String) : Run Bool := do
        if mode.asks then confirm "rm" (question ++ inQuotes name) else return true
      if !x.entry.isDirectory then
        if ← asked ("remove " ++ itemKind x ++ " ") then gone else return false
      else
        let names := t.namesBelow p
        if !names.isEmpty then
          if !(← asked "descend into directory ") then return false
        let mut all := true
        for inner in names do
          if !(← removeFrom mode n (below name (octets inner)) (p ++ [inner])) then all := false
        if !(← asked "remove directory ") then return false
        else if all then gone
        else
          lament "rm" ("cannot remove " ++ inQuotes name ++ ": Directory not empty")
          return false

/-- `rm`. -/
def removeFiles : Utility :=
  withOptions "rm"
    { plain := "rRfdviIπν"
      long := [("recursive", 'r'), ("force", 'f'), ("dir", 'd'), ("verbose", 'v'),
        ("interactive", 'i'), ("preserve-root", 'π'), ("no-preserve-root", 'ν'),
        ("one-file-system", 'π')] }
    fun o => do
      let mode : RemoveMode :=
        { deep := o.has 'r' || o.has 'R', forced := o.last? ['f', 'i', 'I'] == some 'f'
          asks := o.last? ['f', 'i', 'I'] == some 'i', told := o.has 'v', bare := o.has 'd' }
      if o.operands.isEmpty && !mode.forced then
        misuse "rm" 1 "missing operand"
      if o.last? ['f', 'i', 'I'] == some 'I' && (mode.deep || 3 < o.operands.length) then
        let count := toString o.operands.length ++
          if o.operands.length = 1 then " argument" else " arguments"
        if !(← confirm "rm" ("remove " ++ count ++ if mode.deep then " recursively" else "")) then
          halt
      for name in o.operands do
        let failed (cause : String) : Run Unit :=
          lament "rm" ("cannot remove " ++ inQuotes name ++ ": " ++ cause)
        let last := ((withoutSlashes name).splitOn "/").getLastD ""
        let t ← files
        match t.findLink (path name) with
        | .error e =>
          if !(mode.forced && (e == .notFound || e == .notADirectory)) then failed (causeText e)
        | .ok (p, .directory) =>
          if mode.deep && (last == "." || last == "..") then
            lament "rm" ("refusing to remove \x27.\x27 or \x27..\x27 directory: skipping " ++
              inQuotes name)
          else if mode.deep && p.isEmpty then
            warn "rm" "it is dangerous to operate recursively on \x27/\x27"
            lament "rm" "use --no-preserve-root to override this failsafe"
          else if mode.deep then discard (removeFrom mode (t.items.length + 1) name p)
          else if mode.bare then
            if (t.namesBelow p).isEmpty then discard (removeFrom mode 1 name p)
            else failed "Directory not empty"
          else failed "Is a directory"
        | .ok (p, _) => discard (removeFrom mode 1 name p)

/-- `rmdir`. -/
def removeDirectories : Utility :=
  withOptions "rmdir"
    { plain := "pvI"
      long := [("parents", 'p'), ("verbose", 'v'), ("ignore-fail-on-non-empty", 'I')] }
    fun o => do
      if o.operands.isEmpty then misuse "rmdir" 1 "missing operand"
      let one (name : String) (isAbove : Bool) : Run Bool := do
        let failed (e : FileError) : Run Bool := do
          if !(o.has 'I' && e == .notEmpty) then
            lament "rmdir" ("failed to remove " ++ (if isAbove then "directory " else "") ++
              inQuotes name ++ ": " ++ causeText e)
          return false
        if o.has 'v' then emit "rmdir" ("rmdir: removing directory, " ++ inQuotes name ++ "\n")
        match (← files).findLink (path name) with
        | .error e => failed e
        | .ok (p, .directory) =>
          if (withoutSlashes name == ".") then failed .invalidTarget
          else if ((← files).namesBelow p).isEmpty then
            onFiles fun t => ((), t.remove p)
            return true
          else failed .notEmpty
        | .ok _ => failed .notADirectory
      let rec upwards : Nat → List String → Run Unit
        | 0, _ => return
        | n + 1, names => do
          if !names.isEmpty then
            if ← one (String.intercalate "/" names) true then upwards n names.dropLast
      for name in o.operands do
        if ← one name false then
          if o.has 'p' then
            let names := (withoutSlashes name).splitOn "/"
            upwards names.length names.dropLast

/-- `unlink`. -/
def unlinkFile : Utility := fun args => do
  setStatus 0
  match args.filter (· != "--") with
  | [name] =>
    match (← files).findLink (path name) with
    | .ok (_, .directory) =>
      lament "unlink" ("cannot unlink " ++ inQuotes name ++ ": Is a directory")
    | .ok (p, _) => onFiles fun t => ((), t.remove p)
    | .error e => lament "unlink" ("cannot unlink " ++ inQuotes name ++ ": " ++ causeText e)
  | [] => misuse "unlink" 1 "missing operand"
  | _ :: extra :: _ => misuse "unlink" 1 ("extra operand " ++ cited extra)

end PatchSearch.Shell
