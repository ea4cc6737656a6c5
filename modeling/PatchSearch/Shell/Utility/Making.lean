import PatchSearch.Shell.Calendar.Reader
import PatchSearch.Shell.Utility.Copying

/-!
Making directories and files, and changing what is known about them: rights, times and sizes.
-/
namespace PatchSearch.Shell

open Run

/-- `mkdir`. -/
def makeDirectories : Utility :=
  withOptions "mkdir"
    { plain := "pvZ", valued := "m"
      long := [("parents", 'p'), ("verbose", 'v'), ("mode", 'm')] }
    fun o => do
      if o.operands.isEmpty then misuse "mkdir" 1 "missing operand"
      let given := (o.value? 'm').map RightStep.read?
      if given.any Option.isNone then
        fail "mkdir" 1 ("invalid mode " ++ cited ((o.value? 'm').getD ""))
      let failed (name : String) (e : FileError) : Run Unit :=
        lament "mkdir" ("cannot create directory " ++ cited name ++ ": " ++ causeText e)
      let made (name : String) (isLast : Bool) : Run Unit := do
        if o.has 'v' then emit "mkdir" ("mkdir: created directory " ++ inQuotes name ++ "\n")
        match isLast, given with
        | true, some (some steps) =>
          changeItem name fun t y => { y with rights := RightStep.forNew steps t.mask }
        | true, _ => pure ()
        | false, _ => changeItem name fun _ y => { y with rights := y.rights ||| 192 }
      /- Makes the directories on the way to a name, which is `front` up to here. -/
      let rec along (front : String) : List String → Run Unit
        | [] => return
        | step :: rest => do
          let name := front ++ step
          if step.isEmpty || step == "." || step == ".." then along (name ++ "/") rest
          else
            match ← tryFiles fun t => t.makeDir (path name) with
            | .ok _ =>
              made name (rest.all (·.isEmpty))
              along (name ++ "/") rest
            | .error e =>
              match ← find name with
              | .ok (_, .directory) => along (name ++ "/") rest
              | .ok _ =>
                failed name (if rest.all (·.isEmpty) then .alreadyExists else .notADirectory)
              | .error _ => failed name e
      for name in o.operands do
        if o.has 'p' then
          if name.isEmpty then failed name .notFound else along "" (name.splitOn "/")
        else
          match ← tryFiles fun t => t.makeDir (path name) with
          | .ok _ => made name true
          | .error e => failed name e

/-- `touch`. -/
def touchFiles : Utility :=
  withOptions "touch"
    { plain := "amchf", valued := "tdrτ"
      long := [("no-create", 'c'), ("date", 'd'), ("reference", 'r'), ("no-dereference", 'h'),
        ("time", 'τ')] }
    fun o => do
      let now := (← files).now
      let reference ← match o.value? 'r' with
        | none => pure none
        | some name =>
          match (← files).findItem (path name) with
          | .ok (_, x) => pure (some x.changed)
          | .error e =>
            fail "touch" 1 ("failed to get attributes of " ++ inQuotes name ++ ": " ++ causeText e)
      let start : Int := reference.getD now
      let wanted ← match o.value? 'd', o.value? 't' with
        | some text, _ =>
          match readDate? start text with
          | some n => pure n
          | none => fail "touch" 1 ("invalid date format " ++ cited text)
        | none, some text =>
          match readStamp? now text with
          | some n => pure n
          | none => fail "touch" 1 ("invalid date format " ++ cited text)
        | none, none => pure start
      if o.operands.isEmpty then misuse "touch" 1 "missing file operand"
      let onlyRead := o.has 'a' && !o.has 'm' || o.value? 'τ' == some "access"
      let settle (name : String) : Run Unit := do
        if !onlyRead then
          onFiles fun t =>
            ((), match t.resolve (!o.has 'h') (path name) with
              | .ok p => t.changeAt p fun y => { y with changed := wanted.toNat }
              | .error _ => t)
      for name in o.operands do
        if name == "-" || deviceNames.contains name then continue
        match ← find name with
        | .ok _ => settle name
        | .error e =>
          if o.has 'h' && ((← files).findLink (path name)).isOk then settle name
          else if o.has 'c' then
            if e != .notFound then
              lament "touch" ("setting times of " ++ inQuotes name ++ ": " ++ causeText e)
          else if endsInSlash name && e == .notFound then
            lament "touch" ("setting times of " ++ inQuotes name ++ ": " ++ causeText e)
          else
            match ← tryFiles fun t => t.write (path name) ByteArray.empty with
            | .ok _ => settle name
            | .error e => lament "touch" ("cannot touch " ++ inQuotes name ++ ": " ++ causeText e)

/-- Rights as digits and as letters. -/
def rightsTold (rights : Nat) : String :=
  octalText 4 rights ++ " (" ++ rightLetters rights ++ ")"

/-- What the arguments of `chmod` ask for. -/
structure ModeRequest where
  flags : List Char := []
  /-- Clauses that stand where options could. -/
  clauses : List String := []
  reference : Option String := none
  operands : List String := []

/-- The arguments of `chmod`, where a clause that takes rights away looks like an option. -/
def readModeRequest : List String → Except OptionFault ModeRequest
  | [] => .ok {}
  | "--" :: rest => .ok { operands := rest }
  | a :: rest => do
    let r ← readModeRequest rest
    let flag (c : Char) : Except OptionFault ModeRequest := .ok { r with flags := c :: r.flags }
    match a with
    | "--recursive" => flag 'R'
    | "--verbose" => flag 'v'
    | "--changes" => flag 'c'
    | "--silent" | "--quiet" => flag 'f'
    | "--preserve-root" | "--no-preserve-root" => .ok r
    | _ =>
      if a.startsWith "--reference=" then
        .ok { r with reference := some (String.ofList (a.toList.drop 12)) }
      else if a.startsWith "--" then .error (.unknownName a)
      else
        match a.toList with
        | '-' :: c :: cs =>
          let body := c :: cs
          if body.all ['R', 'c', 'f', 'v'].contains then .ok { r with flags := body ++ r.flags }
          else if body.all "rwxXstugoa,+-=01234567".toList.contains then
            .ok { r with clauses := a :: r.clauses }
          else .error (.unknown c)
        | _ => .ok { r with operands := a :: r.operands }

/-- `chmod`. -/
def changeMode : Utility := fun args => do
  setStatus 0
  match readModeRequest args with
  | .error e => misuse "chmod" 1 e.message
  | .ok r =>
    let isGiven := !r.clauses.isEmpty || r.reference.isSome
    let names := if isGiven then r.operands else r.operands.drop 1
    let text := if r.clauses.isEmpty then r.operands.headD ""
      else String.intercalate "," r.clauses
    if names.isEmpty then
      if isGiven || r.operands.isEmpty then misuse "chmod" 1 "missing operand"
      misuse "chmod" 1 ("missing operand after " ++ cited text)
    let steps ← match r.reference with
      | some name =>
        match (← files).findItem (path name) with
        | .ok (_, x) =>
          pure [{ way := '=', affected := RightStep.allBits, value := x.rights,
                  mentioned := RightStep.allBits }]
        | .error e =>
          fail "chmod" 1 ("failed to get attributes of " ++ inQuotes name ++ ": " ++ causeText e)
      | none =>
        match RightStep.read? text with
        | some steps => pure steps
        | none => misuse "chmod" 1 ("invalid mode: " ++ cited text)
    let quiet := r.flags.contains 'f'
    for name in names do
      let t ← files
      match t.findItem (path name) with
      | .error e =>
        if quiet then setStatus 1
        else if e == .notFound && (t.findLink (path name)).isOk then
          lament "chmod" ("cannot operate on dangling symlink " ++ inQuotes name)
        else lament "chmod" ("cannot access " ++ inQuotes name ++ ": " ++ causeText e)
      | .ok (p, _) =>
        let found := if r.flags.contains 'R' then treeFrom t p
          else ((t.item? p).toList.map fun x => ([], x))
        for (names, x) in found do
          if let .link _ := x.entry then
            if r.flags.contains 'v' then
              emit "chmod" ("neither symbolic link " ++ inQuotes (namedBelow name names) ++
                " nor referent has been changed\n")
            continue
          let isDirectory := x.entry.isDirectory
          let rights := RightStep.applyAll steps isDirectory t.mask x.rights
          onFiles fun t => ((), t.changeAt (p ++ names) fun y => { y with rights })
          let shown := inQuotes (namedBelow name names)
          if rights != x.rights then
            if r.flags.any ['v', 'c'].contains then
              emit "chmod" ("mode of " ++ shown ++ " changed from " ++ rightsTold x.rights ++
                " to " ++ rightsTold rights ++ "\n")
          else if r.flags.contains 'v' then
            emit "chmod" ("mode of " ++ shown ++ " retained as " ++ rightsTold rights ++ "\n")
          let expected := RightStep.applyAll steps isDirectory 0 x.rights
          if !r.clauses.isEmpty && clearBits rights expected != 0 then
            lament "chmod" (shownName (namedBelow name names) ++ ": new permissions are " ++
              rightLetters rights ++ ", not " ++ rightLetters expected)

/-- A size in bytes, perhaps in larger units. -/
def byteCount? (s : String) : Option Nat :=
  let ds := s.toList.takeWhile Char.isDigit
  let unit : Option Nat := match String.ofList (s.toList.drop ds.length) with
    | "" => some 1
    | "b" => some 512
    | "K" | "k" | "KiB" => some 1024
    | "M" | "MiB" => some 1048576
    | "kB" | "KB" => some 1000
    | "MB" => some 1000000
    | _ => none
  match integer? (String.ofList ds), unit with
  | some n, some u => some (n.toNat * u)
  | _, _ => none

/-- The size that a text such as `+4` or `%8` makes of an old one. -/
def changedSize? (old : Nat) (s : String) : Option Nat :=
  let body (cs : List Char) : Option Nat := byteCount? (String.ofList cs)
  match s.toList with
  | '+' :: cs => (body cs).map (old + ·)
  | '-' :: cs => (body cs).map (old - ·)
  | '<' :: cs => (body cs).map (min old)
  | '>' :: cs => (body cs).map (max old)
  | '/' :: cs => (body cs).bind fun n => if n = 0 then none else some (old / n * n)
  | '%' :: cs => (body cs).bind fun n => if n = 0 then none else some ((old + n - 1) / n * n)
  | cs => body cs

/-- `truncate`. -/
def resizeFiles : Utility :=
  withOptions "truncate"
    { plain := "co", valued := "sr"
      long := [("size", 's'), ("no-create", 'c'), ("reference", 'r')] }
    fun o => do
      let base ← match o.value? 'r' with
        | none => pure none
        | some name =>
          match ← readInput name with
          | .ok s => pure (some s.length)
          | .error cause => fail "truncate" 1 ("cannot stat " ++ inQuotes name ++ ": " ++ cause)
      match o.value? 's', base with
      | none, none => misuse "truncate" 1 ("you must specify either " ++ cited "--size" ++ " or " ++
          cited "--reference")
      | size, base =>
        if o.operands.isEmpty then misuse "truncate" 1 "missing file operand"
        if let some s := size then
          if (changedSize? 0 s).isNone then fail "truncate" 1 ("Invalid number: " ++ cited s)
        for name in o.operands do
          let old := ((← files).read (path name)).toOption
          if !(o.has 'c' && old.isNone) then
            let old := old.getD ByteArray.empty
            let start := base.getD old.size
            let size := (size.bind (changedSize? start)).getD start
            let new := old.extract 0 size ++
              ByteArray.mk (Array.replicate (size - old.size) 0)
            match ← tryFiles fun t => t.write (path name) new with
            | .ok _ => pure ()
            | .error e =>
              lament "truncate" ("cannot open " ++ inQuotes name ++ " for writing: " ++ causeText e)

/-- `mktemp`. -/
def makeTemporary : Utility :=
  withOptions "mktemp"
    { plain := "dqut", valued := "pσ", attached := "τ"
      long := [("directory", 'd'), ("tmpdir", 'τ'), ("quiet", 'q'), ("dry-run", 'u'),
        ("suffix", 'σ')] }
    fun o => do
      let given := o.operands.head?
      if 1 < o.operands.length then
        misuse "mktemp" 1 "too many templates"
      let template := given.getD "tmp.XXXXXXXXXX"
      let usual := (((← get).value? "TMPDIR").filter (!·.isEmpty)).getD "/tmp"
      let directory := match (o.value? 'p').or ((o.value? 'τ')), given with
        | some d, _ => withoutSlashes (if d.isEmpty then usual else d) ++ "/"
        | none, none => usual ++ "/"
        | none, some _ => if o.has 't' then usual ++ "/" else ""
      let cs := template.toList.reverse
      let (suffix, body) := match o.value? 'σ' with
        | some s => (s.toList, cs)
        | none =>
          if cs.contains 'X' then ((cs.takeWhile (· != 'X')).reverse, cs.dropWhile (· != 'X'))
          else ([], cs)
      let holes := (body.takeWhile (· == 'X')).length
      if holes < 3 then
        fail "mktemp" 1 ("too few X\x27s in template " ++ cited template)
      let front := String.ofList (body.drop holes).reverse
      let t ← files
      let letters := "abcdefghijklmnopqrstuvwxyzABCDEFGHIJKLMNOPQRSTUVWXYZ0123456789".toList
      let seed := t.now / 1000 + 7919 * t.nextNumber
      let letter (k : Nat) : Char := (letters[(seed * (2 * k + 1) / 61 ^^^ seed / 62 ^^^ k) % 62]?).getD 'x'
      let name := directory ++ front ++
        String.ofList ((List.range holes).map letter ++ suffix)
      let made ←
        if o.has 'u' then pure (.ok ())
        else tryFiles fun t => if o.has 'd' then t.makeDir (path name)
          else t.write (path name) ByteArray.empty
      match made with
      | .ok _ =>
        changeItem name fun _ y => { y with rights := if o.has 'd' then 448 else 384 }
        emit "mktemp" (name ++ "\n")
      | .error e =>
        if o.has 'q' then setStatus 1
        else
          lament "mktemp" ("failed to create " ++ (if o.has 'd' then "directory" else "file") ++
            " via template " ++ cited (directory ++ template) ++ ": " ++ causeText e)

/-- `date`. -/
def tellDate : Utility :=
  withOptions "date"
    { plain := "uRδ", valued := "drsφρf", attached := "I"
      long := [("date", 'd'), ("reference", 'r'), ("utc", 'u'), ("universal", 'u'),
        ("rfc-email", 'R'), ("rfc-2822", 'R'), ("iso-8601", 'I'), ("rfc-3339", 'ρ'),
        ("set", 's'), ("file", 'f'), ("debug", 'δ')] }
    fun o => do
      let now := (← files).now
      let isoFormat (what : String) (between : String) : Option String :=
        match what with
        | "" | "date" => some "%Y-%m-%d"
        | "hours" => some ("%Y-%m-%d" ++ between ++ "%H%:z")
        | "minutes" => some ("%Y-%m-%d" ++ between ++ "%H:%M%:z")
        | "seconds" => some ("%Y-%m-%d" ++ between ++ "%H:%M:%S%:z")
        | "ns" => some ("%Y-%m-%d" ++ between ++ (if between == " " then "%H:%M:%S.%N%:z"
            else "%H:%M:%S,%N%:z"))
        | _ => none
      let format ← match o.value? 'I', o.value? 'ρ' with
        | some what, _ =>
          match isoFormat what "T" with
          | some f => pure f
          | none => misuse "date" 1 ("invalid argument " ++ cited what ++ " for " ++
              cited "--iso-8601")
        | none, some what =>
          match isoFormat what " " with
          | some f => pure f
          | none => misuse "date" 1 ("invalid argument " ++ cited what ++ " for " ++
              cited "--rfc-3339")
        | none, none =>
          if o.has 'R' then pure "%a, %d %b %Y %H:%M:%S %z"
          else
            match o.operands.head? with
            | none => pure "%a %b %e %H:%M:%S %Z %Y"
            | some s =>
              if s.startsWith "+" then
                if let some extra := o.operands[1]? then
                  misuse "date" 1 ("extra operand " ++ cited extra)
                pure (String.ofList (s.toList.drop 1))
              else fail "date" 1 ("invalid date " ++ cited s)
      let moment ← match o.value? 'd', o.value? 'r' with
        | some text, _ =>
          match readDate? now text with
          | some n => pure n
          | none => fail "date" 1 ("invalid date " ++ cited text)
        | none, some name =>
          match (← files).findItem (path name) with
          | .ok (_, x) => pure (x.changed : Int)
          | .error e => fail "date" 1 (shownName name ++ ": " ++ causeText e)
        | none, none => pure (now : Int)
      emit "date" ((Moment.ofNanos moment).format format ++ "\n")

end PatchSearch.Shell
