import PatchSearch.Shell.Rebuild.Update
import PatchSearch.Shell.Utility.Basic

/-!
`make`: brings files up to date by the rules of a text.
-/
namespace PatchSearch.Shell

open Run Rebuild

/-- What `make` understands. -/
def rebuildOptions : OptionNames :=
  { plain := "bmBdehiknLpqrRsStvwνωτ", valued := "CfIoWE", attached := "jlOδ"
    long := [("always-make", 'B'), ("directory", 'C'), ("debug", 'δ'),
      ("environment-overrides", 'e'), ("eval", 'E'), ("file", 'f'), ("makefile", 'f'),
      ("help", 'h'), ("ignore-errors", 'i'), ("include-dir", 'I'), ("jobs", 'j'),
      ("keep-going", 'k'), ("load-average", 'l'), ("max-load", 'l'),
      ("check-symlink-times", 'L'), ("just-print", 'n'), ("dry-run", 'n'), ("recon", 'n'),
      ("old-file", 'o'), ("assume-old", 'o'), ("output-sync", 'O'), ("print-data-base", 'p'),
      ("question", 'q'), ("no-builtin-rules", 'r'), ("no-builtin-variables", 'R'),
      ("silent", 's'), ("quiet", 's'), ("no-silent", 'τ'), ("no-keep-going", 'S'), ("stop", 'S'),
      ("touch", 't'), ("trace", 'τ'), ("version", 'v'), ("print-directory", 'w'),
      ("no-print-directory", 'ν'), ("what-if", 'W'), ("new-file", 'W'), ("assume-new", 'W'),
      ("warn-undefined-variables", 'ω')] }

/-- The endings of names that rules are made for. -/
def plainEndings : List String :=
  [".out", ".a", ".ln", ".o", ".c", ".cc", ".C", ".cpp", ".p", ".f", ".F", ".m", ".r", ".y", ".l",
    ".ym", ".yl", ".s", ".S", ".mod", ".sym", ".def", ".h", ".info", ".dvi", ".tex", ".texinfo",
    ".texi", ".txinfo", ".w", ".ch", ".web", ".sh", ".elc", ".el"]

/-- Rules for patterns that hold without being written anywhere. -/
def plainPatterns : List PatternRule :=
  let rule (target need : String) (lines : List String) : PatternRule :=
    ⟨[target], [⟨need, false⟩], some ⟨none, 0, lines⟩, false⟩
  [rule "%" "%.o" ["$(LINK.o) $^ $(LOADLIBES) $(LDLIBS) -o $@"],
    rule "%" "%.c" ["$(LINK.c) $^ $(LOADLIBES) $(LDLIBS) -o $@"],
    rule "%.o" "%.c" ["$(COMPILE.c) $(OUTPUT_OPTION) $<"],
    rule "%" "%.cc" ["$(LINK.cc) $^ $(LOADLIBES) $(LDLIBS) -o $@"],
    rule "%.o" "%.cc" ["$(COMPILE.cc) $(OUTPUT_OPTION) $<"],
    rule "%" "%.cpp" ["$(LINK.cpp) $^ $(LOADLIBES) $(LDLIBS) -o $@"],
    rule "%.o" "%.cpp" ["$(COMPILE.cpp) $(OUTPUT_OPTION) $<"],
    rule "%" "%.s" ["$(LINK.s) $^ $(LOADLIBES) $(LDLIBS) -o $@"],
    rule "%.o" "%.s" ["$(COMPILE.s) -o $@ $<"],
    rule "%" "%.sh" ["cat $< >$@ ", "chmod a+x $@"]]

/-- Settings that hold without being written anywhere. -/
def plainSettings : List (String × String) :=
  [("AR", "ar"), ("ARFLAGS", "rv"), ("AS", "as"), ("CC", "cc"), ("CXX", "g++"), ("CPP", "$(CC) -E"),
    ("LD", "ld"), ("RM", "rm -f"), ("MAKE", "$(MAKE_COMMAND)"), ("MAKE_VERSION", "4.3"),
    ("MAKE_HOST", "x86_64-pc-linux-gnu"), ("SHELL", "/bin/sh"), (".SHELLFLAGS", "-c"),
    ("OUTPUT_OPTION", "-o $@"), ("COMPILE.c", "$(CC) $(CFLAGS) $(CPPFLAGS) $(TARGET_ARCH) -c"),
    ("COMPILE.cc", "$(CXX) $(CXXFLAGS) $(CPPFLAGS) $(TARGET_ARCH) -c"),
    ("COMPILE.cpp", "$(COMPILE.cc)"), ("COMPILE.s", "$(AS) $(ASFLAGS) $(TARGET_MACH)"),
    ("LINK.o", "$(CC) $(LDFLAGS) $(TARGET_ARCH)"),
    ("LINK.c", "$(CC) $(CFLAGS) $(CPPFLAGS) $(LDFLAGS) $(TARGET_ARCH)"),
    ("LINK.cc", "$(CXX) $(CXXFLAGS) $(CPPFLAGS) $(LDFLAGS) $(TARGET_ARCH)"),
    ("LINK.cpp", "$(LINK.cc)"),
    ("LINK.s", "$(CC) $(ASFLAGS) $(LDFLAGS) $(TARGET_MACH)"),
    (".LIBPATTERNS", "lib%.so lib%.a"), ("SUFFIXES", joinWords plainEndings)]

/-- Arguments with a number behind a letter that may go without one. -/
def joinedNumbers : List String → List String
  | "-j" :: n :: rest =>
    if !n.isEmpty && n.toList.all Char.isDigit then ("-j" ++ n) :: joinedNumbers rest
    else "-j" :: joinedNumbers (n :: rest)
  | arg :: rest => arg :: joinedNumbers rest
  | [] => []

/-- What is asked of a build: its mode, the texts of rules, the directories to go to, values and
goals. -/
structure BuildRequest where
  mode : BuildMode := {}
  texts : List String := []
  directories : List String := []
  evaluated : List String := []
  assigned : List String := []
  goals : List String := []

/-- The options that a build hands on to builds within it. -/
def handedOn (mode : BuildMode) (assigned : List String) : String :=
  let letters := String.ofList <|
    [(mode.always, 'B'), (mode.environmentWins, 'e'), (mode.ignoresErrors, 'i'),
      (mode.keepsGoing, 'k'), (mode.onlyPrints, 'n'), (mode.onlyAsks, 'q'),
      (mode.withoutBuiltIn, 'r'), (mode.silent, 's'), (mode.touches, 't'),
      (mode.printsDirectory, 'w')].filterMap fun (on, c) => if on then some c else none
  let words := if mode.hidesDirectory then letters ++ " --no-print-directory" else letters
  if assigned.isEmpty then words else words ++ " -- " ++ joinWords assigned

/-- The request that options make. -/
def requestOf (o : Options) (level : Nat) : BuildRequest :=
  let isAssignment (s : String) : Bool := (assignment? s).isSome
  let keeps := o.last? ['k', 'S'] == some 'k'
  let directories := o.values 'C'
  let silent := o.has 's'
  { mode := {
      silent
      onlyPrints := o.has 'n', onlyAsks := o.has 'q', touches := o.has 't', keepsGoing := keeps
      ignoresErrors := o.has 'i', always := o.has 'B', level
      hidesDirectory := o.has 'ν'
      printsDirectory := !o.has 'ν' &&
        (o.has 'w' || !silent && (!directories.isEmpty || level != 0))
      environmentWins := o.has 'e', withoutBuiltIn := o.has 'r' || o.has 'R'
      included := o.values 'I'
      oldFiles := o.values 'o'
      newFiles := o.values 'W'
      warnsUndefined := o.has 'ω' }
    texts := o.values 'f'
    directories
    evaluated := o.values 'E'
    assigned := o.operands.filter isAssignment
    goals := o.operands.filter fun s => !isAssignment s && !s.isEmpty }

/-- The book that a build starts from. -/
def firstBook (request : BuildRequest) (name : String) (environment : List (String × String)) :
    Book :=
  let mode := request.mode
  let builtIn := if mode.withoutBuiltIn then
      plainSettings.filter fun p => ["MAKE", "SHELL", ".SHELLFLAGS", "MAKE_VERSION"].contains p.1
    else plainSettings
  let start := (("MAKE_COMMAND", name) :: builtIn).foldl
    (fun (all : Std.HashMap String Setting) (k, value) =>
      all.insert k { value, origin := .builtIn }) ∅
  let withEnvironment := environment.foldl (fun all (k, value) =>
    if k == "SHELL" || k == "MAKEFLAGS" || k == "MAKELEVEL" then all
    else all.insert k { value, origin := .environment, exported := some true }) start
  let put (all : Std.HashMap String Setting) (k value : String) (isDeferred : Bool) :
      Std.HashMap String Setting := all.insert k { value, isDeferred, origin := .file }
  let all := put withEnvironment "MAKEFLAGS" (handedOn mode request.assigned) false
  let flags := ((handedOn mode []).splitOn " ").headD ""
  let all := put all "MFLAGS" (if flags.isEmpty then "" else "-" ++ flags) false
  let all := put all "MAKELEVEL" (toString mode.level) false
  let all := if request.goals.isEmpty then all
    else put all "MAKECMDGOALS" (joinWords request.goals) false
  { mode, settings := all
    endings := if mode.withoutBuiltIn then [] else plainEndings
    patterns := if mode.withoutBuiltIn then [] else plainPatterns }

/-- Reads all texts of rules. -/
def readAllTexts (s : Surroundings) (read : String → String → Build Unit) (request : BuildRequest) :
    Build Unit := do
  let here ← Build.place
  modifyThe Book fun b => { b with
    settings := b.settings.insert "CURDIR" { value := here, isDeferred := false } }
  for text in request.assigned do
    if let some a := assignment? text then assign s a .commandLine
  for text in request.evaluated do
    s.evaluate text
  let tree ← Build.run files
  let texts := if request.texts.isEmpty then
      (["GNUmakefile", "makefile", "Makefile"].find? fun f => tree.isFile f).toList
    else request.texts
  for name in texts do
    match ← Build.run (readInput name) with
    | .ok text => read name text
    | .error cause =>
      Build.tellText (name ++ ": " ++ cause)
      modifyThe Book fun b => { b with unread := b.unread ++ [(name, some ("", 0))] }
  modifyThe Book fun b => { b with place := none }

/-- Sees to texts that were not there when they were asked for: whether any of them came to be. -/
def supplyTexts (s : Surroundings) : Build Bool := do
  let mut any := false
  for (name, place) in (← Build.book).unread do
    supplyRule name
    let t ← Build.target name
    if t.rule.recipe.isSome then
      if (← update s depthLimit 1 name) == .failed then throw 2
      if ← Build.isThere name then any := true
    else
      match place with
      | some (file, line) =>
        if line != 0 then
          Build.run (tell (file ++ ":" ++ toString line ++ ": " ++ name ++
            ": No such file or directory\n"))
        Build.stop ("No rule to make target \x27" ++ name ++ "\x27")
      | none => pure ()
  return any

/-- A whole build. The number bounds how often the texts are read anew. -/
def buildAll (become : List String → Run FileError) (request : BuildRequest) (first : Book) :
    Nat → Build Outcome
  | 0 => return .failed
  | n + 1 => do
    let read (file text : String) : Build Unit := do
      Build.noteText file
      readText become depthLimit file 1 text
    let s : Surroundings := { become, evaluate := readText become depthLimit "" 1 }
    readAllTexts s read request
    if ← supplyTexts s then
      set first
      buildAll become request first n
    else
      let b ← Build.book
      let hasText := (b.settings["MAKEFILE_LIST"]?).isSome
      if request.goals.isEmpty && b.goal.isNone then
        Build.stop (if hasText then "No targets" else "No targets specified and no makefile found")
      updateGoals s .done (if request.goals.isEmpty then b.goal.toList else request.goals)

/-- `make`. -/
def rebuildFiles : Launching := fun become args => do
  let m ← get
  let level := ((m.value? "MAKELEVEL").bind integer?).getD 0
  let handed := wordsOf ((m.value? "MAKEFLAGS").getD "")
  let handed := match handed with
    | first :: rest =>
      if first.startsWith "-" || (first.toList.contains '=') then handed else ("-" ++ first) :: rest
    | [] => []
  match Options.read rebuildOptions true (joinedNumbers (handed.filter (· != "--") ++ args)) with
  | .error e =>
    warn "make" e.message
    tell "Usage: make [options] [target] ...\n"
    setStatus 2
  | .ok o =>
    setStatus 0
    if o.has 'v' then emit "make" "GNU Make 4.3\nBuilt for x86_64-pc-linux-gnu\n"
    else
      let request := requestOf o level.toNat
      let book := firstBook request (← get).name (← get).environment
      let own := if level = 0 then "make" else "make[" ++ toString level ++ "]"
      for d in request.directories do
        match ← find d with
        | .ok (p, .directory) => modify fun m => { m with here := p }
        | .ok _ =>
          tell (own ++ ": *** " ++ d ++ ": Not a directory.  Stop.\n")
          setStatus 2
          halt
        | .error e =>
          tell (own ++ ": *** " ++ d ++ ": " ++ causeText e ++ ".  Stop.\n")
          setStatus 2
          halt
      let told (verb : String) : Run Unit := do
        if request.mode.printsDirectory then
          emit "make" (own ++ ": " ++ verb ++ " directory \x27" ++
            octets (FileTree.positionText (← get).here) ++ "\x27\n")
      told "Entering"
      let (result, book) ← StateT.run (ExceptT.run (buildAll become request book 5)) book
      discard <| StateT.run (ExceptT.run removePassing) book
      told "Leaving"
      setStatus (match result with
        | .ok .done => 0
        | .ok .wanted => 1
        | .ok .failed => 2
        | .error n => n)

end PatchSearch.Shell
