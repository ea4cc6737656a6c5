import PatchSearch.Shell.Utility.Basic

/-!
Arguments put in order: `getopt` reads options by a grammar and writes them one by one, each with its
value, in front of the operands, quoted so that a shell can read them again.
-/
namespace PatchSearch.Shell

open Run

/-- Whether an option takes a value. -/
inductive ValueNeed where
  | never
  | always
  /-- Only if it stands right behind the option. -/
  | maybe
  deriving DecidableEq

/-- The options that arguments may hold. -/
structure OptionGrammar where
  short : List (Char × ValueNeed) := []
  long : List (String × ValueNeed) := []
  /-- Whether the first operand ends the options. -/
  stopsEarly : Bool := false
  /-- Whether operands keep their places among the options. -/
  keepsOrder : Bool := false
  /-- Whether long options may stand behind a single dash. -/
  dashesOnce : Bool := false

/-- What was read from arguments: what is written for the options, faults in words, and operands. -/
structure ArrangedArguments where
  options : List (String × Option String) := []
  faults : List String := []
  operands : List String := []

namespace OptionGrammar

/-- The need behind a letter or a name: two colons, one, or none, and what follows them. -/
def needOf : List Char → ValueNeed × List Char
  | ':' :: ':' :: rest => (.maybe, rest)
  | ':' :: rest => (.always, rest)
  | rest => (.never, rest)

/-- The letters of a grammar. The number bounds them. -/
def lettersOf : Nat → List Char → List (Char × ValueNeed)
  | 0, _ => []
  | _, [] => []
  | n + 1, c :: cs =>
    let (need, rest) := needOf cs
    if c == ':' then lettersOf n cs else (c, need) :: lettersOf n rest

/-- A long name with its need. -/
def longOf (s : String) : String × ValueNeed :=
  let name := s.toList.takeWhile (· != ':')
  (String.ofList name, (needOf (s.toList.drop name.length)).1)

/-- The long options that a name stands for, which may be cut short. -/
def longFor (g : OptionGrammar) (name : String) : List (String × ValueNeed) :=
  match g.long.find? (·.1 == name) with
  | some found => [found]
  | none => g.long.filter fun x => name.toList.isPrefixOf x.1.toList

/-- Reads the letters of an argument; the value of the last one may be the next argument, which is
taken then. -/
def readLetters (g : OptionGrammar) (next : Option String) :
    List Char → ArrangedArguments × Bool
  | [] => ({}, false)
  | c :: cs =>
    let behind (option : String × Option String) : ArrangedArguments × Bool :=
      let (more, taken) := readLetters g next cs
      ({ more with options := option :: more.options }, taken)
    let name := "-" ++ String.singleton c
    match g.short.lookup c with
    | none =>
      let (more, taken) := readLetters g next cs
      ({ more with faults := ("invalid option -- \x27" ++ String.singleton c ++ "\x27") :: more.faults },
        taken)
    | some .never => behind (name, none)
    | some .maybe => ({ options := [(name, some (String.ofList cs))] }, false)
    | some .always =>
      if !cs.isEmpty then ({ options := [(name, some (String.ofList cs))] }, false)
      else
        match next with
        | some value => ({ options := [(name, some value)] }, true)
        | none =>
          ({ faults := ["option requires an argument -- \x27" ++ String.singleton c ++ "\x27"] }, false)

/-- Reads a long option behind its dashes; nothing if it may be letters instead. -/
def readLong (g : OptionGrammar) (dashes : String) (cs : List Char) (next : Option String) :
    Option (ArrangedArguments × Bool) :=
  let name := String.ofList (cs.takeWhile (· != '='))
  let given := if cs.contains '=' then some (String.ofList (cs.drop (name.length + 1))) else none
  let shown := "option \x27" ++ dashes ++ name ++ "\x27"
  let fault (text : String) : Option (ArrangedArguments × Bool) := some ({ faults := [text] }, false)
  let found := g.longFor name
  match found with
  | [] =>
    let isLetter := dashes == "-" && cs.head?.any fun c => (g.short.lookup c).isSome
    if isLetter then none
    else fault ("unrecognized option \x27" ++ dashes ++ String.ofList cs ++ "\x27")
  | (full, need) :: others =>
    if !others.isEmpty then
      fault (shown ++ " is ambiguous; possibilities:" ++
        String.join (found.map fun x => " \x27" ++ dashes ++ x.1 ++ "\x27"))
    else
      let option (value : Option String) (taken : Bool) : Option (ArrangedArguments × Bool) :=
        some ({ options := [("--" ++ full, value)] }, taken)
      match need, given, next with
      | .never, some _, _ =>
        fault ("option \x27" ++ dashes ++ full ++ "\x27 doesn\x27t allow an argument")
      | .never, none, _ => option none false
      | .maybe, given, _ => option (some (given.getD "")) false
      | .always, some value, _ => option (some value) false
      | .always, none, some value => option (some value) true
      | .always, none, none => fault ("option \x27" ++ dashes ++ full ++ "\x27 requires an argument")

/-- Reads arguments. The number bounds them. -/
def arrange (g : OptionGrammar) : Nat → List String → ArrangedArguments
  | 0, _ => {}
  | _, [] => {}
  | n + 1, arg :: rest =>
    let joined (first : ArrangedArguments) (rest : List String) : ArrangedArguments :=
      let more := arrange g n rest
      { options := first.options ++ more.options, faults := first.faults ++ more.faults
        operands := more.operands }
    let behind (read : ArrangedArguments × Bool) : ArrangedArguments :=
      joined read.1 (if read.2 then rest.drop 1 else rest)
    match arg.toList with
    | ['-', '-'] => { operands := rest }
    | '-' :: '-' :: cs => behind ((g.readLong "--" cs rest.head?).getD ({}, false))
    | '-' :: c :: cs =>
      let isLong := g.dashesOnce && (!cs.isEmpty || (g.short.lookup c).isNone)
      match if isLong then g.readLong "-" (c :: cs) rest.head? else none with
      | some read => behind read
      | none => behind (g.readLetters rest.head? (c :: cs))
    | _ =>
      if g.stopsEarly then { operands := arg :: rest }
      else if g.keepsOrder then joined { options := [("", some arg)] } rest
      else
        let more := arrange g n rest
        { more with operands := arg :: more.operands }

theorem arrange_nil (g : OptionGrammar) (n : Nat) : g.arrange n [] = {} := by
  cases n <;> rfl

end OptionGrammar

/-- How arranged arguments are quoted. -/
inductive ArgumentQuotes where
  | unquoted
  | plain
  /-- For shells in which more signs have a meaning. -/
  | careful

/-- A value as it is written. -/
def ArgumentQuotes.quote (q : ArgumentQuotes) (s : String) : String :=
  match q with
  | unquoted => s
  | plain => "\x27" ++ String.intercalate "\x27\\\x27\x27" (s.splitOn "\x27") ++ "\x27"
  | careful =>
    "\x27" ++ String.join (s.toList.map fun c =>
      match c with
      | '\x27' => "\x27\\\x27\x27"
      | '\\' => "\\\\"
      | '!' => "\x27\\!\x27"
      | '\n' => "\\n"
      | c => if isSpace c then "\x27\\" ++ String.singleton c ++ "\x27" else String.singleton c) ++ "\x27"

/-- Writes arguments that were read by a grammar, and tells their faults. -/
def writeArranged (g : OptionGrammar) (name : String) (quotes : ArgumentQuotes)
    (hidesFaults hidesOutput : Bool) (args : List String) : Run Unit := do
  let read := g.arrange (args.length + 1) args
  setStatus (if read.faults.isEmpty then 0 else 1)
  if !hidesFaults then
    for fault in read.faults do
      tell (name ++ ": " ++ fault ++ "\n")
  if !hidesOutput then
    let options := read.options.map fun (option, value) =>
      (if option.isEmpty then "" else " " ++ option) ++
        match value with
        | some s => " " ++ quotes.quote s
        | none => ""
    emit "getopt" (String.join options ++ " --" ++
      String.join (read.operands.map fun s => " " ++ quotes.quote s) ++ "\n")

/-- `getopt`. -/
def arrangeArguments : Utility := fun args => do
  let misused {β : Type} (text : String) : Run β := do
    if !text.isEmpty then warn "getopt" text
    tell "Try \x27getopt --help\x27 for more information.\n"
    setStatus 2
    halt
  let isSet (name : String) : Run Bool := do
    return (← get).environment.any (·.1 == name)
  let isOld ← isSet "GETOPT_COMPATIBLE"
  let isStrict ← isSet "POSIXLY_CORRECT"
  let grammarOf (letters : String) (long : List String) (dashesOnce : Bool) : OptionGrammar :=
    let cs := letters.toList
    let signs := cs.takeWhile fun c => c == '+' || c == '-'
    { short := OptionGrammar.lettersOf (cs.length + 1) (cs.drop signs.length)
      long := long.map OptionGrammar.longOf
      stopsEarly := signs.head? == some '+' || isStrict, keepsOrder := signs.head? == some '-', dashesOnce }
  match args with
  | [] => if isOld then emit "getopt" " --\n" else misused "missing optstring argument"
  | first :: rest =>
    if isOld || !first.startsWith "-" then
      let letters := String.ofList (first.toList.dropWhile fun c => c == '+' || c == '-')
      writeArranged (grammarOf letters [] false) "getopt" .unquoted false false rest
    else
      let names : OptionNames :=
        { plain := "aqQTuhV", valued := "olns"
          long := [("options", 'o'), ("longoptions", 'l'), ("quiet", 'q'), ("quiet-output", 'Q'),
            ("shell", 's'), ("test", 'T'), ("unquoted", 'u'), ("help", 'h'), ("alternative", 'a'),
            ("name", 'n'), ("version", 'V')] }
      match Options.read names false args with
      | .error e => do
        warn "getopt" e.message
        misused ""
      | .ok o =>
        if o.has 'T' then exitWith 4
        if o.has 'V' then
          emit "getopt" "getopt from util-linux 2.38.1\n"
          exitWith 0
        let quotes ← match o.value? 's' with
          | some "sh" | some "bash" | none => pure ArgumentQuotes.plain
          | some "csh" | some "tcsh" => pure .careful
          | some _ => misused "unknown shell after -s or --shell argument"
        let quotes := if o.has 'u' then .unquoted else quotes
        let (letters, rest) ← match o.value? 'o', o.operands with
          | some letters, rest => pure (letters, rest)
          | none, letters :: rest => pure (letters, rest)
          | none, [] => misused "missing optstring argument"
        let long := (o.values 'l').flatMap fun s =>
          ((s.toList.splitBy fun a b => (a == ',' || isSpace a) == (b == ',' || isSpace b)).filter
            fun cs => !cs.any fun c => c == ',' || isSpace c).map String.ofList
        writeArranged (grammarOf letters long (o.has 'a')) ((o.value? 'n').getD "getopt") quotes
          (o.has 'q' || (letters.toList.dropWhile fun c => c == '+' || c == '-').head? == some ':')
          (o.has 'Q') rest

end PatchSearch.Shell
