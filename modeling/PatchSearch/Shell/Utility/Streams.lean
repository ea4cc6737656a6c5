import PatchSearch.Shell.Utility.Basic

/-!
Utilities that pass their inputs on, as a whole or in part, piece by piece as the pieces arrive:
`cat`, `head`, `tail`, `tee` and `yes`; and `wc`, which counts what passes.
-/
namespace PatchSearch.Shell

open Run

/-- Runs a computation on the octets of each input. An input that cannot be read is told and leads
to a status. -/
def onInputs (name : String) (status : Nat) (f : String → String → Run Unit) :
    List String → Run Unit
  | [] => return
  | input :: rest => do
    match ← readInput input with
    | .ok s => f input s
    | .error cause =>
      warn name (shownName input ++ ": " ++ cause)
      setStatus status
    onInputs name status f rest

/-- Runs a computation on each piece that arrives on a channel; it gets what it left at the piece
before. -/
def foldPieces {α : Type} (c : Channel) (f : α → String → Run α) :
    Nat → α → Run (Except ChannelFault α)
  | 0, _ => forever
  | n + 1, a => do
    match ← fetch c (fun _ => false) 65536 with
    | .error e => return .error e
    | .ok [] => return .ok a
    | .ok cs =>
      let a ← f a (String.ofList cs)
      pause 1000
      foldPieces c f n a

/-- Runs a computation on each piece that arrives on a channel. -/
def onPieces (c : Channel) (f : String → Run Unit) (most : Nat) :
    Run (Except ChannelFault Unit) :=
  foldPieces c (fun _ s => f s) most ()

/-- Opens each input and runs a computation on it. -/
def onChannels (name : String) (f : String → Channel → Run (Except ChannelFault Unit)) :
    List String → Run Unit
  | [] => return
  | input :: rest => do
    match ← openInput input with
    | .error e => lament name (shownName input ++ ": " ++ causeText e)
    | .ok none => lament name (shownName input ++ ": Bad file descriptor")
    | .ok (some c) =>
      match ← f input c with
      | .ok () => pure ()
      | .error e => lament name (shownName input ++ ": " ++ e.message)
    onChannels name f rest

/-- A number right-aligned in a field. -/
def aligned (width n : Nat) : String :=
  let s := toString n
  String.ofList (List.replicate (width - s.length) ' ') ++ s

/-- Lines of a text with their line feeds. -/
def fullLines (s : String) : List String :=
  let parts := s.splitOn "\n"
  (parts.dropLast.map (· ++ "\n")) ++
    match parts.getLast? with
    | some "" => []
    | some l => [l]
    | none => []

/-- What ends a line: a line feed, or a null octet. -/
def lineEnding (nulls : Bool) : Char :=
  if nulls then '\x00' else '\n'

/-- The lines of a text that a character ends, without it; behind the last one no further line
starts. -/
def linesEndedBy (ending : Char) (s : String) : List String :=
  let parts := s.splitOn (String.singleton ending)
  if parts.getLast? == some "" then parts.dropLast else parts

/-- Lines, each with a character that ends it. -/
def joinEndedBy (ending : Char) (lines : List String) : String :=
  String.join (lines.map (·.push ending))

/-- A text with its unprintable characters made visible. -/
def madeVisible (tabs : Bool) (s : String) : String :=
  let low (c : Char) : String :=
    if c == '\t' && !tabs || c == '\n' then String.ofList [c]
    else if c.toNat < 32 then String.ofList ['^', Char.ofNat (c.toNat + 64)]
    else if c.toNat = 127 then "^?"
    else String.ofList [c]
  String.join (s.toList.map fun c =>
    if c.toNat < 128 then low c
    else "M-" ++
      (if c.toNat % 128 < 32 then String.ofList ['^', Char.ofNat (c.toNat % 128 + 64)]
        else if c.toNat = 255 then "^?" else String.ofList [Char.ofNat (c.toNat % 128)]))

/-- Lines as `cat` shows them under its options; the number is the one of the next line. -/
def decorated (o : Options) : Nat → Bool → List String → List String
  | _, _, [] => []
  | n, afterBlank, l :: ls =>
    let isBlank := l == "\n"
    if isBlank && afterBlank && o.has 's' then decorated o n true ls
    else
      let numbers := if o.has 'b' then !isBlank else o.has 'n'
      let visible := if o.has 'v' || o.has 'e' || o.has 't' || o.has 'A' then
          madeVisible (o.has 'T' || o.has 't' || o.has 'A') l
        else if o.has 'T' then "^I".intercalate (l.splitOn "\t") else l
      let ended := if (o.has 'E' || o.has 'e' || o.has 'A') && visible.endsWith "\n" then
          String.ofList visible.toList.dropLast ++ "$\n" else visible
      ((if numbers then aligned 6 n ++ "\t" else "") ++ ended) ::
        decorated o (if numbers then n + 1 else n) isBlank ls

/-- `cat`. -/
def concatenate : Utility :=
  withOptions "cat"
    { plain := "nbsuevtAET"
      long := [("number", 'n'), ("number-nonblank", 'b'), ("squeeze-blank", 's'), ("show-all", 'A'),
        ("show-ends", 'E'), ("show-tabs", 'T'), ("show-nonprinting", 'v')] }
    fun o => do
      let changes := o.flags.any fun f => f.1 != 'u'
      if changes then
        let mut whole := ""
        for input in operandsOrInput o do
          match ← readInput input with
          | .ok s => whole := whole ++ s
          | .error cause => lament "cat" (shownName input ++ ": " ++ cause)
        emit "cat" (String.join (decorated o 1 false (fullLines whole)))
      else
        onChannels "cat" (fun _ c => onPieces c (emit "cat") maxPieces) (operandsOrInput o)

/-- `-5` in place of `-n 5`. -/
def numberOption : List String → List String
  | arg :: rest =>
    match arg.toList with
    | '-' :: cs =>
      if !cs.isEmpty && cs.all Char.isDigit then "-n" :: String.ofList cs :: rest else arg :: rest
    | _ => arg :: rest
  | [] => []

/-- A count with its sign, perhaps with a unit behind it. -/
structure Count where
  sign : Option Char
  size : Nat

/-- A count from its text. -/
def count? (s : String) : Option Count :=
  let (sign, cs) := match s.toList with
    | '-' :: cs => (some '-', cs)
    | '+' :: cs => (some '+', cs)
    | cs => (none, cs)
  let ds := cs.takeWhile Char.isDigit
  let unit : Option Nat := match String.ofList (cs.drop ds.length) with
    | "" => some 1
    | "b" => some 512
    | "k" => some 1024
    | "K" => some 1024
    | "kB" => some 1000
    | "M" => some 1048576
    | "MB" => some 1000000
    | _ => none
  if ds.isEmpty then none
  else unit.map fun u => ⟨sign, u * ds.foldl (fun n c => 10 * n + (c.toNat - 48)) 0⟩

/-- The first lines of a piece, at most so many, and how many were found. -/
def firstLines (wanted : Nat) (cs : List Char) : List Char × Nat :=
  let rec go : Nat → List Char → List Char → List Char × Nat
    | 0, _, done => (done.reverse, 0)
    | _, [], done => (done.reverse, 0)
    | w + 1, c :: cs, done =>
      if c == '\n' then
        let (kept, found) := go w cs (c :: done)
        (kept, found + 1)
      else go (w + 1) cs (c :: done)
  go wanted cs []

/-- Passes on what comes first on a channel: so many lines or so many octets. What a pipe gave up
beyond that is lost. -/
def passFirst (c : Channel) (lines : Bool) : Nat → Nat → Run (Except ChannelFault Unit)
  | 0, _ => forever
  | n + 1, wanted => do
    if wanted = 0 then return .ok ()
    let isPipe := match c with
      | .source _ => true
      | _ => false
    let most := if !lines && !isPipe then min wanted 65536 else 65536
    match ← fetch c (fun x => lines && !isPipe && x == '\n') most with
    | .error e => return .error e
    | .ok [] => return .ok ()
    | .ok cs =>
      let (kept, found) := if lines then firstLines wanted cs
        else (cs.take wanted, min wanted cs.length)
      emit "head" (String.ofList kept)
      passFirst c lines n (wanted - found)

/-- A heading in front of an input, if there are several. -/
def heading (o : Options) (inputs : List String) (i : Nat) (input : String) : String :=
  if (1 < inputs.length || o.has 'v') && !o.has 'q' then
    (if i = 0 then "" else "\n") ++ "==> " ++
      (if input == "-" then "standard input" else input) ++ " <==\n"
  else ""

/-- The count that an option gives, or a default. -/
def countOption (name : String) (o : Options) : Run (Bool × Count) := do
  let kind := (o.last? ['n', 'c']).getD 'n'
  let lines := kind == 'n'
  match o.value? kind with
  | none => return (true, ⟨none, 10⟩)
  | some s =>
    match count? s with
    | some k => return (lines, k)
    | none =>
      fail name 1 ("invalid number of " ++ (if lines then "lines" else "bytes") ++ ": " ++ cited s)

/-- The items of a text that counts are about: lines or single octets. -/
def countedItems (lines : Bool) (s : String) : List String :=
  if lines then fullLines s else s.toList.map fun c => String.ofList [c]

/-- What `head` and `tail` understand. -/
def partOptions : OptionNames :=
  { plain := "qvfFz", valued := "nc"
    long := [("lines", 'n'), ("bytes", 'c'), ("quiet", 'q'), ("verbose", 'v'), ("follow", 'f')] }

/-- Runs a computation on each input behind its heading. -/
def underHeadings (name : String) (o : Options) (f : Channel → Run (Except ChannelFault Unit)) :
    Run Unit := do
  let inputs := operandsOrInput o
  let mut shown := 0
  for input in inputs do
    match ← openInput input with
    | .error e =>
      lament name ("cannot open " ++ inQuotes input ++ " for reading: " ++ causeText e)
    | .ok none =>
      lament name ("cannot open " ++ inQuotes input ++ " for reading: Bad file descriptor")
    | .ok (some c) =>
      emit name (heading o inputs shown input)
      shown := shown + 1
      match ← f c with
      | .ok () => pure ()
      | .error e => lament name ("error reading " ++ inQuotes input ++ ": " ++ e.message)

/-- `head`. -/
def passFirstPart : Utility := fun args =>
  withOptions "head" partOptions (fun o => do
    let (lines, k) ← countOption "head" o
    underHeadings "head" o fun c => do
      if k.sign == some '-' then
        match ← readAll c with
        | .error e => return .error e
        | .ok s =>
          let items := countedItems lines s
          emit "head" (String.join (items.take (items.length - k.size)))
          return .ok ()
      else passFirst c lines maxPieces k.size) true 1 (numberOption args)

/-- `tail`. -/
def passLastPart : Utility := fun args =>
  withOptions "tail" partOptions (fun o => do
    let (lines, k) ← countOption "tail" o
    underHeadings "tail" o fun c => do
      match ← readAll c with
      | .error e => return .error e
      | .ok s =>
        let items := countedItems lines s
        let n := if k.sign == some '+' then k.size - 1 else items.length - k.size
        emit "tail" (String.join (items.drop n))
        return .ok ()
    if o.has 'f' || o.has 'F' then forever) true 1 (numberOption args)

/-- `tee`. -/
def storeAndPass : Utility :=
  withOptions "tee" { plain := "aip", long := [("append", 'a')] } fun o => do
    let mut targets : List Channel := []
    for name in o.operands do
      match ← openForWriting name (if o.has 'a' then .append else .overwrite) with
      | .ok c => targets := targets ++ [c]
      | .error e => lament "tee" (shownName name ++ ": " ++ causeText e)
    let all := targets
    match ← channel? 0 with
    | none => return
    | some c =>
      discard <| onPieces c (fun s => do
        emit "tee" s
        for t in all do
          discard (writeTo (some t) s)) maxPieces

/-- `yes`. -/
def repeatLine : Utility := fun args => do
  let line := (if args.isEmpty then "y" else String.intercalate " " args) ++ "\n"
  let block := String.join (List.replicate (4096 / line.length + 1) line)
  let rec go : Nat → Run Unit
    | 0 => forever
    | n + 1 => do
      emit "yes" block
      pause 5000
      go n
  go maxPieces

/-- The number of words in a text. -/
def countWords (cs : List Char) : Nat :=
  (cs.foldl (fun (state : Nat × Bool) c =>
    if isSpace c then (state.1, false)
    else (if state.2 then state.1 else state.1 + 1, true)) (0, false)).1

/-- The columns of the longest line; a tab goes on to the next multiple of eight. -/
def longestLine (s : String) : Nat :=
  (splitLines s).foldl (fun n l =>
    max n (l.toList.foldl (fun k c => if c == '\t' then (k / 8 + 1) * 8 else k + 1) 0)) 0

/-- How many octets the files behind inputs of a utility hold, and whether all of them are
files. -/
def sizeOfInputs : List String → Run (Nat × Bool)
  | [] => return (0, true)
  | input :: rest => do
    let (size, isRegular) ← sizeOfInputs rest
    let t ← files
    let found ←
      if input == "-" then do
        match ← channel? 0 with
        | some (.file i) => look fun w => (w.opened[i]?).bind fun f => t.numbered? f.number
        | _ => pure none
      else
        match t.findItem (path input) with
        | .ok (_, x) => pure (some x)
        | .error _ => return (size, isRegular)
    match found.map Item.entry with
    | some (.file content) => return (size + content.size, isRegular)
    | _ => return (size, false)

/-- `wc`. -/
def countAll : Utility :=
  withOptions "wc"
    { plain := "lwcmL"
      long := [("lines", 'l'), ("words", 'w'), ("bytes", 'c'), ("chars", 'm'),
        ("max-line-length", 'L')] }
    fun o => do
      let all := o.flags.isEmpty
      let counts (s : String) : List Nat :=
        (if all || o.has 'l' then [s.toList.count '\n'] else []) ++
          (if all || o.has 'w' then [countWords s.toList] else []) ++
          (if o.has 'm' then [((spell s).toList.filter (!isStray ·)).length] else []) ++
          (if all || o.has 'c' then [s.length] else []) ++
          (if o.has 'L' then [longestLine (spell s)] else [])
      let inputs := operandsOrInput o
      let (size, isRegular) ← sizeOfInputs inputs
      let mut contents : List (String × Except String String) := []
      for input in inputs do
        contents := contents ++ [(input, ← readInput input)]
      let found := contents.filterMap fun c => c.2.toOption
      let columns := (counts "").length
      let rows := found.map counts
      let total : List Nat := (List.range columns).map fun k =>
        rows.foldl (fun n row => n + (row[k]?).getD 0) 0
      let width :=
        if columns = 1 && inputs.length = 1 then 1
        else max (toString size).length (if isRegular then 1 else 7)
      let row (label : String) (ns : List Nat) : String :=
        String.intercalate " " (ns.map (aligned width)) ++ label ++ "\n"
      for (input, content) in contents do
        match content with
        | .ok s => emit "wc" (row (if o.operands.isEmpty then "" else " " ++ input) (counts s))
        | .error cause =>
          lament "wc" (shownName input ++ ": " ++ cause)
          if cause == "Is a directory" then emit "wc" (row (" " ++ input) (counts ""))
      if 1 < inputs.length then emit "wc" (row " total" total)

end PatchSearch.Shell
