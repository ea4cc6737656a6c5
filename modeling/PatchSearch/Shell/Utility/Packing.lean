import PatchSearch.Decimal
import PatchSearch.Shell.Calendar.Basic
import PatchSearch.Shell.Deflate.Packed
import PatchSearch.Shell.Utility.Copying

/-!
Files made shorter: `gzip` packs files in place or to its output, and unpacks, tests and lists packed
ones; `gunzip` and `zcat` are other names for it.
-/
namespace PatchSearch.Shell

open Run Deflate

/-- What is asked of packing. -/
structure PackingMode where
  o : Options
  unpacks : Bool
  toOutput : Bool
  level : Nat
  suffix : String

/-- A list of packed files: its files, and sizes that it adds up: packed, unpacked, and what the
headings of the last file took. -/
structure PackedTotals where
  files : Nat := 0
  /-- The list so far. -/
  list : String := ""
  packed : Nat := 0
  plain : Nat := 0
  around : Nat := 0

/-- A text behind blanks that fill a column. -/
def rightInColumn (width : Nat) (s : String) : String :=
  String.ofList (List.replicate (width - s.length) ' ') ++ s

/-- How much shorter one size is than another one, in percent with one place. -/
def savedShare (saved : Int) (size : Nat) : String :=
  let share : Float := if size = 0 then 0 else (Float.ofInt (100 * saved)) / size.toFloat
  rightInColumn 5 (Decimal.fixed 1 share) ++ "%"

namespace PackingMode

def isQuiet (m : PackingMode) : Bool :=
  m.o.last? ['q', 'v'] == some 'q'

def isVerbose (m : PackingMode) : Bool :=
  m.o.last? ['q', 'v'] == some 'v'

/-- Raises the status: failures count more than warnings. -/
def noteStatus (n : Nat) : Run Unit := do
  let old ← status
  if n = 1 || old = 0 then setStatus n

/-- Warns about a file that is left as it is. -/
def leave (m : PackingMode) (text : String) : Run Unit := do
  if !m.isQuiet then tell ("gzip: " ++ text ++ "\n")
  noteStatus 2

/-- Tells what is wrong with a file. -/
def complain (text : String) : Run Unit := do
  tell ("gzip: " ++ text ++ "\n")
  noteStatus 1

/-- The ending of a name that marks packed files, and what stands in its place without it. -/
def packedEnding? (m : PackingMode) (name : String) : Option (String × String) :=
  let endings := (m.suffix, "") ::
    [(".gz", ""), (".z", ""), (".taz", ".tar"), (".tgz", ".tar"), ("-gz", ""), ("-z", ""), ("_z", "")]
  let lower := name.map Char.toLower
  endings.find? fun (ending, _) =>
    (name.endsWith ending || lower.endsWith ending) && ending.length < name.length &&
      !((String.ofList (name.toList.take (name.length - ending.length))).endsWith "/")

/-- The name of a packed file without its ending. -/
def plainName? (m : PackingMode) (name : String) : Option String :=
  (m.packedEnding? name).map fun (ending, instead) =>
    String.ofList (name.toList.take (name.length - ending.length)) ++ instead

/-- A heading over a list of packed files. -/
def listHeading (m : PackingMode) : String :=
  (if m.isVerbose then "method  crc     date  time  " else "") ++
    "         compressed        uncompressed  ratio uncompressed_name\n"

/-- A line of a list of packed files. -/
def listLine (packed plain : Nat) (saved : Int) (name : String) : String :=
  let column (n : Nat) : String := rightInColumn 19 (toString n)
  column packed ++ " " ++ column plain ++ " " ++ savedShare saved plain ++ " " ++ name ++ "\n"

/-- Tells how much shorter a file became, and what became of it. -/
def tellSaved (saved : Int) (size : Nat) (outcome : String) : Run Unit :=
  tell (savedShare saved size ++ outcome ++ "\n")

/-- Tells the faults of a packed file. -/
def tellFaults (name : String) (u : Unpacked) : Run Unit := do
  for e in u.faults do
    match e with
    | .unknownMethod _ => complain (name ++ ": " ++ e.message)
    | _ =>
      tell ("\ngzip: " ++ name ++ ": " ++ e.message ++ "\n")
      noteStatus 1

/-- Unpacks what was read; whether the text of it counts, and not only its start. -/
def unpackChecked (m : PackingMode) (name : String) (source : ByteArray) : Run (Option Unpacked) := do
  let isForeign (u : Unpacked) : Bool := u.faults.any fun e =>
    match e with
    | .foreign => true
    | _ => false
  let u := unpack source
  if isForeign u && m.o.has 'f' && m.toOutput && !m.o.has 'l' then
    return some { text := source }
  else if (readHeading source 0).toOption.isNone then
    tellFaults name u
    return none
  else return some u

/-- Tells the list line of a packed file. -/
def tellListed (m : PackingMode) (totals : PackedTotals) (name : String) (size time : Nat)
    (u : Unpacked) : Run PackedTotals := do
  let heading := if totals.files = 0 && !m.isQuiet then m.listHeading else ""
  let shown := if m.o.has 'N' then u.heading.name.getD name else (m.plainName? name).getD name
  let facts :=
    if m.isVerbose then
      let seconds := if u.heading.time = 0 then time else u.heading.time
      let sum := String.ofList (Nat.toDigits 16 u.sum)
      "defla " ++ String.ofList (List.replicate (8 - sum.length) '0') ++ sum ++ " " ++
        (Moment.ofNanos ((seconds : Int) * Moment.second)).format "%b %e %H:%M" ++ " "
    else ""
  let saved := (u.text.size : Int) - (size - u.around : Nat)
  let line := listLine size u.text.size saved shown
  return {
    files := totals.files + 1
    list := totals.list ++ heading ++ facts ++ line
    packed := totals.packed + size
    plain := totals.plain + u.text.size
    around := u.around }

/-- Packs or unpacks the standard input. -/
def treatInput (m : PackingMode) (totals : PackedTotals) : Run PackedTotals := do
  match ← readInput "-" with
  | .error e => do
    complain ("stdin: " ++ e)
    return totals
  | .ok s =>
    let source := octetBytes s
    if m.unpacks then
      match ← m.unpackChecked "stdin" source with
      | none => return totals
      | some u =>
        if m.o.has 'l' then return ← m.tellListed totals "stdout" source.size 0 u
        if !m.o.has 't' then emit "gzip" (octetsOfBytes u.text)
        tellFaults "stdin" u
        if u.hasRest then
          if !m.isQuiet then
            tell "\ngzip: stdin: decompression OK, trailing garbage ignored\n"
          noteStatus 2
        if m.isVerbose && m.o.has 't' then tell " OK\n"
    else
      let packed := pack {} m.level source
      emit "gzip" (octetsOfBytes packed)
      if m.isVerbose then tellSaved ((source.size : Int) - (packed.size - 18 : Nat)) source.size ""
    return totals

/-- Stores the new form of a file; whether that was possible. -/
def storeForm (m : PackingMode) (target : String) (x : Item) (content : ByteArray) (time : Option Nat) :
    Run Bool := do
  let t ← files
  if (t.findLink (path target)).isOk && !m.o.has 'f' then
    tell ("gzip: " ++ target ++ " already exists;\tnot overwritten\n")
    noteStatus 2
    return false
  let made ← tryFiles fun t => do
    let p ← t.resolve false (path target)
    if t.isDirectoryAt p then throw .isADirectory
    let u := t.put p (.file content)
    return u.changeAt p fun y =>
      { y with rights := x.rights, changed := (time.map (· * 1000000000)).getD x.changed }
  match made with
  | .ok () => return true
  | .error e =>
    complain (target ++ ": " ++ causeText e)
    return false

/-- Packs or unpacks a file of which everything is known. -/
def treatContent (m : PackingMode) (totals : PackedTotals) (name : String) (x : Item)
    (content : ByteArray) : Run PackedTotals := do
  let isTest := m.o.has 't' || m.o.has 'l'
  let target? :=
    if m.toOutput && !isTest then some "stdout"
    else if m.unpacks then
      match m.plainName? name with
      | some s => some s
      | none => if isTest then some name else none
    else if (m.packedEnding? name).isSome then none
    else some (name ++ m.suffix)
  match target? with
  | none =>
    if m.unpacks then
      if !m.o.has 'r' then m.leave (name ++ ": unknown suffix -- ignored")
    else if m.isVerbose || !m.o.has 'r' && !m.isQuiet then
      let ending := ((m.packedEnding? name).map Prod.fst).getD ""
      tell ("gzip: " ++ name ++ " already has " ++ ending ++ " suffix -- unchanged\n")
    return totals
  | some target =>
    let outcome := (if m.o.has 'k' then " -- created " else " -- replaced with ")
    let withoutFile : Run Unit := do
      if !m.o.has 'k' then onFiles fun t => ((), withoutPath t name)
    if m.unpacks then
      match ← m.unpackChecked name content with
      | none => return totals
      | some u =>
        if m.o.has 'l' then
          return ← m.tellListed totals name content.size (x.changed / 1000000000) u
        let target := match m.o.has 'N', u.heading.name with
          | true, some s =>
            let last := (lastPart? target).getD target
            String.ofList (target.toList.take (target.length - last.length)) ++ s
          | _, _ => target
        let verbose (text : String) : Run Unit := do
          if m.isVerbose then tell text
        verbose (name ++ ":\t")
        let saved := (u.text.size : Int) - (content.size - u.around : Nat)
        if isTest || m.toOutput then
          if !isTest then emit "gzip" (octetsOfBytes u.text)
          tellFaults name u
        else if !u.faults.isEmpty then tellFaults name u
        else
          let time := if m.o.has 'N' && u.heading.time != 0 then some u.heading.time else none
          if ← m.storeForm target x u.text time then withoutFile else return totals
        if u.hasRest then
          m.leave (name ++ ": decompression OK, trailing garbage ignored")
        if u.faults.isEmpty then
          if m.o.has 't' then verbose " OK\n"
          else if m.isVerbose then tellSaved saved u.text.size (outcome ++ target)
        return totals
    else
      let heading : Heading := if m.o.has 'n' then {} else
        { name := some ((lastPart? name).getD name), time := x.changed / 1000000000 }
      let packed := pack heading m.level content
      if m.toOutput then
        if m.isVerbose then tell (name ++ ":\t")
        emit "gzip" (octetsOfBytes packed)
      else
        if !(← m.storeForm target x packed none) then return totals
        if m.isVerbose then tell (name ++ ":\t")
        withoutFile
      let around := (heading.encode m.level).size + 8
      if m.isVerbose then
        tellSaved ((content.size : Int) - (packed.size - around : Nat)) content.size (outcome ++ target)
      return totals

/-- The file that a name stands for: itself, or else one with an ending for packed files. -/
def packedFile (m : PackingMode) (name : String) : Run String := do
  let t ← files
  let exists? (name : String) : Bool := (t.findLink (path name)).isOk
  if exists? name || !m.unpacks || (m.packedEnding? name).isSome then return name
  else
    let names := [m.suffix, ".gz", ".z", "-z", ".Z"].map (name ++ ·)
    return (names.find? exists?).getD (name ++ m.suffix)

/-- Packs or unpacks what a name stands for. The number bounds the depth of directories. -/
def treatName (m : PackingMode) : Nat → PackedTotals → String → Run PackedTotals
  | 0, totals, _ => return totals
  | fuel + 1, totals, name => do
    if name == "-" then return ← m.treatInput totals
    let name ← m.packedFile name
    let t ← files
    let followed := m.toOutput || m.o.has 'f' || m.o.has 't' || m.o.has 'l'
    match if followed then t.findItem (path name) else t.findLinkItem (path name) with
    | .error e =>
      complain (name ++ ": " ++ causeText e)
      return totals
    | .ok (p, x) =>
      match x.entry with
      | .directory =>
        if m.o.has 'r' then
          ((t.namesBelow p).map octets).foldlM
            (fun totals s => treatName m fuel totals (below name s)) totals
        else
          m.leave (name ++ " is a directory -- ignored")
          return totals
      | .link _ =>
        complain (name ++ ": Too many levels of symbolic links")
        return totals
      | .file content =>
        let links := t.items.countP fun y => y.2.number == x.number
        if !m.toOutput && !m.o.has 't' && !m.o.has 'l' && !m.o.has 'f' && 1 < links then
          m.leave (name ++ " has " ++ toString (links - 1) ++ " other link" ++
            (if links = 2 then "" else "s") ++ " -- file ignored")
          return totals
        else m.treatContent totals name x content

end PackingMode

/-- What `gzip` understands. -/
def packingOptions : OptionNames :=
  { plain := "acdfhklLmMnNqrtvV123456789σρ", valued := "bS"
    long := [("ascii", 'a'), ("to-stdout", 'c'), ("stdout", 'c'), ("decompress", 'd'),
      ("uncompress", 'd'), ("force", 'f'), ("help", 'h'), ("keep", 'k'), ("list", 'l'),
      ("license", 'L'), ("no-name", 'n'), ("name", 'N'), ("quiet", 'q'), ("silent", 'q'),
      ("recursive", 'r'), ("suffix", 'S'), ("test", 't'), ("verbose", 'v'), ("version", 'V'),
      ("fast", '1'), ("best", '9'), ("synchronous", 'σ'), ("rsyncable", 'ρ')] }

/-- `gzip`, which may be asked by its name to unpack, and to do that to its output. -/
def packFiles (unpacks toOutput : Bool) : Utility := fun args => do
  match Options.read packingOptions true args with
  | .error e =>
    tell ("gzip: " ++ e.message ++ "\nTry \x60gzip --help\x27 for more information.\n")
    setStatus 1
  | .ok o =>
    setStatus 0
    let digits := (List.range 9).map fun k => Char.ofNat (49 + k)
    let level := match o.last? digits with
      | some c => c.toNat - 48
      | none => 6
    let m : PackingMode :=
      { o, level, suffix := (o.value? 'S').getD ".gz"
        unpacks := unpacks || o.has 'd' || o.has 't' || o.has 'l'
        toOutput := toOutput || o.has 'c' }
    let depth := (← files).items.length + 1
    let totals ← (operandsOrInput o).foldlM (m.treatName depth) {}
    emit "gzip" totals.list
    if o.has 'l' && !m.isQuiet && 1 < o.operands.length && totals.plain != 0 then
      let saved := (totals.plain : Int) - (totals.packed - totals.around : Nat)
      emit "gzip" ((if m.isVerbose then String.ofList (List.replicate 28 ' ') else "") ++
        PackingMode.listLine totals.packed totals.plain saved "(totals)")

end PatchSearch.Shell
