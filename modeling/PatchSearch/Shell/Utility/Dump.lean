import PatchSearch.Shell.Arithmetic
import PatchSearch.Shell.Utility.Streams

/-!
Showing octets as numbers and names: `od`. A line shows a block of octets once for each kind of
item that is asked for, behind its address; blocks that repeat are left out.
-/
namespace PatchSearch.Shell

open Run

/-- A kind of item: its letter, its size, and whether the text of a block follows it. -/
structure DumpItem where
  letter : Char
  size : Nat
  showsText : Bool := false

namespace DumpItem

/-- How many characters an item takes. -/
def width (k : DumpItem) : Nat :=
  match k.letter, k.size with
  | 'd', 1 => 4
  | 'd', 2 => 6
  | 'd', 4 => 11
  | 'd', _ => 20
  | 'u', 1 => 3
  | 'u', 2 => 5
  | 'u', 4 => 10
  | 'u', _ => 20
  | 'o', 1 => 3
  | 'o', 2 => 6
  | 'o', 4 => 11
  | 'o', _ => 22
  | 'x', n => 2 * n
  | _, _ => 3

/-- The names of the first octets. -/
def names : List String :=
  ["nul", "soh", "stx", "etx", "eot", "enq", "ack", "bel", "bs", "ht", "nl", "vt", "ff", "cr",
    "so", "si", "dle", "dc1", "dc2", "dc3", "dc4", "nak", "syn", "etb", "can", "em", "sub", "esc",
    "fs", "gs", "rs", "us", "sp"]

/-- A number in a base, with zeros in front of it. -/
def padded (base width n : Nat) : String :=
  let ds := Nat.toDigits base n
  String.ofList (List.replicate (width - ds.length) '0' ++ ds)

/-- An octet as a character or an escape. -/
def character (n : Nat) : String :=
  match n with
  | 0 => "\\0"
  | 7 => "\\a"
  | 8 => "\\b"
  | 9 => "\\t"
  | 10 => "\\n"
  | 11 => "\\v"
  | 12 => "\\f"
  | 13 => "\\r"
  | n => if 32 ≤ n && n < 127 then String.singleton (Char.ofNat n) else padded 8 3 n

/-- The text of an item with some value. -/
def text (k : DumpItem) (n : Nat) : String :=
  match k.letter with
  | 'd' =>
    let values := Nat.pow 256 k.size
    toString (if values ≤ 2 * n then (n : Int) - values else (n : Int))
  | 'u' => toString n
  | 'o' => padded 8 k.width n
  | 'x' => padded 16 k.width n
  | 'a' =>
    let n := n % 128
    if n = 127 then "del" else (names[n]?).getD (String.singleton (Char.ofNat n))
  | _ => character n

end DumpItem

/-- The kinds of items that a text names. -/
def readDumpItems (whole : String) : Nat → List Char → Except String (List DumpItem)
  | 0, _ => .ok []
  | _, [] => .ok []
  | n + 1, c :: cs => do
    let (size, rest) ← do
      if c == 'a' || c == 'c' then pure (1, cs)
      else if "doux".toList.contains c then
        match cs with
        | 'C' :: rest => pure (1, rest)
        | 'S' :: rest => pure (2, rest)
        | 'I' :: rest => pure (4, rest)
        | 'L' :: rest => pure (8, rest)
        | _ =>
          let ds := cs.takeWhile Char.isDigit
          let size := ds.foldl (fun n c => 10 * n + (c.toNat - 48)) 0
          if ds.isEmpty then pure (4, cs)
          else if [1, 2, 4, 8].contains size then pure (size, cs.drop ds.length)
          else
            throw ("invalid type string " ++ cited whole ++
              ";\nthis system doesn\x27t provide a " ++ toString size ++ "-byte integral type")
      else
        throw ("invalid character \x27" ++ String.singleton c ++ "\x27 in type string " ++
          cited whole)
    let showsText := rest.head? == some 'z'
    let rest := if showsText then rest.drop 1 else rest
    return ⟨c, size, showsText⟩ :: (← readDumpItems whole n rest)

/-- How octets are shown. -/
structure DumpForm where
  items : List DumpItem
  radix : Char := 'o'
  block : Nat := 16
  showsAll : Bool := false
  highFirst : Bool := false

namespace DumpForm

/-- How many characters stand in front of the items. -/
def addressWidth (f : DumpForm) : Nat :=
  match f.radix with
  | 'n' => 0
  | 'x' => 6
  | _ => 7

def address (f : DumpForm) (n : Nat) : String :=
  match f.radix with
  | 'n' => ""
  | 'x' => DumpItem.padded 16 6 n
  | 'd' => DumpItem.padded 10 7 n
  | _ => DumpItem.padded 8 7 n

/-- How many characters a block takes in the widest kind of items. -/
def blockWidth (f : DumpForm) : Nat :=
  f.items.foldl (fun w k => max w ((k.width + 1) * (f.block / k.size))) 0

/-- A block as items of a kind. -/
def row (f : DumpForm) (k : DumpItem) (block : List Nat) : String :=
  let fields := f.block / k.size
  let shown := (block.length + k.size - 1) / k.size
  let gap := f.blockWidth - k.width * fields
  let value (i : Nat) : Nat :=
    let octets := (block.drop (i * k.size)).take k.size
    let octets := octets ++ List.replicate (k.size - octets.length) 0
    (if f.highFirst then octets else octets.reverse).foldl (fun n d => 256 * n + d) 0
  let cell (i : Nat) : String :=
    let text := k.text (value i)
    let width := k.width + gap * (fields - i) / fields - gap * (fields - i - 1) / fields
    String.ofList (List.replicate (width - text.length) ' ') ++ text
  let body := String.join ((List.range shown).map cell)
  if !k.showsText then body
  else
    let blank := fields - shown
    let fill := blank * k.width + gap * blank / fields
    body ++ String.ofList (List.replicate fill ' ') ++ "  >" ++
      String.ofList (block.map fun n => if 32 ≤ n && n < 127 then Char.ofNat n else '.') ++ "<"

/-- A block with its address. -/
def rows (f : DumpForm) (start : Nat) (block : List Nat) : String :=
  joinLines (f.items.zipIdx.map fun (k, i) =>
    (if i = 0 then f.address start
      else String.ofList (List.replicate f.addressWidth ' ')) ++ f.row k block)

/-- All blocks from an address on; a block like the one before it is left out. -/
def blocks (f : DumpForm) : Nat → Nat → Option (List Nat) → Bool → List Nat → List String
  | 0, _, _, _, _ => []
  | n + 1, start, before, skips, octets =>
    if octets.isEmpty then [if f.radix == 'n' then "" else f.address start ++ "\n"]
    else
      let block := octets.take f.block
      let rest := octets.drop f.block
      let next := start + block.length
      if !f.showsAll && before == some block && block.length = f.block then
        (if skips then "" else "*\n") :: f.blocks n next before true rest
      else f.rows start block :: f.blocks n next (some block) false rest

end DumpForm

/-- A count of octets in decimal, octal or hexadecimal digits, perhaps with a unit. -/
def octetCount? (s : String) : Option Nat :=
  match Arithmetic.numeral? s.toList with
  | none => none
  | some (n, rest) =>
    let units : List (String × Nat) := [("", 1), ("b", 512), ("k", 1024), ("K", 1024),
      ("KiB", 1024), ("kB", 1000), ("KB", 1000), ("M", 1048576), ("m", 1048576),
      ("MiB", 1048576), ("MB", 1000000), ("G", 1073741824), ("GB", 1000000000),
      ("T", 1099511627776)]
    (units.lookup (String.ofList rest)).map (n * ·)

/-- What `od` understands. -/
def dumpOptions : OptionNames :=
  { plain := "vabBcdDeFfhHiIlLoOsxXT", valued := "AjNtSε", attached := "w"
    long := [("address-radix", 'A'), ("skip-bytes", 'j'), ("read-bytes", 'N'), ("format", 't'),
      ("output-duplicates", 'v'), ("width", 'w'), ("endian", 'ε'), ("traditional", 'T')] }

/-- The kinds of items that have letters of their own. -/
def dumpLetters : List (Char × DumpItem) :=
  [('a', ⟨'a', 1, false⟩), ('b', ⟨'o', 1, false⟩), ('B', ⟨'o', 2, false⟩), ('c', ⟨'c', 1, false⟩),
    ('d', ⟨'u', 2, false⟩), ('D', ⟨'u', 4, false⟩), ('h', ⟨'x', 2, false⟩),
    ('H', ⟨'x', 4, false⟩), ('i', ⟨'d', 4, false⟩), ('I', ⟨'d', 8, false⟩),
    ('l', ⟨'d', 8, false⟩), ('L', ⟨'d', 8, false⟩), ('o', ⟨'o', 2, false⟩),
    ('O', ⟨'o', 4, false⟩), ('s', ⟨'d', 2, false⟩), ('x', ⟨'x', 2, false⟩),
    ('X', ⟨'x', 4, false⟩)]

/-- The form that options ask for. -/
def dumpFormOf (o : Options) : Run DumpForm := do
  let mut given : List DumpItem := []
  let mut radix := 'o'
  for (c, value) in o.flags do
    if let some k := dumpLetters.lookup c then given := given ++ [k]
    if c == 't' then
      match readDumpItems value (value.length + 1) value.toList with
      | .ok ks => given := given ++ ks
      | .error text => fail "od" 1 text
    if c == 'A' then
      match value.toList with
      | r :: _ =>
        if "doxn".toList.contains r then radix := r
        else
          fail "od" 1 ("invalid output address radix \x27" ++ String.singleton r ++
            "\x27; it must be one character from [doxn]")
      | [] =>
        fail "od" 1 ("invalid output address radix \x27\x00\x27; " ++
          "it must be one character from [doxn]")
  let items := if given.isEmpty then [⟨'o', 2, false⟩] else given
  let unit := items.foldl (fun n k => max n k.size) 1
  let block ← match o.value? 'w' with
    | none => pure 16
    | some s =>
      let width := if s.isEmpty then 32 else (octetCount? s).getD 0
      if width != 0 && width % unit = 0 then pure width
      else
        warn "od" ("warning: invalid width " ++ toString width ++ "; using " ++ toString unit ++
          " instead")
        pure unit
  return ⟨items, radix, block, o.has 'v', o.value? 'ε' == some "big"⟩

/-- `od`. -/
def dumpOctets : Utility :=
  withOptions "od" dumpOptions fun o => do
    let f ← dumpFormOf o
    let number (c : Char) : Run (Option Nat) := do
      match o.value? c with
      | none => return none
      | some s =>
        match octetCount? s with
        | some n => return some n
        | none => fail "od" 1 ("invalid -" ++ String.singleton c ++ " argument " ++ inQuotes s)
    let skip := (← number 'j').getD 0
    let most ← number 'N'
    let mut whole := ""
    let mut opened := false
    for input in operandsOrInput o do
      match ← openInput input with
      | .error e => lament "od" (shownName input ++ ": " ++ causeText e)
      | .ok none => lament "od" (shownName input ++ ": Bad file descriptor")
      | .ok (some c) =>
        opened := true
        match ← readAll c with
        | .ok s => whole := whole ++ s
        | .error e => lament "od" (shownName input ++ ": " ++ e.message)
    if opened then
      if whole.length < skip then fail "od" 1 "cannot skip past end of combined input"
      let rest := (whole.toList.drop skip).map Char.toNat
      let octets := match most with
        | some n => rest.take n
        | none => rest
      emit "od" (String.join (f.blocks (octets.length + 1) skip none false octets))

end PatchSearch.Shell
