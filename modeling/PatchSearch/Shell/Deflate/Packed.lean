import PatchSearch.Shell.Deflate.Codes
import PatchSearch.Shell.Octets

/-!
Copies looked for in a text. Places where the same three octets stand are chained, nearest first;
of those that are looked at the longest copy is taken, and a longer one at the next place is
preferred to it.
-/
namespace PatchSearch.Shell.Deflate

/-- How hard copies are looked for. -/
structure Effort where
  /-- A copy that is long enough to look at fewer places for a longer one. -/
  good : Nat
  /-- The longest copy for which the next place is looked at. -/
  lazy : Nat
  /-- A copy that is long enough to look no further. -/
  nice : Nat
  /-- How many places are looked at. -/
  chain : Nat
  /-- Whether a copy is put off for a longer one at the next place. -/
  putsOff : Bool := true

/-- The efforts from least to most. -/
def Effort.ofLevel (level : Nat) : Effort :=
  match level with
  | 1 => ⟨4, 4, 8, 4, false⟩
  | 2 => ⟨4, 5, 16, 8, false⟩
  | 3 => ⟨4, 6, 32, 32, false⟩
  | 4 => ⟨4, 4, 16, 16, true⟩
  | 5 => ⟨8, 16, 32, 32, true⟩
  | 6 => ⟨8, 16, 128, 128, true⟩
  | 7 => ⟨8, 32, 128, 256, true⟩
  | 8 => ⟨32, 128, 258, 1024, true⟩
  | _ => ⟨32, 258, 258, 4096, true⟩

/-- The greatest distance of a copy, and the greatest one of a copy of three octets. -/
def farthest : Nat := 32506

def farthestShort : Nat := 4096

/-- How many chains there are. -/
def chainCount : Nat := 32768

/-- Places in a text chained by the octets that stand there. The place zero ends a chain. -/
structure Chains where
  text : ByteArray
  nearest : Array Nat
  next : Array Nat

namespace Chains

def ofText (text : ByteArray) : Chains :=
  { text, nearest := Array.replicate chainCount 0, next := Array.replicate (text.size + 1) 0 }

/-- The octet at a place; behind the end stands nothing. -/
def octet (c : Chains) (k : Nat) : Nat :=
  if h : k < c.text.size then (c.text[k]).toNat else 0

/-- The chain of a place. -/
def chainOf (c : Chains) (k : Nat) : Nat :=
  ((c.octet k * 1024) ^^^ (c.octet (k + 1) * 32) ^^^ c.octet (k + 2)) % chainCount

/-- Chains a place; the one before it in its chain. -/
def insert (c : Chains) (k : Nat) : Nat × Chains :=
  let chain := c.chainOf k
  let old := c.nearest.getD chain 0
  (old, { c with
    nearest := c.nearest.setIfInBounds chain k
    next := c.next.setIfInBounds k old })

/-- Chains some places one after the other. -/
def insertAll (c : Chains) (start : Nat) : Nat → Chains
  | 0 => c
  | n + 1 => insertAll (c.insert start).2 (start + 1) n

/-- How many octets are the same from two places on. -/
def common (c : Chains) (a b : Nat) : Nat → Nat → Nat
  | 0, n => n
  | fuel + 1, n => if c.octet (a + n) = c.octet (b + n) then common c a b fuel (n + 1) else n

/-- The longest copy for a place, if it is longer than what is known: its length and where it
starts. -/
def longest (c : Chains) (e : Effort) (place : Nat) : Nat → Nat → Nat × Nat → Nat × Nat
  | 0, _, best => best
  | fuel + 1, candidate, best =>
    let length :=
      if c.octet (candidate + best.1) = c.octet (place + best.1) &&
          c.octet (candidate + best.1 - 1) = c.octet (place + best.1 - 1) then
        c.common candidate place longestCopy 0
      else 0
    let best := if best.1 < length then (length, candidate) else best
    if e.nice ≤ best.1 && best.2 = candidate then best
    else
      let further := c.next.getD candidate 0
      if further = 0 || further + farthest ≤ place then best
      else longest c e place fuel further best

end Chains

/-- A part of a text with the steps that tell it. -/
structure Block where
  start : Nat
  stop : Nat
  steps : Array Step

/-- How far a text is told. -/
structure Telling where
  blocks : List Block := []
  /-- Where the block starts that is being told, its steps so far, and how many are copies. -/
  start : Nat := 0
  steps : Array Step := #[]
  copies : Nat := 0

namespace Telling

/-- The most steps in a block. -/
def mostSteps : Nat := 32767

/-- Whether it seems best to end a block: it is full, or it has become short with few copies in it. -/
def isFull (t : Telling) (level place : Nat) : Bool :=
  let count := t.steps.size
  let looksShort : Bool :=
    2 < level && count % 4096 = 0 &&
      let bits := t.steps.foldl (fun sum s => match s with
        | .copy _ distance =>
          sum + 5 + ((distanceClasses[classOf distanceClasses distance]?).map NumberClass.bits).getD 0
        | .literal _ => sum) (count * 8)
      t.copies < count / 2 && bits / 8 < (place - t.start) / 2
  looksShort || count = mostSteps || t.copies = mostSteps + 1

/-- Adds a step, told at a place, behind which the text is told up to another one. -/
def add (t : Telling) (level : Nat) (s : Step) (place told : Nat) : Telling :=
  let isCopy := match s with
    | .copy _ _ => 1
    | .literal _ => 0
  let t := { t with steps := t.steps.push s, copies := t.copies + isCopy }
  if t.isFull level place then
    { blocks := ⟨t.start, told, t.steps⟩ :: t.blocks, start := told }
  else t

end Telling

namespace Chains

/-- The longest copy for a place, cut at the end of the text; `known` is one for the place before. -/
def copyAt (c : Chains) (e : Effort) (place candidate : Nat) (known : Nat × Nat) : Nat × Nat :=
  if candidate = 0 || candidate + farthest < place then (2, known.2)
  else
    let chain := if e.good ≤ known.1 then e.chain / 4 else e.chain
    let (length, start) := c.longest e place chain candidate known
    (min length (c.text.size - place), start)

/-- Tells a text step by step, taking each copy at once. -/
def tellAtOnce (level : Nat) (e : Effort) : Nat → Nat → Chains → Telling → Telling
  | 0, _, _, t => t
  | fuel + 1, place, c, t =>
    if c.text.size ≤ place then t
    else
      let (candidate, c) := c.insert place
      let (length, start) := c.copyAt e place candidate (2, 0)
      if 3 ≤ length then
        let after := place + length
        let t := t.add level (.copy length (place - start)) place after
        if length ≤ e.lazy then
          tellAtOnce level e fuel after (c.insertAll (place + 1) (length - 1)) t
        else tellAtOnce level e fuel after c t
      else
        let t := t.add level (.literal (c.octet place)) place (place + 1)
        tellAtOnce level e fuel (place + 1) c t

/-- Tells a text step by step. A copy that was found at the place before is known, if there is one,
and so is whether the octet before is still to be told. -/
def tellPuttingOff (level : Nat) (e : Effort) :
    Nat → Nat → Nat × Nat → Bool → Chains → Telling → Telling
  | 0, _, _, _, _, t => t
  | fuel + 1, place, known, pending, c, t =>
    if c.text.size ≤ place then
      if pending then t.add level (.literal (c.octet (place - 1))) place place else t
    else
      let (candidate, c) := c.insert place
      let (length, start) :=
        if known.1 < e.lazy then c.copyAt e place candidate known else (2, known.2)
      let length := if length = 3 && farthestShort < place - start then 2 else length
      if 3 ≤ known.1 && length ≤ known.1 then
        let after := place - 1 + known.1
        let t := t.add level (.copy known.1 (place - 1 - known.2)) place after
        tellPuttingOff level e fuel after (2, start) false
          (c.insertAll (place + 1) (known.1 - 2)) t
      else
        let t := if pending then t.add level (.literal (c.octet (place - 1))) place place else t
        tellPuttingOff level e fuel (place + 1) (length, start) true c t

end Chains

/-- The blocks that tell a text. -/
def blocksOf (level : Nat) (text : ByteArray) : List Block :=
  let e := Effort.ofLevel level
  let c := Chains.ofText text
  let fuel := text.size + 2
  let t := if e.putsOff then Chains.tellPuttingOff level e fuel 0 (2, 0) false c {}
    else Chains.tellAtOnce level e fuel 0 c {}
  (⟨t.start, text.size, t.steps⟩ :: t.blocks).reverse

theorem farthest_lt_chainCount : farthest < chainCount := by decide

end PatchSearch.Shell.Deflate

/-!
Texts written in short form, block by block. A block has codes of its own, which are told in front
of it, or those that hold everywhere, or the octets as they are, whatever is shortest.
-/
namespace PatchSearch.Shell.Deflate

/-- Bits that are written, lowest ones first. -/
structure BitWriter where
  bytes : ByteArray := ByteArray.empty
  /-- Bits that do not fill an octet yet. -/
  held : Nat := 0
  count : Nat := 0

namespace BitWriter

/-- Gives away full octets. -/
def pour (w : BitWriter) : Nat → BitWriter
  | 0 => w
  | fuel + 1 =>
    if w.count < 8 then w
    else
      pour { bytes := w.bytes.push (UInt8.ofNat w.held), held := w.held / 256, count := w.count - 8 }
        fuel

/-- Writes some bits of a number. -/
def put (w : BitWriter) (value bits : Nat) : BitWriter :=
  { w with held := w.held + value * Nat.pow 2 w.count, count := w.count + bits }.pour 8

/-- Fills the last octet. -/
def flush (w : BitWriter) : BitWriter :=
  if w.count = 0 then w
  else { bytes := w.bytes.push (UInt8.ofNat w.held), held := 0, count := 0 }

end BitWriter

/-- Some bits of a number from the last one to the first one. -/
def turned (value : Nat) : Nat → Nat
  | 0 => 0
  | bits + 1 => value % 2 * Nat.pow 2 bits + turned (value / 2) bits

/-- The codes of an alphabet, as they are written, with their lengths. -/
structure CodeTable where
  codes : Array Nat
  lengths : Array Nat

namespace CodeTable

def ofLengths (lengths : Array Nat) : CodeTable :=
  let codes := codesOf lengths
  { codes := ((codes.toList.zip lengths.toList).map fun (c, n) => turned c n).toArray, lengths }

/-- Writes a symbol. -/
def put (t : CodeTable) (w : BitWriter) (symbol : Nat) : BitWriter :=
  w.put (t.codes.getD symbol 0) (t.lengths.getD symbol 0)

end CodeTable

/-- The symbols of a step, each with bits behind it: for a copy its length and its distance. -/
def putStep (steps distances : CodeTable) (w : BitWriter) : Step → BitWriter
  | .literal n => steps.put w n
  | .copy length distance =>
    let number (classes : Array NumberClass) (n : Nat) : Nat × Nat × Nat :=
      let k := classOf classes n
      match classes[k]? with
      | some c => (k, n - c.least, c.bits)
      | none => (k, 0, 0)
    let (k, value, bits) := number lengthClasses length
    let w := (steps.put w (firstLength + k)).put value bits
    let (k, value, bits) := number distanceClasses distance
    (distances.put w k).put value bits

/-- How often each symbol is used in a block, in both alphabets. -/
def frequencies (steps : Array Step) : Array Nat × Array Nat :=
  let start := (Array.replicate stepSymbols 0).setIfInBounds endSymbol 1
  steps.foldl (fun (f, g) s =>
    match s with
    | .literal n => (f.modify n (· + 1), g)
    | .copy length distance =>
      (f.modify (firstLength + classOf lengthClasses length) (· + 1),
        g.modify (classOf distanceClasses distance) (· + 1)))
    (start, Array.replicate distanceSymbols 0)

/-- How many bits follow a symbol of each alphabet. -/
def bitsBehind (classes : Array NumberClass) (first symbol : Nat) : Nat :=
  if symbol < first then 0 else ((classes[symbol - first]?).map NumberClass.bits).getD 0

/-- Lengths of codes up to the last one that is used. -/
def usedLengths (lengths : Array Nat) : List Nat :=
  (lengths.toList.reverse.dropWhile (· = 0)).reverse

/-- Writes a block; the last one is marked. -/
def putBlock (text : ByteArray) (w : BitWriter) (b : Block) (isLast : Bool) : BitWriter :=
  let (f, g) := frequencies b.steps
  let stepLengths := codeLengths 15 f
  let distanceLengths := codeLengths 15 g
  let further := bitsBehind lengthClasses firstLength
  let behind := bitsBehind distanceClasses 0
  let (steps, distances) := (usedLengths stepLengths, usedLengths distanceLengths)
  let symbols := lengthSymbols none 0 steps ++ lengthSymbols none 0 distances
  let h := symbols.foldl (fun h s => h.modify s.symbol (· + 1)) (Array.replicate 19 0)
  let nested := codeLengths 7 h
  let told := lengthOrder.length - (lengthOrder.reverse.takeWhile fun n => nested.getD n 0 = 0).length
  let told := max 4 told
  let nestedBits (n : Nat) : Nat := if n = 16 then 2 else if n = 17 then 3 else if n = 18 then 7 else 0
  let own := codedSize f stepLengths further + codedSize g distanceLengths behind +
    codedSize h nested nestedBits + 3 * told + 14
  let plain := codedSize f plainStepLengths further + codedSize g plainDistanceLengths behind
  let (ownSize, plainSize) := ((own + 10) / 8, (plain + 10) / 8)
  let best := min ownSize plainSize
  let size := b.stop - b.start
  let last := if isLast then 1 else 0
  let writeSteps (w : BitWriter) (steps distances : CodeTable) : BitWriter :=
    steps.put (b.steps.foldl (putStep steps distances) w) endSymbol
  if size + 4 ≤ best then
    let w := (w.put last 3).flush
    let w := (w.put size 16).put (65535 - size) 16
    { w with bytes := w.bytes ++ text.extract b.start b.stop }
  else if plainSize ≤ ownSize then
    writeSteps (w.put (2 + last) 3) (.ofLengths plainStepLengths) (.ofLengths plainDistanceLengths)
  else
    let w := (((w.put (4 + last) 3).put (steps.length - 257) 5).put (distances.length - 1) 5).put
      (told - 4) 4
    let w := (lengthOrder.take told).foldl (fun w n => w.put (nested.getD n 0) 3) w
    let table := CodeTable.ofLengths nested
    let w := symbols.foldl (fun w s => (table.put w s.symbol).put s.value s.bits) w
    writeSteps w (.ofLengths stepLengths) (.ofLengths distanceLengths)

/-- A text in short form. -/
def deflate (level : Nat) (text : ByteArray) : ByteArray :=
  let blocks := blocksOf level text
  let count := blocks.length
  ((blocks.zipIdx 1).foldl (fun w (b, i) => putBlock text w b (i = count)) ({} : BitWriter)).flush.bytes

theorem turned_zero (bits : Nat) : turned 0 bits = 0 := by
  induction bits with
  | zero => rfl
  | succ n ih => simp [turned, ih]

end PatchSearch.Shell.Deflate

/-!
Texts read from their short form.
-/
namespace PatchSearch.Shell.Deflate

/-- Why a short form cannot be read. -/
inductive ReadFault where
  /-- It ends too early. -/
  | early
  | malformed
  deriving DecidableEq

/-- How far a short form is read: the next bit, and the text so far. -/
structure Reading where
  source : ByteArray
  place : Nat
  text : ByteArray := ByteArray.empty
  fault : Option ReadFault := none

namespace Reading

/-- The next bit. -/
def bit (r : Reading) : Nat × Reading :=
  if h : r.place / 8 < r.source.size then
    ((r.source[r.place / 8]).toNat / Nat.pow 2 (r.place % 8) % 2, { r with place := r.place + 1 })
  else (0, { r with fault := r.fault.or (some .early) })

/-- The next bits as a number, lowest ones first. -/
def bits (r : Reading) : Nat → Nat × Reading
  | 0 => (0, r)
  | n + 1 =>
    let (b, r) := r.bit
    let (rest, r) := r.bits n
    (b + 2 * rest, r)

/-- Leaves an octet that is read in part. -/
def align (r : Reading) : Reading :=
  { r with place := (r.place + 7) / 8 * 8 }

/-- Ends with a fault. -/
def spoiled (r : Reading) : Reading :=
  { r with fault := r.fault.or (some .malformed) }

end Reading

/-- The symbols of an alphabet by their codes: how many codes of each length there are, and the
symbols, those with short codes first. -/
structure SymbolTable where
  counts : Array Nat
  symbols : Array Nat

namespace SymbolTable

def ofLengths (lengths : Array Nat) : SymbolTable :=
  let symbols := (List.range longestCode).flatMap fun n =>
    (List.range lengths.size).filter fun s => lengths.getD s 0 = n + 1
  { counts := lengthCounts lengths, symbols := symbols.toArray }

/-- Reads a symbol. Of the codes of one length, the first one and its index are known. -/
def read (t : SymbolTable) (r : Reading) : Nat → Nat → Nat → Nat → Nat × Reading
  | 0, _, _, _ => (0, r.spoiled)
  | fuel + 1, code, first, index =>
    let (b, r) := r.bit
    let code := code + b
    let count := t.counts.getD (longestCode - fuel) 0
    if r.fault.isSome then (0, r)
    else if code < first + count then (t.symbols.getD (index + (code - first)) 0, r)
    else read t r fuel (2 * code) (2 * (first + count)) (index + count)

/-- The next symbol. -/
def next (t : SymbolTable) (r : Reading) : Nat × Reading :=
  t.read r longestCode 0 0 0

end SymbolTable

namespace Reading

/-- Repeats octets that stood at a distance before. -/
def repeated (r : Reading) (distance : Nat) : Nat → Reading
  | 0 => r
  | n + 1 =>
    let octet := (r.text[r.text.size - distance]?).getD 0
    repeated { r with text := r.text.push octet } distance n

/-- Reads steps up to the end of a block. -/
def steps (lengths distances : SymbolTable) : Nat → Reading → Reading
  | 0, r => r.spoiled
  | fuel + 1, r =>
    let (symbol, r) := lengths.next r
    if r.fault.isSome || symbol = endSymbol then r
    else if symbol < endSymbol then
      steps lengths distances fuel { r with text := r.text.push (UInt8.ofNat symbol) }
    else
      match lengthClasses[symbol - firstLength]? with
      | none => r.spoiled
      | some c =>
        let (value, r) := r.bits c.bits
        let (k, r) := distances.next r
        match distanceClasses[k]? with
        | none => r.spoiled
        | some d =>
          let (far, r) := r.bits d.bits
          let distance := d.least + far
          if r.fault.isSome then r
          else if r.text.size < distance then r.spoiled
          else steps lengths distances fuel (r.repeated distance (c.least + value))

/-- Reads lengths of codes up to some number of them. -/
def codeLengths (t : SymbolTable) (count : Nat) : Nat → Reading → Array Nat → Array Nat × Reading
  | 0, r, lengths => (lengths, r)
  | fuel + 1, r, lengths =>
    if count ≤ lengths.size || r.fault.isSome then (lengths, r)
    else
      let (symbol, r) := t.next r
      if symbol < 16 then codeLengths t count fuel r (lengths.push symbol)
      else
        let (value, least, bits) :=
          if symbol = 16 then (lengths.back?.getD 0, 3, 2) else if symbol = 17 then (0, 3, 3)
          else (0, 11, 7)
        let (more, r) := r.bits bits
        let r := if symbol = 16 && lengths.isEmpty then r.spoiled else r
        codeLengths t count fuel r (lengths ++ Array.replicate (least + more) value)

/-- Reads octets that stand as they are. -/
def plainOctets (r : Reading) : Reading :=
  let (size, r) := r.align.bits 16
  let (check, r) := r.bits 16
  if r.fault.isSome then r
  else if size + check ≠ 65535 then r.spoiled
  else
    let start := r.place / 8
    let part := r.source.extract start (start + size)
    let r := { r with text := r.text ++ part, place := r.place + 8 * part.size }
    if part.size < size then { r with fault := some .early } else r

/-- Reads a block that tells its own codes. -/
def ownCodes (r : Reading) (fuel : Nat) : Reading :=
  let (a, r) := r.bits 5
  let (b, r) := r.bits 5
  let (c, r) := r.bits 4
  let (nested, r) := (lengthOrder.take (c + 4)).foldl (fun (nested, r) n =>
    let (v, r) := r.bits 3
    (nested.setIfInBounds n v, r)) (Array.replicate 19 0, r)
  let count := a + b + 258
  let (lengths, r) := codeLengths (.ofLengths nested) count (count + 1) r #[]
  if r.fault.isSome then r
  else if lengths.size ≠ count || lengths.getD endSymbol 0 = 0 then r.spoiled
  else
    r.steps (.ofLengths (lengths.extract 0 (a + 257))) (.ofLengths (lengths.extract (a + 257) count))
      fuel

/-- Reads blocks up to the last one. -/
def blocks : Nat → Reading → Reading
  | 0, r => r.spoiled
  | fuel + 1, r =>
    let (isLast, r) := r.bit
    let (form, r) := r.bits 2
    if r.fault.isSome then r
    else
      let size := 8 * r.source.size + 1
      let r := match form with
        | 0 => r.plainOctets
        | 1 => r.steps (.ofLengths plainStepLengths) (.ofLengths plainDistanceLengths) size
        | 2 => r.ownCodes size
        | _ => r.spoiled
      if r.fault.isSome || isLast = 1 then r else blocks fuel r

end Reading

/-- The text whose short form starts at an octet, and where it ends; also the part of the text that
could be read, if not all of it could. -/
def inflate (source : ByteArray) (start : Nat) : Reading :=
  (Reading.blocks (8 * source.size + 1) { source, place := 8 * start }).align

theorem Reading.align_text (r : Reading) : r.align.text = r.text := rfl

/-!
Packed files. A packed file holds texts in short form, each behind a heading, which may tell a name
and a time, and before a checksum and the size of the text.
-/

/-- What eight divisions of an octet leave behind. -/
def checkTable : Array UInt32 :=
  ((List.range 256).map fun n =>
    (List.range 8).foldl (fun (c : UInt32) _ =>
      if c &&& 1 = 1 then (c >>> 1) ^^^ 0xEDB88320 else c >>> 1) (UInt32.ofNat n)).toArray

/-- The checksum of a text: the remainder of a division of its bits, low ones first. -/
def checksum (text : ByteArray) : Nat :=
  let c := text.foldl (fun (c : UInt32) b =>
    checkTable.getD ((c ^^^ b.toUInt32) &&& 255).toNat 0 ^^^ (c >>> 8)) 0xFFFFFFFF
  (c ^^^ 0xFFFFFFFF).toNat

/-- A number in some octets, low ones first. -/
def lowFirst (n : Nat) : Nat → ByteArray
  | 0 => ByteArray.empty
  | k + 1 => (ByteArray.empty.push (UInt8.ofNat n)) ++ lowFirst (n / 256) k

/-- What the heading of a text tells. -/
structure Heading where
  name : Option String := none
  /-- Seconds; zero if no time is told. -/
  time : Nat := 0

/-- The octets of a heading. -/
def Heading.encode (h : Heading) (level : Nat) : ByteArray :=
  let flags := if h.name.isSome then 8 else 0
  let hardness := if level = 1 then 4 else if level = 9 then 2 else 0
  ByteArray.mk #[0x1f, 0x8b, 8, flags] ++ lowFirst h.time 4 ++ ByteArray.mk #[hardness, 3] ++
    match h.name with
    | some name => octetBytes (name ++ "\x00")
    | none => ByteArray.empty

/-- A text packed. -/
def pack (h : Heading) (level : Nat) (text : ByteArray) : ByteArray :=
  h.encode level ++ deflate level text ++ lowFirst (checksum text) 4 ++ lowFirst text.size 4

/-- Why a packed file cannot be unpacked. -/
inductive UnpackFault where
  | foreign
  | early
  | malformed
  | wrongSum
  | wrongSize
  | unknownMethod (n : Nat)
  deriving DecidableEq

namespace UnpackFault

/-- The fault in words. -/
def message : UnpackFault → String
  | foreign => "not in gzip format"
  | early => "unexpected end of file"
  | malformed => "invalid compressed data--format violated"
  | wrongSum => "invalid compressed data--crc error"
  | wrongSize => "invalid compressed data--length error"
  | unknownMethod n => "unknown method " ++ toString n ++ " -- not supported"

end UnpackFault

/-- What came of unpacking: the text as far as it could be read, the first heading, how many octets
headings and sums took, the last sum, and what is wrong. -/
structure Unpacked where
  text : ByteArray := ByteArray.empty
  heading : Heading := {}
  around : Nat := 0
  sum : Nat := 0
  faults : List UnpackFault := []
  /-- Whether something else follows. -/
  hasRest : Bool := false

/-- A number of some octets from a place on, low ones first. -/
def numberAt (source : ByteArray) (start : Nat) : Nat → Nat
  | 0 => 0
  | k + 1 => ((source[start]?).map UInt8.toNat).getD 0 + 256 * numberAt source (start + 1) k

/-- The place behind the next zero octet. -/
def behindZero (source : ByteArray) : Nat → Nat → Option Nat
  | 0, _ => none
  | fuel + 1, k =>
    match source[k]? with
    | none => none
    | some b => if b = 0 then some (k + 1) else behindZero source fuel (k + 1)

/-- A heading from a place on, and where it ends. -/
def readHeading (source : ByteArray) (start : Nat) : Except UnpackFault (Heading × Nat) := do
  let size := source.size
  if size < start + 2 then throw .early
  if numberAt source start 2 ≠ 0x8b1f then throw .foreign
  if size < start + 3 then throw .early
  let method := numberAt source (start + 2) 1
  if method ≠ 8 then throw (.unknownMethod method)
  if size < start + 10 then throw .early
  let flags := numberAt source (start + 3) 1
  let has (k : Nat) : Bool := flags / Nat.pow 2 k % 2 = 1
  let place := start + 10
  let place := if has 2 then place + 2 + numberAt source place 2 else place
  let behind (place : Nat) : Except UnpackFault Nat :=
    match behindZero source size place with
    | some k => .ok k
    | none => .error .early
  let nameEnd ← if has 3 then behind place else pure place
  let noteEnd ← if has 4 then behind nameEnd else pure nameEnd
  let stop := if has 1 then noteEnd + 2 else noteEnd
  if size < stop then throw .early
  let name := if has 3 then some (octetsOfBytes (source.extract place (nameEnd - 1))) else none
  return ({ name, time := numberAt source (start + 4) 4 }, stop)

/-- Unpacks the texts from a place on behind what was unpacked so far. -/
def unpackFrom (source : ByteArray) : Nat → Nat → Unpacked → Unpacked
  | 0, _, u => u
  | fuel + 1, start, u =>
    match readHeading source start with
    | .error e => { u with faults := [e] }
    | .ok (heading, place) =>
      let r := inflate source place
      let u := { u with
        text := u.text ++ r.text
        heading := if start = 0 then heading else u.heading
        around := u.around + (place - start) + 8 }
      match r.fault with
      | some .early => { u with faults := [.early] }
      | some .malformed => { u with faults := [.malformed] }
      | none =>
        let stop := r.place / 8
        if source.size < stop + 8 then { u with faults := [.early] }
        else
          let sum := numberAt source stop 4
          let faults := (if sum = checksum r.text then [] else [UnpackFault.wrongSum]) ++
            if numberAt source (stop + 4) 4 = r.text.size % 0x100000000 then [] else [.wrongSize]
          let u := { u with sum, faults }
          let rest := source.extract (stop + 8) source.size
          if !faults.isEmpty || rest.isEmpty || rest.toList.all (· == 0) then u
          else if rest.size < 2 || numberAt rest 0 2 ≠ 0x8b1f then { u with hasRest := true }
          else unpackFrom source fuel (stop + 8) u

/-- What came of unpacking a file. -/
def unpack (source : ByteArray) : Unpacked :=
  unpackFrom source (source.size + 1) 0 {}

theorem lowFirst_zero (n : Nat) : lowFirst n 0 = ByteArray.empty := rfl

end PatchSearch.Shell.Deflate
