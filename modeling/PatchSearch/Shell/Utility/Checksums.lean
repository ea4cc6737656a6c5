import PatchSearch.Digest
import PatchSearch.Shell.Utility.Streams

/-!
Octets as digits of larger bases: `base64` writes three octets as four digits and `base32` five
octets as eight.
-/
namespace PatchSearch.Shell

open Run

/-- A base: how many bits a digit has, how many digits stand for a whole group of octets, and the
digits. -/
structure DigitBase where
  bits : Nat
  group : Nat
  digits : List Char
  /-- Whether what is left of a group that is cut off counts for nothing. -/
  needsWhole : Bool := false

namespace DigitBase

def sixtyFour : DigitBase :=
  ⟨6, 4, "ABCDEFGHIJKLMNOPQRSTUVWXYZabcdefghijklmnopqrstuvwxyz0123456789+/".toList, false⟩

def thirtyTwo : DigitBase :=
  ⟨5, 8, "ABCDEFGHIJKLMNOPQRSTUVWXYZ234567".toList, true⟩

/-- The digits of a number, the highest first. -/
def digitsOf (b : DigitBase) (n count : Nat) : List Char :=
  (List.range count).map fun i =>
    (b.digits[n / Nat.pow 2 (b.bits * (count - 1 - i)) % Nat.pow 2 b.bits]?).getD '='

/-- A number of octets or digits of so many bits, the highest first. -/
def number (bits : Nat) (ds : List Nat) : Nat :=
  ds.foldl (fun n d => n * Nat.pow 2 bits + d) 0

/-- The digits of a group of octets that may not be full; signs fill it up. -/
def encodeGroup (b : DigitBase) (octets : List Char) : List Char :=
  let count := (octets.length * 8 + b.bits - 1) / b.bits
  let n := number 8 (octets.map Char.toNat) * Nat.pow 2 (count * b.bits - octets.length * 8)
  b.digitsOf n count ++ List.replicate (b.group - count) '='

/-- Octets group by group. -/
def encode (b : DigitBase) : Nat → List Char → List Char
  | 0, _ => []
  | _, [] => []
  | n + 1, cs =>
    let size := b.group * b.bits / 8
    b.encodeGroup (cs.take size) ++ encode b n (cs.drop size)

/-- The octets of a group of digits, and whether the group is well formed. -/
def decodeGroup (b : DigitBase) (ds : List Char) : List Char × Bool :=
  let given := if b.needsWhole && ds.length < b.group then [] else ds.takeWhile b.digits.contains
  let size := given.length * b.bits / 8
  let n := number b.bits (given.map b.digits.idxOf) / Nat.pow 2 (given.length * b.bits - size * 8)
  let octets := (List.range size).map fun i =>
    Char.ofNat (n / Nat.pow 256 (size - 1 - i) % 256)
  let padding := ds.drop given.length
  (octets, ds.length = b.group && padding.all (· == '=') &&
    given.length = (size * 8 + b.bits - 1) / b.bits && !given.isEmpty)

/-- Octets of digits group by group, and whether all groups are well formed. -/
def decode (b : DigitBase) : Nat → List Char → List Char × Bool
  | 0, _ => ([], true)
  | _, [] => ([], true)
  | n + 1, cs =>
    let (octets, isGood) := b.decodeGroup (cs.take b.group)
    if !isGood then (octets, false)
    else
      let (rest, isGood) := decode b n (cs.drop b.group)
      (octets ++ rest, isGood)

example : sixtyFour.encode 3 "ab".toList = "YWI=".toList := by decide +kernel

example : sixtyFour.decode 3 "YWI=".toList = ("ab".toList, true) := by decide +kernel

end DigitBase

/-- A text cut into pieces of a length. -/
def piecesOf (size : Nat) : Nat → List Char → List (List Char)
  | 0, _ => []
  | _, [] => []
  | n + 1, cs => cs.take size :: piecesOf size n (cs.drop size)

/-- `base64` and `base32`. -/
def encodeInBase (name : String) (b : DigitBase) : Utility :=
  withOptions name
    { plain := "di", valued := "w"
      long := [("decode", 'd'), ("wrap", 'w'), ("ignore-garbage", 'i')] }
    fun o => do
      let width ← match o.value? 'w' with
        | some w => do
          match integer? w with
          | some n => if n < 0 then fail name 1 ("invalid wrap size: " ++ cited w) else pure n.toNat
          | none => fail name 1 ("invalid wrap size: " ++ cited w)
        | none => pure 76
      if let some extra := o.operands[1]? then misuse name 1 ("extra operand " ++ cited extra)
      let input := o.operands.headD "-"
      match ← openInput input with
      | .error e => fail name 1 (shownName input ++ ": " ++ causeText e)
      | .ok none => fail name 1 "read error: Bad file descriptor"
      | .ok (some c) =>
        match ← readAll c with
        | .error e => fail name 1 ("read error: " ++ e.message)
        | .ok s =>
          if o.has 'd' then
            let cs := s.toList.filter fun c =>
              c != '\n' && !(o.has 'i' && c != '=' && !b.digits.contains c)
            let (octets, isGood) := b.decode (cs.length + 1) cs
            emit name (String.ofList octets)
            if !isGood then fail name 1 "invalid input"
          else
            let cs := b.encode (s.length + 1) s.toList
            if width = 0 then emit name (String.ofList cs)
            else emit name (joinLines ((piecesOf width (cs.length + 1) cs).map String.ofList))

/-!
Check sums of files: `md5sum` and its kind write the digests of files and verify lists of them,
and `cksum` and `sum` write sums of octets.
-/

/-- A kind of digest: how lines name it, and how many octets it has. -/
structure DigestKind where
  tag : String
  size : Nat
  compute : List UInt8 → List UInt8

namespace DigestKind

def md5 : DigestKind :=
  ⟨"MD5", 16, Digest.md5⟩

def sha1 : DigestKind :=
  ⟨"SHA1", 20, Digest.sha1⟩

def sha224 : DigestKind :=
  ⟨"SHA224", 28, Digest.sha224⟩

def sha256 : DigestKind :=
  ⟨"SHA256", 32, Digest.sha256⟩

def sha384 : DigestKind :=
  ⟨"SHA384", 48, Digest.sha384⟩

def sha512 : DigestKind :=
  ⟨"SHA512", 64, Digest.sha512⟩

def blake2 (size : Nat) : DigestKind :=
  ⟨"BLAKE2b" ++ (if size = 64 then "" else "-" ++ toString (8 * size)), size, Digest.blake2 size⟩

/-- The kinds by the names that options give them. -/
def named (size : Nat) : List (String × DigestKind) :=
  [("md5", md5), ("sha1", sha1), ("sha224", sha224), ("sha256", sha256), ("sha384", sha384),
    ("sha512", sha512), ("blake2b", blake2 size)]

/-- The digest of octets in hexadecimal digits. -/
def hex (k : DigestKind) (s : String) : String :=
  Digest.hexText (k.compute (octetBytes s).toList)

end DigestKind

/-- How digests are written and verified. -/
structure DigestForm where
  tagged : Bool := false
  binary : Bool := false
  nulls : Bool := false
  quiet : Bool := false
  silent : Bool := false
  warns : Bool := false
  strict : Bool := false
  skipsMissing : Bool := false
  inSixtyFour : Bool := false

/-- A name in which line ends and backslashes are escaped, and whether there are any. -/
def escapedName (name : String) : String × Bool :=
  let escape (c : Char) : String :=
    match c with
    | '\\' => "\\\\"
    | '\n' => "\\n"
    | '\r' => "\\r"
    | c => String.singleton c
  let text := String.join (name.toList.map escape)
  (text, text != name)

/-- A name without its escapes. -/
def unescapedName : List Char → List Char
  | '\\' :: 'n' :: cs => '\n' :: unescapedName cs
  | '\\' :: 'r' :: cs => '\r' :: unescapedName cs
  | '\\' :: '\\' :: cs => '\\' :: unescapedName cs
  | c :: cs => c :: unescapedName cs
  | [] => []

/-- The line for a file and its digest. -/
def digestLine (f : DigestForm) (k : DigestKind) (name : String) (s : String) : String :=
  let (shown, escaped) := if f.nulls then (name, false) else escapedName name
  let bytes := k.compute (octetBytes s).toList
  let digest := if f.inSixtyFour then
      let cs := bytes.map fun b => Char.ofNat b.toNat
      String.ofList (DigitBase.sixtyFour.encode (cs.length + 1) cs)
    else Digest.hexText bytes
  (if escaped then "\\" else "") ++
    (if f.tagged then k.tag ++ " (" ++ shown ++ ") = " ++ digest
      else digest ++ (if f.binary then " *" else "  ") ++ shown) ++
    if f.nulls then "\x00" else "\n"

/-- A line of a list of digests: the kind, the digest in small letters, and the name. -/
def readDigestLine (kinds : List DigestKind) (untagged : Option DigestKind) (line : String) :
    Option (DigestKind × String × String) :=
  let cs := line.toList.dropWhile fun c => c == ' ' || c == '\t'
  let escaped := cs.head? == some '\\'
  let cs := if escaped then cs.drop 1 else cs
  let name (cs : List Char) : String := String.ofList (if escaped then unescapedName cs else cs)
  let isHex (c : Char) : Bool := c.isDigit || "abcdefABCDEF".toList.contains c
  let lower (cs : List Char) : String := String.ofList (cs.map Char.toLower)
  let tagged := kinds.findSome? fun k =>
    let front := (k.tag ++ " (").toList
    if !front.isPrefixOf cs then none
    else
      let body := cs.drop front.length
      let digest := (body.reverse.takeWhile isHex).reverse
      let before := body.take (body.length - digest.length)
      if digest.length = 2 * k.size && before.drop (before.length - 4) == ") = ".toList then
        some (k, lower digest, name (before.take (before.length - 4)))
      else none
  match tagged, untagged with
  | some found, _ => some found
  | none, none => none
  | none, some k =>
    let digest := cs.take (2 * k.size)
    match cs.drop (2 * k.size) with
    | blank :: rest =>
      if digest.length = 2 * k.size && digest.all isHex && (blank == ' ' || blank == '\t') &&
          !rest.isEmpty then
        let marked := 1 < rest.length && (rest.head? == some ' ' || rest.head? == some '*')
        some (k, lower digest, name (if marked then rest.drop 1 else rest))
      else none
    | [] => none

/-- What was found of a list of digests. -/
structure DigestTally where
  listed : Nat := 0
  matched : Nat := 0
  differing : Nat := 0
  unreadable : Nat := 0
  malformed : Nat := 0

/-- Verifies the files of a list of digests. -/
def verifyDigests (program : String) (f : DigestForm) (kinds : List DigestKind)
    (untagged : Option DigestKind) (list : String) : Run Unit := do
  let shownList := if list == "-" then "\x27standard input\x27" else shownName list
  match ← openInput list with
  | .error e => lament program (shownName list ++ ": " ++ causeText e)
  | .ok none => lament program (shownName list ++ ": Bad file descriptor")
  | .ok (some c) =>
    match ← readAll c with
    | .error _ => lament program (shownList ++ ": read error")
    | .ok s =>
      let mut t : DigestTally := {}
      for (line, i) in (splitLines s).zipIdx 1 do
        if line.startsWith "#" then continue
        match readDigestLine kinds untagged line with
        | none =>
          if f.warns then
            warn program (shownList ++ ": " ++ toString i ++ ": improperly formatted " ++
              ((untagged.map DigestKind.tag).getD "CRC") ++ " checksum line")
          t := { t with malformed := t.malformed + 1 }
        | some (k, digest, name) =>
          t := { t with listed := t.listed + 1 }
          let (shown, escaped) := escapedName name
          let shown := (if escaped then "\\" else "") ++ shown
          match ← readInput name with
          | .error cause =>
            if !(f.skipsMissing && cause == "No such file or directory") then
              t := { t with unreadable := t.unreadable + 1 }
              warn program (shownName name ++ ": " ++ cause)
              if !f.silent then emit program (shown ++ ": FAILED open or read\n")
          | .ok content =>
            if k.hex content == digest then
              t := { t with matched := t.matched + 1 }
              if !f.silent && !f.quiet then emit program (shown ++ ": OK\n")
            else
              t := { t with differing := t.differing + 1 }
              if !f.silent then emit program (shown ++ ": FAILED\n")
      let counted (n : Nat) (one many : String) : Run Unit := do
        if n != 0 && !f.silent then
          warn program ("WARNING: " ++ toString n ++ " " ++ if n = 1 then one else many)
      if t.listed = 0 then
        warn program (shownList ++ ": no properly formatted checksum lines found")
      else
        counted t.malformed "line is improperly formatted" "lines are improperly formatted"
        counted t.unreadable "listed file could not be read" "listed files could not be read"
        counted t.differing "computed checksum did NOT match"
          "computed checksums did NOT match"
        if f.skipsMissing && t.matched = 0 && !f.silent then
          warn program (shownList ++ ": no file was verified")
      if t.listed = 0 || t.matched = 0 || t.differing != 0 || t.unreadable != 0 ||
          f.strict && t.malformed != 0 then
        setStatus 1

/-- What utilities of digests understand. -/
def digestOptions : OptionNames :=
  { plain := "bctwzτυσμκ", valued := "la"
    long := [("binary", 'b'), ("check", 'c'), ("text", 't'), ("warn", 'w'), ("zero", 'z'),
      ("tag", 'τ'), ("quiet", 'υ'), ("status", 'σ'), ("ignore-missing", 'μ'), ("strict", 'κ'),
      ("length", 'l')] }

/-- What is wrong with options of digests that only count where a list is verified, or where none
is. -/
def digestMisuse? (o : Options) (tagged : Bool) : Option String :=
  let only (c : Char) (name : String) : Option String :=
    if o.has c && !o.has 'c' then
      some ("the --" ++ name ++ " option is meaningful only when verifying checksums")
    else none
  if tagged && o.last? ['b', 't'] == some 't' && o.has 'τ' then
    some "--tag does not support --text mode"
  else if o.has 'z' && o.has 'c' then
    some "the --zero option is not supported when verifying checksums"
  else if o.has 'τ' && o.has 'c' then
    some "the --tag option is meaningless when verifying checksums"
  else if (o.has 'b' || o.has 't') && o.has 'c' then
    some "the --binary and --text options are meaningless when verifying checksums"
  else
    (only 'μ' "ignore-missing").or <| (only 'σ' "status").or <| (only 'w' "warn").or <|
      (only 'υ' "quiet").or (only 'κ' "strict")

/-- The form that options ask for. -/
def digestFormOf (o : Options) (tagged : Bool) : DigestForm :=
  { tagged
    binary := o.last? ['b', 't'] == some 'b'
    nulls := o.has 'z'
    quiet := o.has 'υ'
    silent := o.last? ['σ', 'w', 'υ'] == some 'σ'
    warns := o.has 'w'
    strict := o.has 'κ'
    skipsMissing := o.has 'μ'
    inSixtyFour := o.has '6' }

/-- Writes the digests of inputs, or verifies lists of them. -/
def writeDigests (program : String) (o : Options) (f : DigestForm) (kind : DigestKind)
    (kinds : List DigestKind) (untagged : Option DigestKind) : Run Unit := do
  for input in operandsOrInput o do
    if o.has 'c' then verifyDigests program f kinds untagged input
    else
      match ← readInput input with
      | .ok s => emit program (digestLine f kind input s)
      | .error cause => lament program (shownName input ++ ": " ++ cause)

/-- The size of a digest that an option gives in bits. -/
def digestSize (program : String) (o : Options) : Run Nat := do
  match o.value? 'l' with
  | none => return 64
  | some s =>
    let n ← decimalWithin program "invalid length" 0 0xffffffffffffffff s
    let faulty (text : String) : Run Nat := do
      warn program ("invalid length: " ++ cited s)
      fail program 1 text
    if n % 8 != 0 then faulty "length is not a multiple of 8"
    else if 512 < n then
      faulty ("maximum digest length for " ++ cited "BLAKE2b" ++ " is 512 bits")
    else return if n = 0 then 64 else n.toNat / 8

/-- `md5sum` and its kind. -/
def digestProgram (program : String) (kind : DigestKind) : Utility :=
  withOptions program { digestOptions with valued := if program == "b2sum" then "l" else "" }
    fun o => do
      let size ← digestSize program o
      let kind := if program == "b2sum" then .blake2 size else kind
      if let some text := digestMisuse? o (o.has 'τ') then misuse program 1 text
      writeDigests program o (digestFormOf o (o.has 'τ')) kind [kind] (some kind)

/-- A sum of octets: the sum itself and how many blocks there are. -/
def sumLine (algorithm : String) (s : String) : String :=
  let bytes := (octetBytes s).toList
  let blocks (size : Nat) : Nat := (s.length + size - 1) / size
  match algorithm with
  | "bsd" =>
    let sum := toString (Digest.turningSum bytes)
    String.ofList (List.replicate (5 - sum.length) '0') ++ sum ++ " " ++ aligned 5 (blocks 1024)
  | "sysv" => toString (Digest.plainSum bytes) ++ " " ++ toString (blocks 512)
  | _ => toString (Digest.checkSum bytes).toNat ++ " " ++ toString s.length

/-- Writes the sums of inputs. -/
def writeSums (program algorithm : String) (o : Options) : Run Unit := do
  for input in operandsOrInput o do
    match ← readInput input with
    | .ok s =>
      emit program (sumLine algorithm s ++
        (if o.operands.isEmpty then "" else " " ++ input) ++ if o.has 'z' then "\x00" else "\n")
    | .error cause => lament program (shownName input ++ ": " ++ cause)

/-- `sum`. -/
def sumFiles : Utility :=
  withOptions "sum" { plain := "rs", long := [("sysv", 's')] } fun o =>
    writeSums "sum" (if o.last? ['r', 's'] == some 's' then "sysv" else "bsd") o

/-- `cksum`. -/
def checkFiles : Utility :=
  withOptions "cksum"
    { digestOptions with
      plain := "bctwzτυσμκν6δ"
      long := digestOptions.long ++
        [("algorithm", 'a'), ("untagged", 'ν'), ("base64", '6'), ("debug", 'δ')] }
    fun o => do
      let names := ["bsd", "sysv", "crc", "md5", "sha1", "sha224", "sha256", "sha384", "sha512",
        "blake2b", "sm3"]
      let algorithm ← match o.value? 'a' with
        | none => pure "crc"
        | some s =>
          match wordOf? names s with
          | some w => pure w
          | none => invalidWord "cksum" "--algorithm" s names
      let size ← digestSize "cksum" o
      if o.has 'l' && algorithm != "blake2b" then
        misuse "cksum" 1 "--length is only supported with --algorithm=blake2b"
      let kind := (DigestKind.named size).lookup algorithm
      if o.has 'c' && kind.isNone && o.has 'a' then
        misuse "cksum" 1 "--check is not supported with --algorithm=\x7bbsd,sysv,crc\x7d"
      if let some text := digestMisuse? o false then misuse "cksum" 1 text
      let tagged := o.last? ['τ', 'ν'] != some 'ν'
      let kinds := (DigestKind.named size).map Prod.snd
      match kind with
      | some k => writeDigests "cksum" o (digestFormOf o tagged) k [k] (some k)
      | none =>
        if o.has 'c' then writeDigests "cksum" o (digestFormOf o tagged) .md5 kinds none
        else writeSums "cksum" algorithm o

end PatchSearch.Shell
