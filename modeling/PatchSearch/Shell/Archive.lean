import PatchSearch.Shell.Octets
import PatchSearch.Shell.Calendar.Basic
import PatchSearch.Shell.Pattern
import PatchSearch.Shell.Rights

/-!
Archives: files, directories and links in one text, each behind a block of 512 octets that tells its
name, its rights, its size and its time. Two blocks of zeros end an archive.
-/
namespace PatchSearch.Shell.Archive

/-- What a member of an archive is. -/
inductive MemberKind where
  | file (content : String)
  | directory
  /-- A link by a path. -/
  | symbolic (target : String)
  /-- A further name of a member before it. -/
  | hard (target : String)

/-- A user or a group: its name and its number. -/
structure Owner where
  name : String := "root"
  number : Nat := 0

/-- Something in an archive. -/
structure Member where
  name : String
  kind : MemberKind
  rights : Nat
  /-- When it was changed last, in seconds. -/
  time : Nat
  user : Owner := {}
  group : Owner := {}

namespace Member

def content (m : Member) : String :=
  match m.kind with
  | .file s => s
  | _ => ""

def isDirectory (m : Member) : Bool :=
  match m.kind with
  | .directory => true
  | _ => false

end Member

/-- The size of a block, and of a record, to which whole archives are filled. -/
def blockSize : Nat := 512

def recordSize : Nat := 10240

/-- So many octets of nothing. -/
def zeroText (n : Nat) : String :=
  String.ofList (List.replicate n '\x00')

/-- A text filled up to whole blocks. -/
def filledBlocks (size : Nat) (s : String) : String :=
  s ++ zeroText ((size - s.length % size) % size)

/-- A number in octal digits, in a field that ends in a zero octet. -/
def octalField (width n : Nat) : String :=
  let digits := Nat.toDigits 8 n
  String.ofList (List.replicate (width - 1 - digits.length) '0' ++ digits) ++ "\x00"

/-- A text in a field of fixed width. -/
def textField (width : Nat) (s : String) : String :=
  let cs := s.toList.take width
  String.ofList cs ++ zeroText (width - cs.length)

/-- The sum of octets that guards a block; its own field counts as blanks. -/
def blockSum (block : List Char) : Nat :=
  (block.take 148).foldl (fun n c => n + c.toNat) 256 +
    (block.drop 156).foldl (fun n c => n + c.toNat) 0

/-- The block in front of a member. -/
def headingBlock (name : String) (rights size time : Nat) (user group : Owner) (letter : Char)
    (target : String) : String :=
  let front := textField 100 name ++ octalField 8 rights ++ octalField 8 user.number ++
    octalField 8 group.number ++ octalField 12 size ++ octalField 12 time
  let back := String.singleton letter ++ textField 100 target ++ "ustar  \x00" ++
    textField 32 user.name ++ textField 32 group.name ++ zeroText 183
  let sum := octalField 7 (blockSum ((front ++ "        " ++ back).toList))
  front ++ sum ++ " " ++ back

/-- A block in front of a member whose name, or the path that it leads to, is too long for it. -/
def longName (letter : Char) (s : String) : String :=
  if s.length ≤ 100 then ""
  else
    headingBlock "././@LongLink" 420 (s.length + 1) 0 {} {} letter "" ++
      filledBlocks blockSize (s ++ "\x00")

/-- A member as it stands in an archive. -/
def Member.encode (m : Member) : String :=
  let (letter, target) := match m.kind with
    | .file _ => ('0', "")
    | .directory => ('5', "")
    | .symbolic t => ('2', t)
    | .hard t => ('1', t)
  longName 'K' target ++ longName 'L' m.name ++
    headingBlock m.name m.rights m.content.length m.time m.user m.group letter target ++
    filledBlocks blockSize m.content

/-- An archive of members, filled up to records of some size. -/
def encode (record : Nat) (ms : List Member) : String :=
  filledBlocks record (String.join (ms.map Member.encode) ++ zeroText (2 * blockSize))

/-- How the reading of an archive came to its end. -/
inductive Ending where
  | proper
  /-- Behind only one block of zeros, which has a number. -/
  | lone (block : Nat)
  /-- Within a member. -/
  | early
  /-- It is none. -/
  | foreign
  deriving DecidableEq

/-- A text up to its first zero octet. -/
def textOfField (cs : List Char) : String :=
  String.ofList (cs.takeWhile (· != '\x00'))

/-- A number in octal digits, between blanks. -/
def numberOfField (cs : List Char) : Nat :=
  ((cs.dropWhile (· == ' ')).takeWhile fun c => '0' ≤ c && c ≤ '7').foldl
    (fun n c => 8 * n + (c.toNat - 48)) 0

/-- The part of a block from one place on. -/
def fieldAt (block : List Char) (start width : Nat) : List Char :=
  (block.drop start).take width

/-- The member that a block tells, given its content and longer texts in front of it. -/
def memberOf (block : List Char) (name target : Option String) (content : List Char) : Member :=
  let front := textOfField (fieldAt block 345 155)
  let isPlain := fieldAt block 257 6 == "ustar\x00".toList
  let short := textOfField (fieldAt block 0 100)
  let short := if isPlain && !front.isEmpty then front ++ "/" ++ short else short
  let name := name.getD short
  let target := target.getD (textOfField (fieldAt block 157 100))
  let owner (text number : Nat) : Owner :=
    ⟨textOfField (fieldAt block text 32), numberOfField (fieldAt block number 8)⟩
  let kind := match block[156]? with
    | some '1' => MemberKind.hard target
    | some '2' => .symbolic target
    | some '5' => .directory
    | _ => if name.endsWith "/" then .directory else .file (String.ofList content)
  { name, kind, rights := numberOfField (fieldAt block 100 8) % 4096
    time := numberOfField (fieldAt block 136 12), user := owner 265 108, group := owner 297 116 }

/-- The members of an archive, how its end came, and whether something in it was passed over. The
numbers bound the blocks and tell how many of them were read. -/
def decodeFrom : Nat → Nat → Option String → Option String → List Char →
    List Member × Ending × Bool
  | 0, _, _, _, _ => ([], .proper, false)
  | fuel + 1, passed, name, target, cs =>
    if cs.isEmpty then ([], .proper, false)
    else
      let block := cs.take blockSize
      let rest := cs.drop blockSize
      if block.length < blockSize then ([], if passed = 0 then .foreign else .early, false)
      else if block.all (· == '\x00') then
        let next := rest.take blockSize
        if next.length = blockSize && next.all (· == '\x00') then ([], .proper, false)
        else if rest.isEmpty then ([], .lone (passed + 1), false)
        else decodeFrom fuel (passed + 1) none none rest
      else if numberOfField (fieldAt block 148 8) ≠ blockSum block then
        if passed = 0 then ([], .foreign, false)
        else
          let (ms, ending, _) := decodeFrom fuel (passed + 1) none none rest
          (ms, ending, true)
      else
        let size := match block[156]? with
          | some '1' | some '2' | some '5' => 0
          | _ => numberOfField (fieldAt block 124 12)
        let blocks := (size + blockSize - 1) / blockSize
        let content := rest.take size
        let after := rest.drop (blocks * blockSize)
        let isShort := rest.length < blocks * blockSize
        let more (name target : Option String) : List Member × Ending × Bool :=
          if isShort then ([], .early, false)
          else decodeFrom fuel (passed + 1 + blocks) name target after
        match block[156]? with
        | some 'L' => more (some (textOfField content)) target
        | some 'K' => more name (some (textOfField content))
        | some 'x' | some 'g' => more name target
        | _ =>
          let whole := if isShort then content.take (rest.length / blockSize * blockSize) else content
          let (ms, ending, passedOver) := more none none
          (memberOf block name target whole :: ms, ending, passedOver)

/-- The members of a text, how its end came, and whether something in it was passed over. -/
def decode (s : String) : List Member × Ending × Bool :=
  if s.isEmpty then ([], .foreign, false)
  else decodeFrom (s.length / blockSize + 2) 0 none none s.toList

theorem textField_length (width : Nat) (s : String) : (textField width s).length = width := by
  simp only [textField, zeroText, String.length_append, String.length_ofList, List.length_take,
    List.length_replicate]
  omega

/-!
Names of members: the safe part of a name, which leads nowhere but below the place where it is used;
the names and patterns that choose members; and how members are listed.
-/

/-- The front of a name that is not safe: everything up to the last step upward, and slashes. -/
def unsafeFront (name : String) : String :=
  let parts := name.splitOn "/"
  let upTo := parts.length - (parts.reverse.takeWhile (· != "..")).length
  let front := String.intercalate "/" (parts.take upTo)
  let rest := name.toList.drop front.length
  front ++ String.ofList (rest.takeWhile (· == '/'))

/-- A name without its unsafe front. -/
def safeName (name : String) : String :=
  let rest := String.ofList (name.toList.drop (unsafeFront name).length)
  if rest.isEmpty then "." else rest

/-- A name without so many steps in front; nothing if it has no more. -/
def withoutSteps (count : Nat) (name : String) : Option String :=
  let parts := (name.splitOn "/").filter (!·.isEmpty)
  let kept := parts.drop count
  if count = 0 then some name
  else if kept.isEmpty then none
  else some (String.intercalate "/" kept ++ if name.endsWith "/" then "/" else "")

/-- Whether a name is another one or stands below it. -/
def isAtOrBelow (front name : String) : Bool :=
  let (front, name) := (withoutEnd front, withoutEnd name)
  name == front || name.startsWith (front ++ "/") || front == "/"
where
  /-- A name without slashes at its end. -/
  withoutEnd (s : String) : String :=
    String.ofList (s.toList.reverse.dropWhile (· == '/')).reverse

/-- The fronts of a name that end before a slash, and the name itself. -/
def frontsOf (name : String) : List String :=
  let parts := name.splitOn "/"
  (List.range parts.length).map fun k => String.intercalate "/" (parts.take (k + 1))

/-- The parts of a name that begin behind a slash, and the name itself. -/
def backsOf (name : String) : List String :=
  let parts := name.splitOn "/"
  (List.range parts.length).map fun k => String.intercalate "/" (parts.drop k)

/-- Whether a pattern stands for a text. -/
def isPatternFor (p s : String) : Bool :=
  matchesPattern (pattern (p.toList.map (·, false))) s.toList

/-- Whether a pattern stands for a name, or for something that the name stands below. An open one may
begin behind any slash. -/
def chooses (isOpen : Bool) (p name : String) : Bool :=
  let name := isAtOrBelow.withoutEnd name
  (if isOpen then backsOf name else [name]).any fun back => (frontsOf back).any (isPatternFor p)

/-- Whether a name holds signs of patterns. -/
def hasPatternSigns (s : String) : Bool :=
  s.toList.any fun c => c == '*' || c == '?' || c == '['

/-- A name as it is listed: with backslashes in front of what would disturb. -/
def listedName (s : String) : String :=
  escaped "" s

/-- A name in front of a message, where a colon would disturb as well. -/
def toldName (s : String) : String :=
  escaped ":" s

/-- How members are listed: the width of owners and sizes grows with them. -/
structure ListForm where
  numeric : Bool := false
  wholeTime : Bool := false
  width : Nat := 19

/-- The line of a member in a long list, and the form of the next one. -/
def ListForm.line (f : ListForm) (m : Member) : String × ListForm :=
  let (letter, size, behind) := match m.kind with
    | .file s => ("-", s.length, "")
    | .directory => ("d", 0, "")
    | .symbolic t => ("l", 0, " -> " ++ listedName t)
    | .hard t => ("h", 0, " link to " ++ listedName t)
  let owner (o : Owner) : String :=
    if f.numeric || o.name.isEmpty then toString o.number else o.name
  let front := owner m.user ++ "/" ++ owner m.group
  let size := toString size
  let width := max f.width (front.length + 1 + size.length)
  let time := (Moment.ofNanos ((m.time : Int) * Moment.second)).format
    (if f.wholeTime then "%Y-%m-%d %H:%M:%S" else "%Y-%m-%d %H:%M")
  (letter ++ rightLetters m.rights ++ " " ++ front ++
    String.ofList (List.replicate (width - front.length - size.length) ' ') ++ size ++ " " ++ time ++
    " " ++ listedName m.name ++ behind ++ "\n", { f with width })

theorem safeName_ne_empty (name : String) : safeName name ≠ "" := by
  unfold safeName
  dsimp only
  split
  · decide
  · next h => exact fun e => h (by simp [e])

end PatchSearch.Shell.Archive
