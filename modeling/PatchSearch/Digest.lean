/-!
Messages of digests: bytes filled up to whole blocks, and blocks as words. A digest goes through
the blocks of a message and ends in some words, which are shown in hexadecimal digits.
-/
namespace PatchSearch.Digest

/-- The order of the bytes in a number: the highest or the lowest one first. -/
inductive ByteOrder where
  | highFirst
  | lowFirst
  deriving DecidableEq

/-- The bytes of a number. -/
def bytesOf (order : ByteOrder) (size n : Nat) : List UInt8 :=
  let low := (List.range size).map fun i => UInt8.ofNat (n / Nat.pow 256 i)
  match order with
  | .highFirst => low.reverse
  | .lowFirst => low

/-- The number that bytes spell. -/
def numberOf (order : ByteOrder) (bytes : List UInt8) : Nat :=
  let high := match order with
    | .highFirst => bytes
    | .lowFirst => bytes.reverse
  high.foldl (fun n b => 256 * n + b.toNat) 0

/-- Lists of some length, one after the other; what is left over at the end is a shorter one. -/
def chunks {β : Type} (size : Nat) : Nat → List β → List (List β)
  | 0, _ => []
  | _, [] => []
  | n + 1, items => items.take size :: chunks size n (items.drop size)

/-- A message filled up to whole blocks: a bit, zeros, and the length in bits. -/
def padded (order : ByteOrder) (block lengthSize : Nat) (message : List UInt8) : List UInt8 :=
  let used := (message.length + 1 + lengthSize) % block
  let gap := if used = 0 then 0 else block - used
  message ++ 128 :: List.replicate gap 0 ++ bytesOf order lengthSize (8 * message.length)

theorem length_bytesOf (order : ByteOrder) (size n : Nat) :
    (bytesOf order size n).length = size := by
  cases order <;> simp [bytesOf]

/-- Padding fills up the last block. -/
theorem length_padded (order : ByteOrder) (block lengthSize : Nat) (message : List UInt8)
    (h : 0 < block) : (padded order block lengthSize message).length % block = 0 := by
  have hlt := Nat.mod_lt (message.length + 1 + lengthSize) h
  simp only [padded, List.length_append, List.length_cons, List.length_replicate, length_bytesOf]
  split <;> rename_i hused
  · have : message.length + (0 + 1) + lengthSize = message.length + 1 + lengthSize := by omega
    rw [this, hused]
  · have hsplit := Nat.div_add_mod (message.length + 1 + lengthSize) block
    generalize hk : (message.length + 1 + lengthSize) / block = k at hsplit
    generalize hr : (message.length + 1 + lengthSize) % block = r at *
    have : message.length + (block - r + 1) + lengthSize = block * (k + 1) := by
      rw [Nat.mul_add, Nat.mul_one]
      omega
    rw [this, Nat.mul_mod_right]

/-- The blocks of a message as numbers of some size. -/
def blocksOf (order : ByteOrder) (block word : Nat) (bytes : List UInt8) : List (List Nat) :=
  (chunks block (bytes.length + 1) bytes).map fun b =>
    (chunks word (block + 1) b).map (numberOf order)

/-- Bytes in hexadecimal digits. -/
def hexText (bytes : List UInt8) : String :=
  let digit (n : Nat) : Char := Char.ofNat (if n < 10 then 48 + n else 87 + n)
  String.ofList (bytes.flatMap fun b => [digit (b.toNat / 16), digit (b.toNat % 16)])

example : hexText [0, 175] = "00af" := by decide +kernel

/-!
Digests of words with 32 bits: MD5, SHA-1, and SHA-2 with 224 and 256 bits. Each mixes blocks of
sixteen words into a state.
-/

def rotateLeft (w n : UInt32) : UInt32 :=
  (w <<< n) ||| (w >>> (32 - n))

def rotateRight (w n : UInt32) : UInt32 :=
  (w >>> n) ||| (w <<< (32 - n))

/-- The bytes of words. -/
def wordBytes (order : ByteOrder) (words : List UInt32) : List UInt8 :=
  words.flatMap fun w => bytesOf order 4 w.toNat

/-- The blocks of a message, each of sixteen words. -/
def narrowBlocks (order : ByteOrder) (message : List UInt8) : List (Array UInt32) :=
  (blocksOf order 64 4 (padded order 64 8 message)).map fun b => (b.map UInt32.ofNat).toArray

namespace Md5

/-- The constants of the steps: the fraction bits of sines. -/
def constants : Array UInt32 :=
  #[0xd76aa478, 0xe8c7b756, 0x242070db, 0xc1bdceee, 0xf57c0faf, 0x4787c62a,
    0xa8304613, 0xfd469501, 0x698098d8, 0x8b44f7af, 0xffff5bb1, 0x895cd7be,
    0x6b901122, 0xfd987193, 0xa679438e, 0x49b40821, 0xf61e2562, 0xc040b340,
    0x265e5a51, 0xe9b6c7aa, 0xd62f105d, 0x02441453, 0xd8a1e681, 0xe7d3fbc8,
    0x21e1cde6, 0xc33707d6, 0xf4d50d87, 0x455a14ed, 0xa9e3e905, 0xfcefa3f8,
    0x676f02d9, 0x8d2a4c8a, 0xfffa3942, 0x8771f681, 0x6d9d6122, 0xfde5380c,
    0xa4beea44, 0x4bdecfa9, 0xf6bb4b60, 0xbebfbc70, 0x289b7ec6, 0xeaa127fa,
    0xd4ef3085, 0x04881d05, 0xd9d4d039, 0xe6db99e5, 0x1fa27cf8, 0xc4ac5665,
    0xf4292244, 0x432aff97, 0xab9423a7, 0xfc93a039, 0x655b59c3, 0x8f0ccc92,
    0xffeff47d, 0x85845dd1, 0x6fa87e4f, 0xfe2ce6e0, 0xa3014314, 0x4e0811a1,
    0xf7537e82, 0xbd3af235, 0x2ad7d2bb, 0xeb86d391]

/-- How far the steps of each round turn. -/
def turns : List (List UInt32) :=
  [[7, 12, 17, 22], [5, 9, 14, 20], [4, 11, 16, 23], [6, 10, 15, 21]]

/-- How a step of a round joins three words, and which word of the block it takes. -/
def join (round i : Nat) (b c d : UInt32) : UInt32 × Nat :=
  match round with
  | 0 => ((b &&& c) ||| (~~~b &&& d), i)
  | 1 => ((d &&& b) ||| (~~~d &&& c), (5 * i + 1) % 16)
  | 2 => (b ^^^ c ^^^ d, (3 * i + 5) % 16)
  | _ => (c ^^^ (b ||| ~~~d), 7 * i % 16)

/-- A state mixed with a block. -/
def mix (state : List UInt32) (block : Array UInt32) : List UInt32 :=
  let step (s : List UInt32) (i : Nat) : List UInt32 :=
    match s with
    | [a, b, c, d] =>
      let round := i / 16
      let (f, k) := join round i b c d
      let turn := (((turns[round]?).getD [])[i % 4]?).getD 0
      [d, b + rotateLeft (a + f + constants.getD i 0 + block.getD k 0) turn, b, c]
    | s => s
  List.zipWith (· + ·) state ((List.range 64).foldl step state)

end Md5

/-- The digest MD5. -/
def md5 (message : List UInt8) : List UInt8 :=
  wordBytes .lowFirst ((narrowBlocks .lowFirst message).foldl Md5.mix
    [0x67452301, 0xefcdab89, 0x98badcfe, 0x10325476])

namespace Sha1

/-- The eighty words that a block is stretched to. -/
def schedule (block : Array UInt32) : Array UInt32 :=
  (List.range 64).foldl (fun w i =>
    let at' (k : Nat) : UInt32 := w.getD (i + 16 - k) 0
    w.push (rotateLeft (at' 3 ^^^ at' 8 ^^^ at' 14 ^^^ at' 16) 1)) block

/-- A state mixed with a block. -/
def mix (state : List UInt32) (block : Array UInt32) : List UInt32 :=
  let words := schedule block
  let step (s : List UInt32) (i : Nat) : List UInt32 :=
    match s with
    | [a, b, c, d, e] =>
      let (f, k) : UInt32 × UInt32 :=
        if i < 20 then ((b &&& c) ||| (~~~b &&& d), 0x5a827999)
        else if i < 40 then (b ^^^ c ^^^ d, 0x6ed9eba1)
        else if i < 60 then ((b &&& c) ||| (b &&& d) ||| (c &&& d), 0x8f1bbcdc)
        else (b ^^^ c ^^^ d, 0xca62c1d6)
      [rotateLeft a 5 + f + e + k + words.getD i 0, a, rotateLeft b 30, c, d]
    | s => s
  List.zipWith (· + ·) state ((List.range 80).foldl step state)

end Sha1

/-- The digest SHA-1. -/
def sha1 (message : List UInt8) : List UInt8 :=
  wordBytes .highFirst ((narrowBlocks .highFirst message).foldl Sha1.mix
    [0x67452301, 0xefcdab89, 0x98badcfe, 0x10325476, 0xc3d2e1f0])

namespace Sha2Narrow

/-- The constants of the steps: the fraction bits of cube roots of primes. -/
def constants : Array UInt32 :=
  #[0x428a2f98, 0x71374491, 0xb5c0fbcf, 0xe9b5dba5, 0x3956c25b, 0x59f111f1,
    0x923f82a4, 0xab1c5ed5, 0xd807aa98, 0x12835b01, 0x243185be, 0x550c7dc3,
    0x72be5d74, 0x80deb1fe, 0x9bdc06a7, 0xc19bf174, 0xe49b69c1, 0xefbe4786,
    0x0fc19dc6, 0x240ca1cc, 0x2de92c6f, 0x4a7484aa, 0x5cb0a9dc, 0x76f988da,
    0x983e5152, 0xa831c66d, 0xb00327c8, 0xbf597fc7, 0xc6e00bf3, 0xd5a79147,
    0x06ca6351, 0x14292967, 0x27b70a85, 0x2e1b2138, 0x4d2c6dfc, 0x53380d13,
    0x650a7354, 0x766a0abb, 0x81c2c92e, 0x92722c85, 0xa2bfe8a1, 0xa81a664b,
    0xc24b8b70, 0xc76c51a3, 0xd192e819, 0xd6990624, 0xf40e3585, 0x106aa070,
    0x19a4c116, 0x1e376c08, 0x2748774c, 0x34b0bcb5, 0x391c0cb3, 0x4ed8aa4a,
    0x5b9cca4f, 0x682e6ff3, 0x748f82ee, 0x78a5636f, 0x84c87814, 0x8cc70208,
    0x90befffa, 0xa4506ceb, 0xbef9a3f7, 0xc67178f2]

/-- The sixty-four words that a block is stretched to. -/
def schedule (block : Array UInt32) : Array UInt32 :=
  (List.range 48).foldl (fun w i =>
    let at' (k : Nat) : UInt32 := w.getD (i + 16 - k) 0
    let near := rotateRight (at' 2) 17 ^^^ rotateRight (at' 2) 19 ^^^ (at' 2 >>> 10)
    let far := rotateRight (at' 15) 7 ^^^ rotateRight (at' 15) 18 ^^^ (at' 15 >>> 3)
    w.push (near + at' 7 + far + at' 16)) block

/-- A state mixed with a block. -/
def mix (state : List UInt32) (block : Array UInt32) : List UInt32 :=
  let words := schedule block
  let step (s : List UInt32) (i : Nat) : List UInt32 :=
    match s with
    | [a, b, c, d, e, f, g, h] =>
      let turned := rotateRight e 6 ^^^ rotateRight e 11 ^^^ rotateRight e 25
      let chosen := (e &&& f) ^^^ (~~~e &&& g)
      let first := h + turned + chosen + constants.getD i 0 + words.getD i 0
      let turned := rotateRight a 2 ^^^ rotateRight a 13 ^^^ rotateRight a 22
      let major := (a &&& b) ^^^ (a &&& c) ^^^ (b &&& c)
      [first + turned + major, a, b, c, d + first, e, f, g]
    | s => s
  List.zipWith (· + ·) state ((List.range 64).foldl step state)

/-- A digest that starts from a state. -/
def digest (start : List UInt32) (message : List UInt8) : List UInt8 :=
  wordBytes .highFirst ((narrowBlocks .highFirst message).foldl mix start)

end Sha2Narrow

/-- The digest SHA-2 with 256 bits. -/
def sha256 (message : List UInt8) : List UInt8 :=
  Sha2Narrow.digest
    [0x6a09e667, 0xbb67ae85, 0x3c6ef372, 0xa54ff53a,
      0x510e527f, 0x9b05688c, 0x1f83d9ab, 0x5be0cd19] message

/-- The digest SHA-2 with 224 bits. -/
def sha224 (message : List UInt8) : List UInt8 :=
  (Sha2Narrow.digest
    [0xc1059ed8, 0x367cd507, 0x3070dd17, 0xf70e5939,
      0xffc00b31, 0x68581511, 0x64f98fa7, 0xbefa4fa4] message).take 28

/-!
Digests of words with 64 bits: SHA-2 with 384 and 512 bits, and BLAKE2b.
-/

def rotateRightWide (w n : UInt64) : UInt64 :=
  (w >>> n) ||| (w <<< (64 - n))

namespace Sha2Wide

/-- The constants of the steps: the fraction bits of cube roots of primes. -/
def constants : Array UInt64 :=
  #[0x428a2f98d728ae22, 0x7137449123ef65cd, 0xb5c0fbcfec4d3b2f, 0xe9b5dba58189dbbc,
    0x3956c25bf348b538, 0x59f111f1b605d019, 0x923f82a4af194f9b, 0xab1c5ed5da6d8118,
    0xd807aa98a3030242, 0x12835b0145706fbe, 0x243185be4ee4b28c, 0x550c7dc3d5ffb4e2,
    0x72be5d74f27b896f, 0x80deb1fe3b1696b1, 0x9bdc06a725c71235, 0xc19bf174cf692694,
    0xe49b69c19ef14ad2, 0xefbe4786384f25e3, 0x0fc19dc68b8cd5b5, 0x240ca1cc77ac9c65,
    0x2de92c6f592b0275, 0x4a7484aa6ea6e483, 0x5cb0a9dcbd41fbd4, 0x76f988da831153b5,
    0x983e5152ee66dfab, 0xa831c66d2db43210, 0xb00327c898fb213f, 0xbf597fc7beef0ee4,
    0xc6e00bf33da88fc2, 0xd5a79147930aa725, 0x06ca6351e003826f, 0x142929670a0e6e70,
    0x27b70a8546d22ffc, 0x2e1b21385c26c926, 0x4d2c6dfc5ac42aed, 0x53380d139d95b3df,
    0x650a73548baf63de, 0x766a0abb3c77b2a8, 0x81c2c92e47edaee6, 0x92722c851482353b,
    0xa2bfe8a14cf10364, 0xa81a664bbc423001, 0xc24b8b70d0f89791, 0xc76c51a30654be30,
    0xd192e819d6ef5218, 0xd69906245565a910, 0xf40e35855771202a, 0x106aa07032bbd1b8,
    0x19a4c116b8d2d0c8, 0x1e376c085141ab53, 0x2748774cdf8eeb99, 0x34b0bcb5e19b48a8,
    0x391c0cb3c5c95a63, 0x4ed8aa4ae3418acb, 0x5b9cca4f7763e373, 0x682e6ff3d6b2b8a3,
    0x748f82ee5defb2fc, 0x78a5636f43172f60, 0x84c87814a1f0ab72, 0x8cc702081a6439ec,
    0x90befffa23631e28, 0xa4506cebde82bde9, 0xbef9a3f7b2c67915, 0xc67178f2e372532b,
    0xca273eceea26619c, 0xd186b8c721c0c207, 0xeada7dd6cde0eb1e, 0xf57d4f7fee6ed178,
    0x06f067aa72176fba, 0x0a637dc5a2c898a6, 0x113f9804bef90dae, 0x1b710b35131c471b,
    0x28db77f523047d84, 0x32caab7b40c72493, 0x3c9ebe0a15c9bebc, 0x431d67c49c100d4c,
    0x4cc5d4becb3e42b6, 0x597f299cfc657e2a, 0x5fcb6fab3ad6faec, 0x6c44198c4a475817]

/-- The eighty words that a block is stretched to. -/
def schedule (block : Array UInt64) : Array UInt64 :=
  (List.range 64).foldl (fun w i =>
    let at' (k : Nat) : UInt64 := w.getD (i + 16 - k) 0
    let near := rotateRightWide (at' 2) 19 ^^^ rotateRightWide (at' 2) 61 ^^^ (at' 2 >>> 6)
    let far := rotateRightWide (at' 15) 1 ^^^ rotateRightWide (at' 15) 8 ^^^ (at' 15 >>> 7)
    w.push (near + at' 7 + far + at' 16)) block

/-- A state mixed with a block. -/
def mix (state : List UInt64) (block : Array UInt64) : List UInt64 :=
  let words := schedule block
  let step (s : List UInt64) (i : Nat) : List UInt64 :=
    match s with
    | [a, b, c, d, e, f, g, h] =>
      let turned := rotateRightWide e 14 ^^^ rotateRightWide e 18 ^^^ rotateRightWide e 41
      let chosen := (e &&& f) ^^^ (~~~e &&& g)
      let first := h + turned + chosen + constants.getD i 0 + words.getD i 0
      let turned := rotateRightWide a 28 ^^^ rotateRightWide a 34 ^^^ rotateRightWide a 39
      let major := (a &&& b) ^^^ (a &&& c) ^^^ (b &&& c)
      [first + turned + major, a, b, c, d + first, e, f, g]
    | s => s
  List.zipWith (· + ·) state ((List.range 80).foldl step state)

/-- A digest that starts from a state. -/
def digest (start : List UInt64) (message : List UInt8) : List UInt8 :=
  let blocks := (blocksOf .highFirst 128 8 (padded .highFirst 128 16 message)).map fun b =>
    (b.map UInt64.ofNat).toArray
  (blocks.foldl mix start).flatMap fun w => bytesOf .highFirst 8 w.toNat

end Sha2Wide

/-- The state that SHA-2 with 512 bits starts from: the fraction bits of square roots of
primes. -/
def squareRoots : List UInt64 :=
  [0x6a09e667f3bcc908, 0xbb67ae8584caa73b, 0x3c6ef372fe94f82b, 0xa54ff53a5f1d36f1,
    0x510e527fade682d1, 0x9b05688c2b3e6c1f, 0x1f83d9abfb41bd6b, 0x5be0cd19137e2179]

/-- The digest SHA-2 with 512 bits. -/
def sha512 (message : List UInt8) : List UInt8 :=
  Sha2Wide.digest squareRoots message

/-- The digest SHA-2 with 384 bits. -/
def sha384 (message : List UInt8) : List UInt8 :=
  (Sha2Wide.digest
    [0xcbbb9d5dc1059ed8, 0x629a292a367cd507, 0x9159015a3070dd17, 0x152fecd8f70e5939,
      0x67332667ffc00b31, 0x8eb44a8768581511, 0xdb0c2e0d64f98fa7, 0x47b5481dbefa4fa4] message).take 48

namespace Blake2

/-- The orders in which the rounds take the words of a block. -/
def orders : List (List Nat) :=
  [[0, 1, 2, 3, 4, 5, 6, 7, 8, 9, 10, 11, 12, 13, 14, 15],
    [14, 10, 4, 8, 9, 15, 13, 6, 1, 12, 0, 2, 11, 7, 5, 3],
    [11, 8, 12, 0, 5, 2, 15, 13, 10, 14, 3, 6, 7, 1, 9, 4],
    [7, 9, 3, 1, 13, 12, 11, 14, 2, 6, 5, 10, 4, 0, 15, 8],
    [9, 0, 5, 7, 2, 4, 10, 15, 14, 1, 11, 12, 6, 8, 3, 13],
    [2, 12, 6, 10, 0, 11, 8, 3, 4, 13, 7, 5, 15, 14, 1, 9],
    [12, 5, 1, 15, 14, 13, 4, 10, 0, 7, 6, 3, 9, 2, 8, 11],
    [13, 11, 7, 14, 12, 1, 3, 9, 5, 0, 15, 4, 8, 6, 2, 10],
    [6, 15, 14, 9, 11, 3, 0, 8, 12, 2, 13, 7, 1, 4, 10, 5],
    [10, 2, 8, 4, 7, 6, 1, 5, 15, 11, 9, 14, 3, 12, 13, 0]]

/-- A state with four of its words mixed with two words of a block. -/
def quarter (v : Array UInt64) (a b c d : Nat) (x y : UInt64) : Array UInt64 :=
  let word (v : Array UInt64) (i : Nat) : UInt64 := v.getD i 0
  let v := v.setIfInBounds a (word v a + word v b + x)
  let v := v.setIfInBounds d (rotateRightWide (word v d ^^^ word v a) 32)
  let v := v.setIfInBounds c (word v c + word v d)
  let v := v.setIfInBounds b (rotateRightWide (word v b ^^^ word v c) 24)
  let v := v.setIfInBounds a (word v a + word v b + y)
  let v := v.setIfInBounds d (rotateRightWide (word v d ^^^ word v a) 16)
  let v := v.setIfInBounds c (word v c + word v d)
  v.setIfInBounds b (rotateRightWide (word v b ^^^ word v c) 63)

/-- The places of the state that the eight steps of a round mix. -/
def places : List (Nat × Nat × Nat × Nat) :=
  [(0, 4, 8, 12), (1, 5, 9, 13), (2, 6, 10, 14), (3, 7, 11, 15), (0, 5, 10, 15), (1, 6, 11, 12),
    (2, 7, 8, 13), (3, 4, 9, 14)]

/-- A state mixed with a block; `count` bytes were taken so far. -/
def mix (state : List UInt64) (block : Array UInt64) (count : Nat) (isLast : Bool) :
    List UInt64 :=
  let start := (state ++ squareRoots).toArray
  let start := start.modify 12 (· ^^^ UInt64.ofNat count)
  let start := if isLast then start.modify 14 (~~~·) else start
  let v := (List.range 12).foldl (fun v r =>
    let order := (orders[r % 10]?).getD []
    places.zipIdx.foldl (fun v ((a, b, c, d), i) =>
      let word (k : Nat) : UInt64 := block.getD ((order[k]?).getD 0) 0
      quarter v a b c d (word (2 * i)) (word (2 * i + 1))) v) start
  (state.zipIdx).map fun (w, i) => w ^^^ v.getD i 0 ^^^ v.getD (i + 8) 0

end Blake2

/-- The digest BLAKE2b with so many bytes. -/
def blake2 (size : Nat) (message : List UInt8) : List UInt8 :=
  let start := match squareRoots with
    | w :: ws => (w ^^^ 0x01010000 ^^^ UInt64.ofNat size) :: ws
    | [] => []
  let blocks := if message.isEmpty then [[]] else chunks 128 (message.length + 1) message
  let state := blocks.zipIdx.foldl (fun state (b, i) =>
    let filled := b ++ List.replicate (128 - b.length) 0
    let words := (chunks 8 17 filled).map fun w => UInt64.ofNat (numberOf .lowFirst w)
    Blake2.mix state words.toArray (128 * i + b.length) (i + 1 == blocks.length)) start
  (state.flatMap fun w => bytesOf .lowFirst 8 w.toNat).take size

/-!
Sums of bytes: the remainder of a division of polynomials with 32 bits, over the bytes and the
digits of their number, and two sums of sixteen bits.
-/

/-- A remainder of eight bits more. -/
def remainderStep (r : UInt32) : Nat → UInt32
  | 0 => r
  | n + 1 => remainderStep (if r &&& 0x80000000 == 0 then r <<< 1 else (r <<< 1) ^^^ 0x04c11db7) n

/-- A remainder behind one more byte. -/
def remainderByte (r : UInt32) (b : UInt8) : UInt32 :=
  remainderStep (r ^^^ (b.toUInt32 <<< 24)) 8

/-- The bytes of a number, the lowest first, without zeros above them. -/
def lengthBytes : Nat → Nat → List UInt8
  | 0, _ => []
  | fuel + 1, n => if n = 0 then [] else UInt8.ofNat n :: lengthBytes fuel (n / 256)

/-- The check sum of bytes and their number. -/
def checkSum (message : List UInt8) : UInt32 :=
  ~~~((message ++ lengthBytes 9 message.length).foldl remainderByte 0)

/-- The sum of bytes in sixteen bits that are turned right before each of them. -/
def turningSum (message : List UInt8) : Nat :=
  message.foldl (fun s b => ((s / 2 + s % 2 * 32768) + b.toNat) % 65536) 0

/-- The sum of bytes, folded twice into sixteen bits. -/
def plainSum (message : List UInt8) : Nat :=
  let s := message.foldl (fun s b => (s + b.toNat) % 4294967296) 0
  let r := s % 65536 + s / 65536
  r % 65536 + r / 65536

end PatchSearch.Digest
