import PatchSearch.Fault

/-!
A random source is a sequence of blocks of sixteen 32-bit words, read in order, with the words of
the last block that are still unread. `word` takes the next word, and `doubleWord` two of them,
the low one first.
-/
namespace PatchSearch

/-- Sixteen words, produced together. -/
abbrev Block := Vector UInt32 16

structure Random where
  blocks : Nat → Block
  next : Nat
  unread : List UInt32

namespace Random

/-- The source that reads the given blocks from the first one on. -/
def ofBlocks (blocks : Nat → Block) : Random :=
  ⟨blocks, 0, []⟩

def word (g : Random) : UInt32 × Random :=
  match g.unread with
  | w :: ws => (w, { g with unread := ws })
  | [] =>
    let block := g.blocks g.next
    (block[0], { g with next := g.next + 1, unread := block.toList.tail })

def doubleWord (g : Random) : UInt64 × Random :=
  let (low, g) := g.word
  let (high, g) := g.word
  (low.toUInt64 ||| (high.toUInt64 <<< 32), g)

theorem word_of_unread (g : Random) (w : UInt32) (ws : List UInt32) (h : g.unread = w :: ws) :
    g.word = (w, { g with unread := ws }) := by
  simp [word, h]

end Random

end PatchSearch

/-!
The random source of a seed: ChaCha with twelve rounds. A 64-bit linear generator stretches the
seed to a key of eight words, and block `n` of the stream is the permuted state with counter `n`,
added to that state.
-/
namespace PatchSearch.Random

def rotateLeft (w : UInt32) (n : UInt32) : UInt32 :=
  (w <<< n) ||| (w >>> (32 - n))

def quarterRound (s : Block) (a b c d : Fin 16) : Block :=
  let s := s.set a (s[a] + s[b])
  let s := s.set d (rotateLeft (s[d] ^^^ s[a]) 16)
  let s := s.set c (s[c] + s[d])
  let s := s.set b (rotateLeft (s[b] ^^^ s[c]) 12)
  let s := s.set a (s[a] + s[b])
  let s := s.set d (rotateLeft (s[d] ^^^ s[a]) 8)
  let s := s.set c (s[c] + s[d])
  s.set b (rotateLeft (s[b] ^^^ s[c]) 7)

/-- A column round and a diagonal round. -/
def doubleRound (s : Block) : Block :=
  let s := quarterRound s 0 4 8 12
  let s := quarterRound s 1 5 9 13
  let s := quarterRound s 2 6 10 14
  let s := quarterRound s 3 7 11 15
  let s := quarterRound s 0 5 10 15
  let s := quarterRound s 1 6 11 12
  let s := quarterRound s 2 7 8 13
  quarterRound s 3 4 9 14

/-- A key of eight words. -/
abbrev Key := Vector UInt32 8

/-- The state of a key at a block counter. -/
def initialState (key : Key) (counter : Nat) : Block :=
  #v[0x61707865, 0x3320646e, 0x79622d32, 0x6b206574,
    key[0], key[1], key[2], key[3], key[4], key[5], key[6], key[7],
    UInt32.ofNat counter, UInt32.ofNat (counter >>> 32), 0, 0]

/-- The block of the stream at a counter, six double rounds after its state. -/
def chachaBlock (key : Key) (counter : Nat) : Block :=
  let start := initialState key counter
  let mixed := doubleRound (doubleRound (doubleRound
    (doubleRound (doubleRound (doubleRound start)))))
  Vector.zipWith (· + ·) mixed start

/-- One step of the seed generator. -/
def seedStep (state : UInt64) : UInt64 :=
  state * 6364136223846793005 + 11634580027462260723

/-- The key word of a seed state: its upper bits, folded and rotated by its top five bits. -/
def seedWord (state : UInt64) : UInt32 :=
  let folded := (((state >>> 18) ^^^ state) >>> 27).toUInt32
  let turn := (state >>> 59).toUInt32
  (folded >>> turn) ||| (folded <<< ((32 - turn) % 32))

/-- The key of a seed: the words of eight steps. -/
def seedKey (seed : UInt64) : Key :=
  let s0 := seedStep seed
  let s1 := seedStep s0
  let s2 := seedStep s1
  let s3 := seedStep s2
  let s4 := seedStep s3
  let s5 := seedStep s4
  let s6 := seedStep s5
  let s7 := seedStep s6
  #v[seedWord s0, seedWord s1, seedWord s2, seedWord s3,
    seedWord s4, seedWord s5, seedWord s6, seedWord s7]

/-- The random source of a seed. -/
def ofSeed (seed : UInt64) : Random :=
  ofBlocks (chachaBlock (seedKey seed))

/-!
Draws from a random source: uniform numbers below a bound, weighted coins and shuffles. A number
below a bound comes from a wide product: a drawn word times the bound has the answer in its upper
half, and the draw is repeated while the lower half lies outside a whole number of full ranges.
-/

/-- The largest remainder that is accepted of a product of a bound and one of `count` words: the
bound shifted up to the top bit, less one. -/
def acceptedUpTo (count bound : Nat) : Nat :=
  bound <<< (count.log2 - 1 - bound.log2) - 1

/-- How often a draw is repeated at most. Each try succeeds with a chance above one half. -/
def maxTries : Nat := 1000

/-- Draws a number below `bound` from draws of one of `count` words. -/
def belowFrom (draw : Random → Nat × Random) (count bound : Nat) :
    Nat → Random → Nat × Random
  | 0, g =>
    let (v, g) := draw g
    (v * bound / count, g)
  | tries + 1, g =>
    let (v, g) := draw g
    if v * bound % count ≤ acceptedUpTo count bound then (v * bound / count, g)
    else belowFrom draw count bound tries g

/-- A uniform number below `bound`, from 64-bit words. -/
def below (bound : Nat) (g : Random) : Nat × Random :=
  belowFrom (fun g => let (w, g) := g.doubleWord; (w.toNat, g)) wordCount bound maxTries g

/-- A uniform number below `bound`, from 32-bit words. -/
def belowShort (bound : Nat) (g : Random) : Nat × Random :=
  belowFrom (fun g => let (w, g) := g.word; (w.toNat, g)) halfWordCount bound maxTries g

/-- A uniform index into `bound` places; 0 without a draw if there are none. -/
def index (bound : Nat) (g : Random) : Nat × Random :=
  if bound = 0 then (0, g) else below bound g

/-- A coin that shows `true` with probability `p`. Certainty takes no draw; a number outside the
unit interval is no probability. -/
def chance (p : Float) (g : Random) : Except Fault (Bool × Random) :=
  if p == 1.0 then .ok (true, g)
  else if 0.0 ≤ p ∧ p < 1.0 then
    let (w, g) := g.doubleWord
    .ok (w < (p * 18446744073709551616.0).toUInt64, g)
  else .error .invalidProbability

/-- Exchanges the members from index `i` down with a random one up to their own place. -/
def shuffleFrom {α : Type} (g : Random) (xs : Array α) : Nat → Array α × Random
  | 0 => (xs, g)
  | i + 1 =>
    let (j, g) := g.belowShort (i + 2)
    shuffleFrom g (xs.swapIfInBounds (i + 1) j) i

/-- The members of a list in a random order. -/
def shuffle {α : Type} (xs : List α) (g : Random) : List α × Random :=
  let (ys, g) := shuffleFrom g xs.toArray (xs.length - 1)
  (ys.toList, g)

theorem belowFrom_lt (draw : Random → Nat × Random) (count bound : Nat) (hb : 0 < bound)
    (hd : ∀ g, (draw g).1 < count) (tries : Nat) (g : Random) :
    (belowFrom draw count bound tries g).1 < bound := by
  have key (v : Nat) (h : v < count) : v * bound / count < bound := by
    apply Nat.div_lt_of_lt_mul
    exact Nat.mul_lt_mul_of_pos_right h hb
  induction tries generalizing g with
  | zero => exact key _ (hd g)
  | succ tries ih =>
    simp only [belowFrom]
    split
    · exact key _ (hd g)
    · exact ih _

theorem below_lt (bound : Nat) (h : 0 < bound) (g : Random) : (below bound g).1 < bound :=
  belowFrom_lt _ wordCount bound h (fun g => g.doubleWord.1.toNat_lt) maxTries g

theorem belowShort_lt (bound : Nat) (h : 0 < bound) (g : Random) :
    (belowShort bound g).1 < bound :=
  belowFrom_lt _ halfWordCount bound h (fun g => g.word.1.toNat_lt) maxTries g

theorem index_zero (g : Random) : index 0 g = (0, g) := rfl

end PatchSearch.Random
