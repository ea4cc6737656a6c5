/-!
Texts in short form. A text is told as octets and as copies of what stood some distance before;
both become symbols of two alphabets, and symbols that are used often get short codes.
-/
namespace PatchSearch.Shell.Deflate

/-- A step in telling a text. -/
inductive Step where
  | literal (octet : Nat)
  /-- So many octets that stood at a distance before. -/
  | copy (length distance : Nat)
  deriving DecidableEq

/-- A class of numbers: the least of them, and how many bits tell them apart. -/
structure NumberClass where
  least : Nat
  bits : Nat

/-- The longest copy. -/
def longestCopy : Nat := 258

/-- The classes of lengths; the longest copy has one for itself. -/
def lengthClasses : Array NumberClass :=
  ((List.range 28).map fun k =>
    if k < 8 then (⟨k + 3, 0⟩ : NumberClass)
    else ⟨(4 + k % 4) * Nat.pow 2 (k / 4 - 1) + 3, k / 4 - 1⟩).toArray.push ⟨longestCopy, 0⟩

/-- The classes of distances. -/
def distanceClasses : Array NumberClass :=
  ((List.range 30).map fun k =>
    if k < 2 then (⟨k + 1, 0⟩ : NumberClass)
    else ⟨(2 + k % 2) * Nat.pow 2 (k / 2 - 1) + 1, k / 2 - 1⟩).toArray

/-- The class that a number is in. -/
def classOf (classes : Array NumberClass) (n : Nat) : Nat :=
  (classes.foldl (fun k c => if c.least ≤ n then k + 1 else k) 0) - 1

/-- The symbol that ends a block, and the first one for a length. -/
def endSymbol : Nat := 256

def firstLength : Nat := 257

/-- How many symbols there are for octets and lengths, and how many for distances. -/
def stepSymbols : Nat := 286

def distanceSymbols : Nat := 30

/-- The lengths of codes that hold where no others are told. -/
def plainStepLengths : Array Nat :=
  ((List.range 288).map fun k =>
    if k < 144 then 8 else if k < 256 then 9 else if k < 280 then 7 else 8).toArray

def plainDistanceLengths : Array Nat :=
  Array.replicate 30 5

/-- The order in which the lengths of codes for lengths of codes are told. -/
def lengthOrder : List Nat :=
  [16, 17, 18, 0, 8, 7, 9, 6, 10, 5, 11, 4, 12, 3, 13, 2, 14, 1, 15]

/-- The longest codes. -/
def longestCode : Nat := 15

/-- How many codes there are of each length; those of no length do not count. -/
def lengthCounts (lengths : Array Nat) : Array Nat :=
  lengths.foldl (fun counts n => if n = 0 then counts else counts.modify n (· + 1))
    (Array.replicate (longestCode + 1) 0)

/-- The first code of each length: codes of one length follow each other, behind all that are
shorter. -/
def firstCodes (counts : Array Nat) : Array Nat :=
  ((List.range longestCode).foldl (fun (codes, code) n =>
    let next := 2 * (code + if n = 0 then 0 else counts.getD n 0)
    (codes.push next, next)) (#[0], 0)).1

/-- The codes of symbols whose codes have these lengths. -/
def codesOf (lengths : Array Nat) : Array Nat :=
  (lengths.foldl (fun (codes, next) n =>
    if n = 0 then (codes.push 0, next)
    else (codes.push (next.getD n 0), next.modify n (· + 1)))
    (#[], firstCodes (lengthCounts lengths))).1

theorem lengthClasses_size : lengthClasses.size = 29 := by
  simp [lengthClasses]

theorem distanceClasses_size : distanceClasses.size = 30 := by
  simp [distanceClasses]

/-!
Codes by frequency. The two rarest things are joined to one, again and again; a symbol's code is as
long as the number of joins that it went through, but not longer than a limit.
-/

/-- Symbols and joined things by frequency. The first of `nodes` is a rarest one, and each is no
rarer than the one half as far on. -/
structure Heap where
  nodes : Array Nat
  frequency : Array Nat
  depth : Array Nat

namespace Heap

/-- Whether one thing comes before another one: it is rarer, or as rare and no deeper. -/
def before (h : Heap) (a b : Nat) : Bool :=
  let (x, y) := (h.frequency.getD a 0, h.frequency.getD b 0)
  x < y || x = y && h.depth.getD a 0 ≤ h.depth.getD b 0

/-- Moves the thing at a place down to where it belongs. Places count from one. -/
def sink (h : Heap) (v : Nat) : Nat → Nat → Heap
  | 0, k => { h with nodes := h.nodes.setIfInBounds (k - 1) v }
  | fuel + 1, k =>
    let size := h.nodes.size
    let node (j : Nat) : Nat := h.nodes.getD (j - 1) 0
    let j := 2 * k
    if size < j then { h with nodes := h.nodes.setIfInBounds (k - 1) v }
    else
      let j := if j < size && h.before (node (j + 1)) (node j) then j + 1 else j
      if h.before v (node j) then { h with nodes := h.nodes.setIfInBounds (k - 1) v }
      else
        let child := node j
        sink { h with nodes := h.nodes.setIfInBounds (k - 1) child } v fuel j

/-- Puts the thing at a place where it belongs. -/
def settle (h : Heap) (k : Nat) : Heap :=
  h.sink (h.nodes.getD (k - 1) 0) h.nodes.size k

/-- Joins the two rarest things until one is left. All things in the order in which they were joined,
last ones first, and what each became part of. -/
def joinAll : Nat → Nat → Heap → List Nat → Array Nat → List Nat × Array Nat
  | 0, _, h, order, joined => (h.nodes.getD 0 0 :: order, joined)
  | fuel + 1, next, h, order, joined =>
    if h.nodes.size < 2 then (h.nodes.getD 0 0 :: order, joined)
    else
      let a := h.nodes.getD 0 0
      let last := h.nodes.getD (h.nodes.size - 1) 0
      let h := { h with nodes := (h.nodes.pop).setIfInBounds 0 last }.settle 1
      let b := h.nodes.getD 0 0
      let h := { h with
        nodes := h.nodes.setIfInBounds 0 next
        frequency := h.frequency.setIfInBounds next (h.frequency.getD a 0 + h.frequency.getD b 0)
        depth := h.depth.setIfInBounds next (max (h.depth.getD a 0) (h.depth.getD b 0) + 1) }.settle 1
      joinAll fuel (next + 1) h (b :: a :: order)
        ((joined.setIfInBounds a next).setIfInBounds b next)

end Heap

/-- The symbols that get a code: all that are used, and some of the first ones as long as there are
fewer than two. -/
def codedSymbols (frequency : Array Nat) : List Nat :=
  let used := (List.range frequency.size).filter fun n => frequency.getD n 0 != 0
  match used with
  | [] => [0, 1]
  | [n] => if n < 2 then [n, n + 1] else [n, 0]
  | _ => used

/-- How often symbols go through joins, cut at a limit, and how many are cut. -/
def cutLengths (limit size : Nat) (joined : Array Nat) (order : List Nat) : Array Nat × Nat :=
  (order.drop 1).foldl (fun (lengths, cut) n =>
    let bits := lengths.getD (joined.getD n 0) 0 + 1
    if limit < bits then (lengths.setIfInBounds n limit, cut + 1)
    else (lengths.setIfInBounds n bits, cut)) (Array.replicate size 0, 0)

/-- Numbers of codes by length in which symbols that were cut find room: one code becomes longer,
and two of the longest are put behind it. -/
def withRoom (limit : Nat) : Nat → Nat → Array Nat → Array Nat
  | 0, _, counts => counts
  | fuel + 1, cut, counts =>
    let shorter := (List.range limit).reverse.find? fun n => counts.getD n 0 != 0
    match shorter with
    | none => counts
    | some n =>
      let counts := ((counts.modify n (· - 1)).modify (n + 1) (· + 2)).modify limit (· - 1)
      if cut ≤ 2 then counts else withRoom limit fuel (cut - 2) counts

/-- The lengths of codes for symbols that are used so often. -/
def codeLengths (limit : Nat) (frequency : Array Nat) : Array Nat :=
  let size := frequency.size
  let coded := codedSymbols frequency
  let counted (n : Nat) : Nat := if coded.contains n then max 1 (frequency.getD n 0) else 0
  let all := ((List.range size).map counted).toArray ++ Array.replicate (size + 1) 0
  let start : Heap :=
    { nodes := coded.toArray, frequency := all, depth := Array.replicate (2 * size + 1) 0 }
  let heap := ((List.range (coded.length / 2)).reverse.map (· + 1)).foldl Heap.settle start
  let (order, joined) := heap.joinAll size size [] (Array.replicate (2 * size + 1) 0)
  let (lengths, cut) := cutLengths limit (2 * size + 1) joined order
  let leaves := (order.drop 1).filter (· < size)
  let lengths :=
    if cut = 0 then lengths
    else
      let counts := leaves.foldl (fun counts n => counts.modify (lengths.getD n 0) (· + 1))
        (Array.replicate (limit + 2) 0)
      let counts := withRoom limit cut cut counts
      let bits := ((List.range (limit + 1)).reverse.flatMap fun n =>
        if n = 0 then [] else List.replicate (counts.getD n 0) n)
      (leaves.reverse.zip bits).foldl (fun lengths (n, bits) => lengths.setIfInBounds n bits) lengths
  lengths.extract 0 size

/-- How many bits symbols take that are used so often; some are followed by further bits. -/
def codedSize (frequency lengths : Array Nat) (further : Nat → Nat) : Nat :=
  (List.range frequency.size).foldl (fun sum n =>
    sum + frequency.getD n 0 * (lengths.getD n 0 + further n)) 0

/-- A symbol for lengths of codes, with bits behind it: how many, and their value. -/
structure LengthSymbol where
  symbol : Nat
  bits : Nat := 0
  value : Nat := 0

/-- Lengths of codes as symbols: a length that is repeated is told once, with how often. The numbers
are the length before and how often the next one has been seen. -/
def lengthSymbols (before : Option Nat) (seen : Nat) : List Nat → List LengthSymbol
  | [] => []
  | n :: rest =>
    let count := seen + 1
    let (most, least) :=
      if n = 0 then (138, 3) else if before == some n then (6, 3) else (7, 4)
    if count < most && rest.head? == some n then lengthSymbols before count rest
    else
      let told :=
        if count < least then List.replicate count { symbol := n }
        else if n ≠ 0 then
          if before == some n then [{ symbol := 16, bits := 2, value := count - 3 }]
          else [{ symbol := n }, { symbol := 16, bits := 2, value := count - 4 }]
        else if count ≤ 10 then [{ symbol := 17, bits := 3, value := count - 3 }]
        else [{ symbol := 18, bits := 7, value := count - 11 }]
      told ++ lengthSymbols (some n) 0 rest

theorem codedSymbols_length (frequency : Array Nat) : 2 ≤ (codedSymbols frequency).length := by
  unfold codedSymbols
  dsimp only
  split
  · simp
  · split <;> simp
  · next h1 h2 =>
    generalize (List.filter _ _) = l at h1 h2 ⊢
    match l with
    | [] => exact absurd rfl h1
    | [n] => exact absurd rfl (h2 n)
    | _ :: _ :: _ => simp

end PatchSearch.Shell.Deflate
