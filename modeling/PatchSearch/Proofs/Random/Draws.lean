import PatchSearch.Proofs.Yields
import PatchSearch.Random

/-!
What draws keep to: an index lies among its places, a coin that is given a probability shows a
side, and a shuffle loses and repeats nothing. A number drawn moves the source on.
-/
namespace PatchSearch.Random

theorem index_lt (bound : Nat) (h : 0 < bound) (g : Random) : (index bound g).1 < bound := by
  unfold index
  rw [if_neg (by omega)]
  exact below_lt bound h g

/-- A float that a coin can be thrown with. -/
def IsProbability (p : Float) : Prop :=
  (p == 1.0) = true ∨ 0.0 ≤ p ∧ p < 1.0

theorem yields_chance (p : Float) (g : Random) (h : IsProbability p) :
    Yields (g.chance p) fun _ => True := by
  unfold chance
  split
  · exact Yields.ok trivial
  · next hone =>
    rw [if_pos (h.resolve_left hone)]
    exact Yields.ok trivial

theorem chance_of_not_isProbability {p : Float} (h : ¬ IsProbability p) (g : Random) :
    g.chance p = .error .invalidProbability := by
  unfold chance
  rw [if_neg fun hone => h (Or.inl hone), if_neg fun hunit => h (Or.inr hunit)]

theorem shuffleFrom_perm {α : Type} (g : Random) (xs : Array α) (i : Nat) :
    (shuffleFrom g xs i).1.Perm xs := by
  induction i generalizing g xs with
  | zero => exact Array.Perm.refl xs
  | succ i ih =>
    have hswap (j : Nat) : (xs.swapIfInBounds (i + 1) j).Perm xs := by
      rw [Array.swapIfInBounds_def]
      split
      · split
        · exact Array.swap_perm _ _
        · exact Array.Perm.refl xs
      · exact Array.Perm.refl xs
    -- A draw that stays in the goal is computed when the kernel compares the two sides.
    unfold shuffleFrom
    generalize g.belowShort (i + 2) = drawn
    exact (ih drawn.2 _).trans (hswap drawn.1)

theorem shuffle_perm {α : Type} (xs : List α) (g : Random) : (g.shuffle xs).1.Perm xs := by
  have h := (shuffleFrom_perm g xs.toArray (xs.length - 1)).toList
  simpa [shuffle] using h

/-- How many words a source has given, counted from its first block. -/
def position (g : Random) : Int :=
  16 * (g.next : Int) - g.unread.length

theorem position_word (g : Random) : g.word.2.position = g.position + 1 := by
  unfold word position
  split
  · next w ws h =>
    simp only [h, List.length_cons]
    omega
  · next h =>
    simp only [h, List.length_tail, Vector.length_toList, List.length_nil]
    omega

theorem position_doubleWord (g : Random) : g.doubleWord.2.position = g.position + 2 := by
  have hlow := g.position_word
  have hhigh := g.word.2.position_word
  change g.word.2.word.2.position = g.position + 2
  omega

/-- A number is drawn from at least one try, so a source that every try moves on is moved on. -/
theorem position_lt_belowFrom {draw : Random → Nat × Random} (count bound : Nat)
    (hdraw : ∀ g, g.position < (draw g).2.position) (tries : Nat) (g : Random) :
    g.position < (belowFrom draw count bound tries g).2.position := by
  induction tries generalizing g with
  | zero => exact hdraw g
  | succ tries ih =>
    simp only [belowFrom]
    split
    · exact hdraw g
    · exact Int.lt_trans (hdraw g) (ih _)

theorem below_ne_self (bound : Nat) (g : Random) : (below bound g).2 ≠ g := by
  intro hsame
  have hmoved : g.position < (below bound g).2.position := by
    refine position_lt_belowFrom _ bound (fun g => ?_) maxTries g
    dsimp only
    rw [position_doubleWord]
    omega
  rw [hsame] at hmoved
  exact Int.lt_irrefl _ hmoved

end PatchSearch.Random
