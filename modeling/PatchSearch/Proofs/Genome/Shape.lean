import PatchSearch.Evaluation.Select
import PatchSearch.Genome
import PatchSearch.Proofs.Numbers.FloatOrder
import PatchSearch.Proofs.Random.Draws

/-!
The shape of chromosomes. A chromosome has the shape of a model when its three lists have one
entry for each point. Everything that makes a chromosome or changes one keeps the shape, and
nothing that reads a chromosome of the right shape comes to a fault.
-/
namespace PatchSearch

/-- Moving any number into the unit interval gives a probability. -/
theorem isProbability_clampUnit (x : Float) (h : x.isNaN = false) :
    Random.IsProbability (clampUnit x) := by
  have hone : (1.0 : Float).isNaN = false := by decide +kernel
  have hzero : (0.0 : Float).isNaN = false := by decide +kernel
  unfold clampUnit
  split
  · exact Or.inr ⟨by decide +kernel, by decide +kernel⟩
  · next hlow =>
    split
    · exact Or.inl (by decide +kernel)
    · next hhigh =>
      have hle : x ≤ 1.0 := FloatOrder.le_of_not_lt hone h hhigh
      by_cases hlt : x < 1.0
      · exact Or.inr ⟨FloatOrder.le_of_not_lt h hzero hlow, hlt⟩
      · exact Or.inl (FloatOrder.beq_of_le_of_not_lt hle hlt)

namespace Chromosome

/-- The three lists have one entry for each of `n` points. -/
structure Shaped (n : Nat) (c : Chromosome) : Prop where
  active : c.active.length = n
  operatorIndex : c.operatorIndex.length = n
  ingredientIndex : c.ingredientIndex.length = n

theorem shaped_blank (n : Nat) : (blank n).Shaped n := by
  constructor <;> simp [blank]

theorem Shaped.cons {n : Nat} {c : Chromosome} (h : c.Shaped n) (active : Bool)
    (operator ingredient : Nat) : (c.cons active operator ingredient).Shaped (n + 1) := by
  obtain ⟨ha, ho, hi⟩ := h
  constructor <;> simp [Chromosome.cons, ha, ho, hi]

theorem Shaped.switchOff {n : Nat} {c : Chromosome} (h : c.Shaped n) (i : Nat) :
    (c.switchOff i).Shaped n := by
  obtain ⟨ha, ho, hi⟩ := h
  constructor <;> simp [Chromosome.switchOff, ha, ho, hi]

theorem Shaped.setIngredient {n : Nat} {c : Chromosome} (h : c.Shaped n) (i k : Nat) :
    (c.setIngredient i k).Shaped n := by
  obtain ⟨ha, ho, hi⟩ := h
  constructor <;> simp [Chromosome.setIngredient, ha, ho, hi]

theorem Shaped.min_length {n : Nat} {a b : Chromosome} (ha : a.Shaped n) (hb : b.Shaped n) :
    min a.length b.length = n := by
  simp [length, ha.active, hb.active]

/-- Random chromosomes have the shape of the bounds they are drawn within. -/
theorem yields_random (strategy : Initialization) (mu : Float) (bounds : List GeneBounds)
    (g : Random) (h : ∀ b ∈ bounds, Random.IsProbability (strategy.activation mu b)) :
    Yields (random strategy mu bounds g) fun r => r.1.Shaped bounds.length := by
  induction bounds generalizing g with
  | nil => exact Yields.ok (shaped_blank 0)
  | cons b bs ih =>
    unfold random
    refine Yields.bind (Random.yields_chance _ g (h b (by simp))) fun flip _ => ?_
    dsimp only
    refine Yields.bind (ih _ fun b hb => h b (by simp [hb])) fun rest hrest => ?_
    exact Yields.pure (hrest.cons _ _ _)

/-- One parent before the cut and the other from it on, in each of the three lists. -/
structure Spliced (cut : Nat) (a b c : Chromosome) : Prop where
  active : c.active = a.active.take cut ++ b.active.drop cut
  operatorIndex : c.operatorIndex = a.operatorIndex.take cut ++ b.operatorIndex.drop cut
  ingredientIndex : c.ingredientIndex = a.ingredientIndex.take cut ++ b.ingredientIndex.drop cut

section Crossover

variable {n cut : Nat} {a b c : Chromosome}

theorem Spliced.shaped (h : Spliced cut a b c) (ha : a.Shaped n) (hb : b.Shaped n)
    (hcut : cut ≤ n) : c.Shaped n := by
  obtain ⟨haa, hao, hai⟩ := ha
  obtain ⟨hba, hbo, hbi⟩ := hb
  obtain ⟨hca, hco, hci⟩ := h
  constructor <;> simp [hca, hco, hci] <;> omega

theorem exists_spliced (ha : a.Shaped n) (hb : b.Shaped n) (hcut : cut ≤ n) :
    ∃ c, child cut a b = .ok c ∧ Spliced cut a b c := by
  obtain ⟨haa, hao, hai⟩ := ha
  obtain ⟨hba, hbo, hbi⟩ := hb
  refine ⟨⟨a.active.take cut ++ b.active.drop cut, a.operatorIndex.take cut ++
    b.operatorIndex.drop cut, a.ingredientIndex.take cut ++ b.ingredientIndex.drop cut⟩, ?_,
    ⟨rfl, rfl, rfl⟩⟩
  unfold child
  rw [splice_of_le cut _ _ (by omega) (by omega), splice_of_le cut _ _ (by omega) (by omega),
    splice_of_le cut _ _ (by omega) (by omega)]
  rfl

theorem crossover_of_lt (ha : a.Shaped n) (hb : b.Shaped n) (hn : n < 2) (g : Random) :
    a.crossover b g = .ok ((a, b), g) := by
  unfold crossover
  rw [ha.min_length hb]
  dsimp only
  rw [if_pos hn]
  rfl

/-- With two points or more, both children are cut at one place, which is drawn above the first
point and below the number of points. -/
theorem crossover_of_le (ha : a.Shaped n) (hb : b.Shaped n) (hn : 2 ≤ n) (g : Random) :
    ∃ cut c d g', 1 ≤ cut ∧ cut < n ∧ g.below (n - 1) = (cut - 1, g') ∧
      a.crossover b g = .ok ((c, d), g') ∧ Spliced cut a b c ∧ Spliced cut b a d := by
  have hlt := Random.below_lt (n - 1) (by omega) g
  have hcut : (g.below (n - 1)).1 + 1 ≤ n := by omega
  obtain ⟨c, hchild, hc⟩ := exists_spliced ha hb hcut
  obtain ⟨d, hchild', hd⟩ := exists_spliced hb ha hcut
  refine ⟨_, c, d, (g.below (n - 1)).2, by omega, by omega, ?_, ?_, hc, hd⟩
  · rw [Nat.add_sub_cancel]
  · unfold crossover
    rw [ha.min_length hb]
    dsimp only
    rw [if_neg (by omega), hchild, hchild']
    rfl

/-- Both children have the shape of their parents. -/
theorem yields_crossover (ha : a.Shaped n) (hb : b.Shaped n) (g : Random) :
    Yields (a.crossover b g) fun r => r.1.1.Shaped n ∧ r.1.2.Shaped n := by
  by_cases hn : n < 2
  · exact ⟨_, crossover_of_lt ha hb hn g, ha, hb⟩
  · obtain ⟨cut, c, d, g', -, hcut, -, hcrossed, hc, hd⟩ := crossover_of_le ha hb (by omega) g
    exact ⟨_, hcrossed, hc.shaped ha hb hcut.le, hd.shaped hb ha hcut.le⟩

end Crossover

theorem yields_mutateIndex {rate : Float} (hrate : Random.IsProbability rate) (bound old : Nat)
    (g : Random) :
    Yields (mutateIndex rate bound (some old) g) fun r => ∃ new, r.1 = some new := by
  unfold mutateIndex
  split
  · exact Yields.pure ⟨old, rfl⟩
  · refine Yields.bind (Random.yields_chance rate g hrate) fun hit _ => ?_
    dsimp only
    split
    · exact Yields.pure ⟨old, rfl⟩
    · exact Yields.pure ⟨_, rfl⟩

theorem yields_mutateGenes {rate : Float} (hrate : Random.IsProbability rate)
    (bounds : List GeneBounds) (as : List Bool) (os ks : List Nat) (g : Random)
    (has : as.length = bounds.length) (hos : os.length = bounds.length)
    (hks : ks.length = bounds.length) :
    Yields (mutateGenes rate bounds as os ks g) fun r => r.1.Shaped bounds.length := by
  induction bounds generalizing as os ks g with
  | nil =>
    obtain rfl : as = [] := by simpa using has
    exact Yields.ok ⟨rfl, hos, hks⟩
  | cons b bs ih =>
    obtain ⟨a, as, rfl⟩ : ∃ a as', as = a :: as' := by
      cases as <;> simp at has ⊢
    obtain ⟨o, os, rfl⟩ : ∃ o os', os = o :: os' := by
      cases os <;> simp at hos ⊢
    obtain ⟨k, ks, rfl⟩ : ∃ k ks', ks = k :: ks' := by
      cases ks <;> simp at hks ⊢
    simp only [List.length_cons, Nat.add_right_cancel_iff] at has hos hks
    unfold mutateGenes
    refine Yields.bind (Random.yields_chance rate g hrate) fun flip _ => ?_
    dsimp only [List.head?_cons]
    refine Yields.bind (yields_mutateIndex hrate _ o _) fun r hr => ?_
    obtain ⟨o', ho'⟩ := hr
    refine Yields.bind (yields_mutateIndex hrate _ k _) fun r' hr' => ?_
    obtain ⟨k', hk'⟩ := hr'
    refine Yields.bind (ih as os ks _ has hos hks) fun rest hrest => ?_
    obtain ⟨ha, ho, hk⟩ := hrest
    refine Yields.pure ?_
    constructor <;> simp [ho', hk', ha, ho, hk]

/-- Mutation keeps the shape. -/
theorem yields_mutate {bounds : List GeneBounds} {c : Chromosome} (hc : c.Shaped bounds.length)
    (rate : Float) (hrate : rate.isNaN = false) (g : Random) :
    Yields (c.mutate bounds rate g) fun r => r.1.Shaped bounds.length :=
  yields_mutateGenes (isProbability_clampUnit rate hrate) bounds _ _ _ g hc.active
    hc.operatorIndex hc.ingredientIndex

theorem yields_differsAt {n i : Nat} {a b : Chromosome} (ha : a.Shaped n) (hb : b.Shaped n)
    (hi : i < n) : Yields (a.differsAt b i) fun _ => True := by
  obtain ⟨ha, hao, hai⟩ := ha
  obtain ⟨hb, hbo, hbi⟩ := hb
  unfold differsAt
  refine Yields.bind (yields_itemAt (by omega)) fun x _ => ?_
  refine Yields.bind (yields_itemAt (by omega)) fun y _ => ?_
  cases x <;> cases y
  · exact Yields.pure trivial
  · exact Yields.pure trivial
  · exact Yields.pure trivial
  · refine Yields.bind (yields_itemAt (by omega)) fun o _ => ?_
    refine Yields.bind (yields_itemAt (by omega)) fun o' _ => ?_
    split
    · exact Yields.pure trivial
    · refine Yields.bind (yields_itemAt (by omega)) fun k _ => ?_
      refine Yields.bind (yields_itemAt (by omega)) fun k' _ => ?_
      exact Yields.pure trivial

theorem yields_differences {n : Nat} {a b : Chromosome} (ha : a.Shaped n) (hb : b.Shaped n)
    (points : List Nat) (h : ∀ i ∈ points, i < n) :
    Yields (a.differences b points) fun _ => True := by
  induction points with
  | nil => exact Yields.ok trivial
  | cons i rest ih =>
    unfold differences
    refine Yields.bind (yields_differsAt ha hb (h i (by simp))) fun d _ => ?_
    refine Yields.bind (ih fun j hj => h j (by simp [hj])) fun m _ => ?_
    exact Yields.pure trivial

theorem yields_distance {α : Type} [Arithmetic α] {n : Nat} {a b : Chromosome}
    (ha : a.Shaped n) (hb : b.Shaped n) :
    Yields (a.distance b : Except Fault α) fun _ => True := by
  unfold distance
  dsimp only
  split
  · exact Yields.pure trivial
  · refine Yields.bind (yields_differences ha hb _ fun i hi => ?_) fun d _ => Yields.pure trivial
    simpa [ha.min_length hb] using hi

section Selection

variable {points : List Point} {c : Chromosome}

theorem shaped_filterEdit {n : Nat} (h : c.Shaped n) (i : Nat) (p : Point) (number : Nat)
    (o : Operator) (k : Option Nat) : (filterEdit c i p number o k).2.Shaped n := by
  unfold filterEdit
  split
  · exact h
  · exact h.setIngredient i _
  · exact h.switchOff i

theorem yields_decodeGene {n i : Nat} (h : c.Shaped n) (hi : i < n) (filter : Bool) (p : Point) :
    Yields (decodeGene filter c i p) fun r => r.2.Shaped n := by
  have hoperator := h.operatorIndex
  have hingredient := h.ingredientIndex
  unfold decodeGene
  split
  · exact Yields.pure (h.switchOff i)
  · next hempty =>
    have hpos : 0 < p.operators.length := by
      simpa [List.length_pos_iff] using hempty
    refine Yields.bind (yields_itemAt (by omega)) fun number _ => ?_
    refine Yields.bind (yields_itemAt (Nat.mod_lt number hpos)) fun o _ => ?_
    split
    · exact Yields.pure (h.switchOff i)
    · have hrest (k : Option Nat) : Yields (if filter = true
          then pure (filterEdit c i p (number % p.operators.length) o k)
          else pure (some (appliedEdit i p (number % p.operators.length) o k), c) :
            Except Fault (Option AppliedEdit × Chromosome)) fun r => r.2.Shaped n := by
        split
        · exact Yields.pure (shaped_filterEdit h i p _ o k)
        · exact Yields.pure h
      dsimp only
      split
      · exact Yields.bind (yields_itemAt (by omega)) fun k _ => hrest _
      · exact hrest none

/-- A gene is switched off, or its numbers are those of an operator of its point and, where the
operator needs one, of an ingredient; then the filter, if there is one, rules on their edit. -/
theorem decodeGene_cases {filter : Bool} {i : Nat} {p : Point} {edit : Option AppliedEdit}
    {c' : Chromosome} (h : decodeGene filter c i p = .ok (edit, c')) :
    edit = none ∧ c' = c.switchOff i ∨
      ∃ number o k, p.operators[number]? = some o ∧ k.isSome = o.needsIngredient ∧
        (∀ n ∈ k, n < p.ingredients.length) ∧
        (edit, c') = if filter = true then filterEdit c i p number o k
          else (some (appliedEdit i p number o k), c) := by
  unfold decodeGene at h
  split at h
  · cases h
    exact Or.inl ⟨rfl, rfl⟩
  · obtain ⟨number, -, h⟩ := bind_eq_ok_iff.mp h
    obtain ⟨o, ho, h⟩ := bind_eq_ok_iff.mp h
    have ho : p.operators[number % p.operators.length]? = some o := getElem?_of_itemAt ho
    split at h
    · cases h
      exact Or.inl ⟨rfl, rfl⟩
    · next hthere =>
      have hlast (k : Option Nat) (h : (if filter = true
          then pure (filterEdit c i p (number % p.operators.length) o k)
          else pure (some (appliedEdit i p (number % p.operators.length) o k), c)) =
            (.ok (edit, c') : Except Fault (Option AppliedEdit × Chromosome))) :
          (edit, c') = if filter = true then filterEdit c i p (number % p.operators.length) o k
            else (some (appliedEdit i p (number % p.operators.length) o k), c) := by
        by_cases hfilter : filter = true
        · rw [if_pos hfilter] at h ⊢
          exact (Except.ok.inj h).symm
        · rw [if_neg hfilter] at h ⊢
          exact (Except.ok.inj h).symm
      dsimp only at h
      split at h
      · next hneeds =>
        obtain ⟨n, -, h⟩ := bind_eq_ok_iff.mp h
        have hpos : 0 < p.ingredients.length := by
          apply List.length_pos_of_ne_nil
          intro hnone
          exact hthere (by simp [hneeds, hnone])
        have hvalid : ∀ m ∈ some (n % p.ingredients.length), m < p.ingredients.length := by
          intro m hm
          obtain rfl := Option.mem_some.mp hm
          exact Nat.mod_lt n hpos
        exact Or.inr ⟨_, o, some _, ho, hneeds.symm, hvalid, hlast _ h⟩
      · next hneeds =>
        have hneeds : o.needsIngredient = false := by simpa using hneeds
        exact Or.inr ⟨_, o, none, ho, hneeds.symm, nofun, hlast none h⟩

theorem yields_decodeFrom {n : Nat} (filter : Bool) (i : Nat) (h : c.Shaped n) :
    Yields (decodeFrom filter i points c) fun r => r.2.Shaped n := by
  induction points generalizing i c with
  | nil => exact Yields.ok h
  | cons p ps ih =>
    unfold decodeFrom
    split
    · exact Yields.ok h
    · exact ih (i + 1) h
    · next hactive =>
      have hi : i < n := by
        rw [← h.active]
        exact (List.getElem?_eq_some_iff.mp hactive).1
      refine Yields.bind (yields_decodeGene h hi filter p) fun r hr => ?_
      refine Yields.bind (ih (i + 1) hr) fun r' hr' => ?_
      exact Yields.pure hr'

theorem shaped_foldl_switchOff {n : Nat} (h : c.Shaped n) (edits : List AppliedEdit) :
    (edits.foldl (fun c e => c.switchOff e.point) c).Shaped n := by
  induction edits generalizing c with
  | nil => exact h
  | cons e es ih => exact ih (h.switchOff e.point)

/-- The selection of edits comes to no fault and keeps the shape. -/
theorem yields_selectEdits {n : Nat} (h : c.Shaped n) (filter : Bool) (limit : Option Nat) :
    Yields (selectEdits points filter limit c) fun r => r.2.Shaped n := by
  unfold selectEdits
  refine Yields.bind (yields_decodeFrom filter 0 h) fun r hr => ?_
  cases limit with
  | none => exact Yields.pure hr
  | some limit =>
    refine Yields.pure ?_
    unfold limitEdits
    split
    · exact hr
    · exact shaped_foldl_switchOff hr _

end Selection

end Chromosome

end PatchSearch
