import PatchSearch.Proofs.Genome.Shape

/-!
What crossover makes of two chromosomes. With fewer than two points they go on as they are and
nothing is drawn. Otherwise one cut is drawn for all three lists, and each child has one parent
before the cut and the other from it on. At every point the children then have the genes of their
parents, each as a whole, and together they have as many active genes as their parents.
-/
namespace PatchSearch

/-- What a chromosome says about one point. -/
structure Gene where
  active : Bool
  operator : Nat
  ingredient : Nat
  deriving DecidableEq

namespace Chromosome

/-- The gene of a point that has an entry in all three lists. -/
def gene (c : Chromosome) (i : Nat) : Option Gene := do
  let active ← c.active[i]?
  let operator ← c.operatorIndex[i]?
  let ingredient ← c.ingredientIndex[i]?
  return ⟨active, operator, ingredient⟩

variable {n cut : Nat} {a b c d : Chromosome}

theorem Shaped.exists_gene (h : c.Shaped n) {i : Nat} (hi : i < n) : ∃ x, c.gene i = some x := by
  obtain ⟨ha, ho, hk⟩ := h
  have hactive : c.active[i]? = some _ := List.getElem?_eq_getElem (by omega)
  have hoperator : c.operatorIndex[i]? = some _ := List.getElem?_eq_getElem (by omega)
  have hingredient : c.ingredientIndex[i]? = some _ := List.getElem?_eq_getElem (by omega)
  exact ⟨_, by rw [gene, hactive, hoperator, hingredient]; rfl⟩

theorem getElem?_take_append_drop {β : Type} {xs : List β} (hcut : cut ≤ xs.length)
    (ys : List β) (i : Nat) :
    (xs.take cut ++ ys.drop cut)[i]? = if i < cut then xs[i]? else ys[i]? := by
  have hlength : (xs.take cut).length = cut := List.length_take_of_le hcut
  by_cases hi : i < cut
  · rw [if_pos hi, List.getElem?_append_left (by omega), List.getElem?_take_of_lt hi]
  · have hindex : cut + (i - cut) = i := by omega
    rw [if_neg hi, List.getElem?_append_right (by omega), hlength, List.getElem?_drop, hindex]

/-- A child takes whole genes, since the cut is the same for all three lists. -/
theorem Spliced.gene_eq (h : Spliced cut a b c) (ha : a.Shaped n) (hcut : cut ≤ n) (i : Nat) :
    c.gene i = if i < cut then a.gene i else b.gene i := by
  obtain ⟨haa, hao, hai⟩ := ha
  unfold gene
  rw [h.active, h.operatorIndex, h.ingredientIndex, getElem?_take_append_drop (by omega),
    getElem?_take_append_drop (by omega), getElem?_take_append_drop (by omega)]
  split <;> rfl

/-- What one child leaves of the active genes the other one takes. -/
theorem activeCount_add_of_spliced (hc : Spliced cut a b c) (hd : Spliced cut b a d) :
    c.activeCount + d.activeCount = a.activeCount + b.activeCount := by
  have hsplit (x : Chromosome) : x.activeCount =
      (x.active.take cut).count true + (x.active.drop cut).count true := by
    rw [← List.count_append, List.take_append_drop]
    rfl
  rw [hsplit a, hsplit b]
  unfold activeCount
  rw [hc.active, hd.active, List.count_append, List.count_append]
  omega

/-- Crossover swaps aligned tails. Of two chromosomes with one number of points it makes two with
that number. With fewer than two points they are the parents and the source is left alone. With more
there is one cut, a number drawn below the number of points less one, and one more: the first child
is the first parent before the cut and the second from it on in all three lists, and the second
child the reverse. At each point the children have the genes of their parents, in this order or in
the other, and together the children have as many active genes as the parents. -/
theorem crossover_swaps_tails (ha : a.Shaped n) (hb : b.Shaped n) (g : Random) :
    ∃ c d g', a.crossover b g = .ok ((c, d), g') ∧
      (n < 2 → c = a ∧ d = b ∧ g' = g) ∧
      (2 ≤ n → ∃ cut, 1 ≤ cut ∧ cut < n ∧ g.below (n - 1) = (cut - 1, g') ∧
        Spliced cut a b c ∧ Spliced cut b a d) ∧
      c.Shaped n ∧ d.Shaped n ∧
      (∀ i < n, ∃ x y, a.gene i = some x ∧ b.gene i = some y ∧
        (c.gene i = some x ∧ d.gene i = some y ∨ c.gene i = some y ∧ d.gene i = some x)) ∧
      c.activeCount + d.activeCount = a.activeCount + b.activeCount := by
  have hgenes (i : Nat) (hi : i < n) : ∃ x y, a.gene i = some x ∧ b.gene i = some y := by
    obtain ⟨x, hx⟩ := ha.exists_gene hi
    obtain ⟨y, hy⟩ := hb.exists_gene hi
    exact ⟨x, y, hx, hy⟩
  by_cases hn : n < 2
  · refine ⟨a, b, g, crossover_of_lt ha hb hn g, fun _ => ⟨rfl, rfl, rfl⟩, fun hlarge => ?_, ha, hb,
      fun i hi => ?_, rfl⟩
    · omega
    · obtain ⟨x, y, hx, hy⟩ := hgenes i hi
      exact ⟨x, y, hx, hy, Or.inl ⟨hx, hy⟩⟩
  · obtain ⟨cut, c, d, g', hlow, hcut, hdrawn, hcrossed, hc, hd⟩ :=
      crossover_of_le ha hb (by omega) g
    refine ⟨c, d, g', hcrossed, fun hsmall => absurd hsmall hn,
      fun _ => ⟨cut, hlow, hcut, hdrawn, hc, hd⟩, hc.shaped ha hb hcut.le, hd.shaped hb ha hcut.le,
      fun i hi => ?_, activeCount_add_of_spliced hc hd⟩
    obtain ⟨x, y, hx, hy⟩ := hgenes i hi
    refine ⟨x, y, hx, hy, ?_⟩
    rw [hc.gene_eq ha hcut.le, hd.gene_eq hb hcut.le]
    by_cases hbefore : i < cut
    · rw [if_pos hbefore, if_pos hbefore]
      exact Or.inl ⟨hx, hy⟩
    · rw [if_neg hbefore, if_neg hbefore]
      exact Or.inr ⟨hy, hx⟩

/-- Of three points the first stays with its parent and the last one changes over, wherever the cut
is drawn. -/
theorem crossover_swaps_tails_of_three_points :
    (⟨[true, false, true], [0, 1, 2], [5, 6, 7]⟩ : Chromosome).Shaped 3 ∧
      (⟨[false, false, false], [2, 0, 1], [1, 2, 3]⟩ : Chromosome).Shaped 3 ∧
      ∃ c d g', crossover ⟨[true, false, true], [0, 1, 2], [5, 6, 7]⟩
          ⟨[false, false, false], [2, 0, 1], [1, 2, 3]⟩ (Random.ofSeed 0) = .ok ((c, d), g') ∧
        c.gene 0 = some ⟨true, 0, 5⟩ ∧ c.gene 2 = some ⟨false, 1, 3⟩ ∧
        d.gene 0 = some ⟨false, 2, 1⟩ ∧ d.gene 2 = some ⟨true, 2, 7⟩ ∧
        c.activeCount + d.activeCount = 2 := by
  let a : Chromosome := ⟨[true, false, true], [0, 1, 2], [5, 6, 7]⟩
  let b : Chromosome := ⟨[false, false, false], [2, 0, 1], [1, 2, 3]⟩
  have ha : a.Shaped 3 := ⟨rfl, rfl, rfl⟩
  have hb : b.Shaped 3 := ⟨rfl, rfl, rfl⟩
  obtain ⟨c, d, g', hcrossed, -, hcut, -, -, -, hcount⟩ :=
    crossover_swaps_tails ha hb (Random.ofSeed 0)
  obtain ⟨cut, hlow, hhigh, -, hc, hd⟩ := hcut (by omega)
  have hfirst : 0 < cut := hlow
  have hlast : ¬ 2 < cut := by omega
  refine ⟨ha, hb, c, d, g', hcrossed, ?_, ?_, ?_, ?_, hcount⟩
  · rw [hc.gene_eq ha hhigh.le, if_pos hfirst]
    rfl
  · rw [hc.gene_eq ha hhigh.le, if_neg hlast]
    rfl
  · rw [hd.gene_eq hb hhigh.le, if_pos hfirst]
    rfl
  · rw [hd.gene_eq hb hhigh.le, if_neg hlast]
    rfl

end Chromosome

end PatchSearch
