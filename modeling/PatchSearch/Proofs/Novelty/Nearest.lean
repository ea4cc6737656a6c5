import PatchSearch.Proofs.Novelty
import PatchSearch.Proofs.SortedList

/-!
Novelty as a function of the archived descriptors as a multiset. The first values of a list in a
linear order are the same however the list is permuted, and of fractions they have the least sum of
all choices of as many. So the mean of the nearest distances does not depend on the slots, rises with
the number of neighbors and falls with the number of entries.
-/
namespace PatchSearch

section Smallest

variable {β : Type} {le : β → β → Bool} {count : ℕ} {values values' chosen chosen' : List β}

/-- The first of some values in an order: so many of them, in that order, and none that is left out
comes before one of them. -/
structure Smallest (le : β → β → Bool) (count : ℕ) (values chosen : List β) : Prop where
  length : chosen.length = count
  ascending : chosen.Pairwise fun x y => le x y = true
  others : ∃ rest, (chosen ++ rest).Perm values ∧ ∀ x ∈ chosen, ∀ y ∈ rest, le x y = true

theorem Smallest.mem (h : Smallest le count values chosen) {x : β} (hx : x ∈ chosen) :
    x ∈ values := by
  obtain ⟨rest, hsplit, -⟩ := h.others
  exact hsplit.mem_iff.mp (List.mem_append_left rest hx)

namespace Orders

theorem smallest_take (hle : Orders le) (h : count ≤ values.length) :
    Smallest le count values ((values.mergeSort le).take count) := by
  have hsorted := hle.pairwise_mergeSort values
  refine ⟨?_, hsorted.sublist (List.take_sublist _ _), (values.mergeSort le).drop count, ?_, ?_⟩
  · rw [List.length_take, List.length_mergeSort]
    omega
  · rw [List.take_append_drop]
    exact List.mergeSort_perm values le
  · rw [← List.take_append_drop count (values.mergeSort le), List.pairwise_append] at hsorted
    exact hsorted.2.2

/-- The first values are those that a sort puts first. -/
theorem eq_take_of_smallest (hle : Orders le) (h : Smallest le count values chosen) :
    chosen = (values.mergeSort le).take count := by
  obtain ⟨rest, hsplit, hrest⟩ := h.others
  have hwhole : (chosen ++ rest.mergeSort le).Pairwise fun x y => le x y = true := by
    refine List.pairwise_append.mpr ⟨h.ascending, hle.pairwise_mergeSort rest, ?_⟩
    intro x hx y hy
    exact hrest x hx y (List.mem_mergeSort.mp hy)
  have hperm : (chosen ++ rest.mergeSort le).Perm (values.mergeSort le) := by
    apply ((List.mergeSort_perm rest le).append_left chosen).trans
    exact hsplit.trans (List.mergeSort_perm values le).symm
  have heq : chosen ++ rest.mergeSort le = values.mergeSort le :=
    hperm.eq_of_pairwise (fun x y _ _ hxy hyx => hle.antisymm x y hxy hyx) hwhole
      (hle.pairwise_mergeSort values)
  rw [← heq, ← h.length, List.take_left]

end Orders

end Smallest

section Means

variable {count count' : ℕ} {values chosen chosen' : List ℚ}

/-- The order of fractions. -/
def fractionLE (p q : ℚ) : Bool :=
  decide (p ≤ q)

theorem orders_fractionLE : Orders fractionLE where
  total p q := by
    simp only [fractionLE, Bool.or_eq_true, decide_eq_true_eq]
    exact le_total p q
  trans p q r hpq hqr := by
    simp only [fractionLE, decide_eq_true_eq] at hpq hqr ⊢
    exact hpq.trans hqr
  antisymm p q hpq hqp := by
    simp only [fractionLE, decide_eq_true_eq] at hpq hqp
    exact hpq.antisymm hqp

/-- No other choice of as many values from an ascending list has a smaller sum than the first ones.
A choice has the head of the list or another value, which is no smaller, in its place. -/
theorem sum_take_le {sorted : List ℚ} (hsorted : sorted.Pairwise (· ≤ ·)) {choice : Multiset ℚ}
    (h : choice ≤ ↑sorted) : (sorted.take choice.card).sum ≤ choice.sum := by
  induction sorted generalizing choice with
  | nil =>
    obtain rfl : choice = 0 := by simpa using h
    simp
  | cons x sorted ih =>
    obtain ⟨hfirst, hsorted⟩ := List.pairwise_cons.mp hsorted
    by_cases hnone : choice = 0
    · subst hnone
      simp
    have hexchange : ∃ y rest, choice = y ::ₘ rest ∧ x ≤ y ∧ rest ≤ ↑sorted := by
      by_cases hx : x ∈ choice
      · obtain ⟨rest, rfl⟩ := Multiset.exists_cons_of_mem hx
        exact ⟨x, rest, rfl, le_rfl, (Multiset.cons_le_cons_iff x).mp h⟩
      · have hle : choice ≤ ↑sorted := (Multiset.le_cons_of_notMem hx).mp h
        obtain ⟨y, hy⟩ := Multiset.exists_mem_of_ne_zero hnone
        obtain ⟨rest, rfl⟩ := Multiset.exists_cons_of_mem hy
        refine ⟨y, rest, rfl, hfirst y ?_, (Multiset.le_cons_self rest y).trans hle⟩
        exact Multiset.mem_of_le hle hy
    obtain ⟨y, rest, rfl, hxy, hrest⟩ := hexchange
    rw [Multiset.card_cons, List.take_succ_cons, List.sum_cons, Multiset.sum_cons]
    exact add_le_add hxy (ih hsorted hrest)

/-- The first of some fractions have the least sum of all choices of as many. -/
theorem Smallest.sum_le (h : Smallest fractionLE count values chosen) {choice : Multiset ℚ}
    (hchoice : choice ≤ ↑values) (hcard : choice.card = count) : chosen.sum ≤ choice.sum := by
  have hsorted : (values.mergeSort fractionLE).Pairwise (· ≤ ·) :=
    (orders_fractionLE.pairwise_mergeSort values).imp of_decide_eq_true
  have hperm : (values : Multiset ℚ) = ↑(values.mergeSort fractionLE) :=
    Multiset.coe_eq_coe.mpr (List.mergeSort_perm values fractionLE).symm
  rw [orders_fractionLE.eq_take_of_smallest h, ← hcard]
  exact sum_take_le hsorted (hperm ▸ hchoice)

/-- Among more values the first ones are no larger. -/
theorem Smallest.sum_le_of_subperm {values' : List ℚ} (h : Smallest fractionLE count values chosen)
    (h' : Smallest fractionLE count values' chosen') (hmore : values.Subperm values') :
    chosen'.sum ≤ chosen.sum := by
  obtain ⟨rest, hsplit, -⟩ := h.others
  have hchosen : chosen.Subperm values :=
    (List.sublist_append_left chosen rest).subperm.trans hsplit.subperm
  have hchoice : (chosen : Multiset ℚ) ≤ values' := Multiset.coe_le.mpr (hchosen.trans hmore)
  have hsum := h'.sum_le hchoice h.length
  rwa [Multiset.sum_coe] at hsum

/-- The mean of the first values only grows with more of them, as each that is added is no smaller
than all those before. -/
theorem Smallest.mean_le (h : Smallest fractionLE count values chosen)
    (h' : Smallest fractionLE count' values chosen') (hpos : 0 < count) (hle : count ≤ count') :
    chosen.sum / count ≤ chosen'.sum / count' := by
  have hcount : (0 : ℚ) < count := Nat.cast_pos.mpr hpos
  have hcount' : (0 : ℚ) < count' := Nat.cast_pos.mpr (hpos.trans_le hle)
  have hchosen : chosen = chosen'.take count := by
    rw [orders_fractionLE.eq_take_of_smallest h, orders_fractionLE.eq_take_of_smallest h',
      List.take_take, min_eq_left hle]
  have hsplit : chosen' = chosen ++ chosen'.drop count := by
    rw [hchosen, List.take_append_drop]
  have hadded : ∀ y ∈ chosen'.drop count, chosen.sum / count ≤ y := by
    intro y hy
    have hascending := h'.ascending
    rw [hsplit, List.pairwise_append] at hascending
    have hbelow : ∀ x ∈ chosen, x ≤ y := fun x hx =>
      of_decide_eq_true (hascending.2.2 x hx y hy)
    have hsum := List.sum_le_card_nsmul chosen y hbelow
    rw [h.length, nsmul_eq_mul] at hsum
    exact (div_le_iff₀' hcount).mpr hsum
  have hrest := List.card_nsmul_le_sum _ _ hadded
  have hlength : ((chosen'.drop count).length : ℚ) = count' - count := by
    rw [List.length_drop, h'.length, Nat.cast_sub hle]
  rw [nsmul_eq_mul, hlength] at hrest
  have hsum : chosen'.sum = chosen.sum + (chosen'.drop count).sum := by
    conv_lhs => rw [hsplit]
    exact List.sum_append
  rw [le_div_iff₀ hcount', hsum]
  calc chosen.sum / count * count'
      = chosen.sum / count * count + (count' - count) * (chosen.sum / count) := by ring
    _ = chosen.sum + (count' - count) * (chosen.sum / count) := by
        rw [div_mul_cancel₀ _ hcount.ne']
    _ ≤ chosen.sum + (chosen'.drop count).sum := add_le_add_right hrest _

theorem Smallest.sum_nonneg (h : Smallest fractionLE count values chosen)
    (hnonneg : ∀ x ∈ values, 0 ≤ x) : 0 ≤ chosen.sum :=
  List.sum_nonneg fun x hx => hnonneg x (h.mem hx)

theorem Smallest.sum_le_count (h : Smallest fractionLE count values chosen)
    (hle : ∀ x ∈ values, x ≤ 1) : chosen.sum ≤ count := by
  have hsum := List.sum_le_card_nsmul chosen 1 fun x hx => hle x (h.mem hx)
  rwa [h.length, nsmul_one] at hsum

/-- The sum of the first values vanishes exactly when enough of all values do. -/
theorem Smallest.sum_eq_zero_iff (h : Smallest fractionLE count values chosen)
    (hnonneg : ∀ x ∈ values, 0 ≤ x) : chosen.sum = 0 ↔ count ≤ values.count 0 := by
  obtain ⟨rest, hsplit, -⟩ := h.others
  have hchosen : ∀ x ∈ chosen, 0 ≤ x := fun x hx => hnonneg x (h.mem hx)
  constructor
  · intro hzero
    have hall : ∀ x ∈ chosen, 0 = x := fun x hx =>
      (List.all_zero_of_le_zero_le_of_sum_eq_zero hchosen hzero hx).symm
    rw [← hsplit.count_eq, List.count_append, List.count_eq_length.mpr hall, h.length]
    omega
  · intro hcount
    have hreplicate : Multiset.replicate count 0 ≤ (values : Multiset ℚ) :=
      Multiset.le_count_iff_replicate_le.mp (by simpa using hcount)
    have hle := h.sum_le hreplicate (Multiset.card_replicate count 0)
    rw [Multiset.sum_replicate, nsmul_zero] at hle
    exact hle.antisymm (List.sum_nonneg hchosen)

end Means

section Exact

variable {α : Type} [ExactScalar α]

theorem ExactScalar.totalLE_number (p q : ℚ) :
    Scalar.totalLE (number p : α) (number q) = fractionLE p q := by
  unfold Scalar.totalLE fractionLE
  rw [compareTotal_eq, Bool.eq_iff_iff, decide_eq_true_eq, ← compare_le_iff_le,
    Ordering.isLE_iff_ne_gt]

/-- Without rounding the mean of the nearest is that of fractions. -/
theorem Archive.nearestMean_number (k : ℕ) (gaps : List ℚ) :
    nearestMean k (gaps.map (ExactScalar.number : ℚ → α)) =
      ExactScalar.number (((gaps.mergeSort fractionLE).take (max 1 (min k gaps.length))).sum /
        (max 1 (min k gaps.length) : ℕ)) := by
  have hsorted : (gaps.map (ExactScalar.number : ℚ → α)).mergeSort Scalar.totalLE =
      (gaps.mergeSort fractionLE).map ExactScalar.number :=
    (List.map_mergeSort fun p _ q _ => (ExactScalar.totalLE_number p q).symm).symm
  have hcount : ((max 1 (min k gaps.length) : ℕ) : ℚ) ≠ 0 := Nat.cast_ne_zero.mpr (by omega)
  unfold nearestMean
  dsimp only
  rw [hsorted, List.length_map, ← List.map_take, ExactScalar.total_eq, ExactScalar.ofNat_eq,
    ExactScalar.div_eq _ hcount]

end Exact

/-- A descriptor of the outcomes of so many tests. -/
def Descriptor.Packs (n : ℕ) (d : Descriptor) : Prop :=
  ∃ bits : List Bool, bits.length = n ∧ d = ofPassed bits

namespace Descriptor

variable {n : ℕ} {d e : Descriptor}

theorem Packs.length (h : d.Packs n) : d.length = n := by
  obtain ⟨bits, rfl, rfl⟩ := h
  rfl

theorem Packs.distance {α : Type} [Arithmetic α] (hd : d.Packs n) (he : e.Packs n) (hn : 0 < n) :
    (d.distance e : Except NoveltyError α) =
      .ok (proportion (differences d.toList e.toList).card n) := by
  obtain ⟨bits, rfl, rfl⟩ := hd
  obtain ⟨bits', hlength, rfl⟩ := he
  rw [toList_ofPassed, toList_ofPassed]
  exact distance_ofPassed hlength.symm (List.ne_nil_of_length_pos hn)

theorem Packs.exact_distance {α : Type} [ExactScalar α] (hd : d.Packs n) (he : e.Packs n)
    (hn : 0 < n) : (d.distance e : Except NoveltyError α) =
      .ok (ExactScalar.number (gap d.toList e.toList)) := by
  rw [hd.distance he hn, ExactScalar.proportion_eq _ hn.ne']
  obtain ⟨bits, rfl, rfl⟩ := hd
  rw [toList_ofPassed]
  rfl

theorem Packs.gap_eq_zero_iff (hd : d.Packs n) (he : e.Packs n) (hn : 0 < n) :
    gap d.toList e.toList = 0 ↔ e = d := by
  obtain ⟨bits, rfl, rfl⟩ := hd
  obtain ⟨bits', hlength, rfl⟩ := he
  rw [toList_ofPassed, toList_ofPassed, ofPassed_inj,
    Descriptor.gap_eq_zero_iff hlength.symm (List.ne_nil_of_length_pos hn), eq_comm]

end Descriptor

namespace Archive

open FloatOrder

variable {α : Type} {n k : ℕ} {a : Archive} {d : Descriptor}

/-- With distances to all entries the novelty is the mean of the nearest. -/
theorem novelty_of_distances [Scalar α] {f : Descriptor → α} (hd : d.length ≠ 0)
    (hsome : a.entries ≠ []) (h : ∀ e ∈ a.entries, d.distance e = .ok (f e)) (k : ℕ) :
    a.novelty d k = .ok (nearestMean k (a.entries.map f)) := by
  have hempty : d.isEmpty = false := by simpa [Descriptor.isEmpty] using hd
  have hnone : a.entries.isEmpty = false := by simpa using hsome
  unfold novelty
  rw [hempty, hnone, mapM_eq_ok_map h]
  rfl

/-- The differences of a descriptor from the entries of an archive. -/
def gaps (a : Archive) (d : Descriptor) : List ℚ :=
  a.entries.map fun e => Descriptor.gap d.toList e.toList

/-- The novelty without rounding, in every exact arithmetic. -/
def ExactNovelty (a : Archive) (d : Descriptor) (k : ℕ) (q : ℚ) : Prop :=
  ∀ (α : Type) [ExactScalar α], a.novelty d k = .ok (ExactScalar.number q : α)

/-- How many entries a novelty is the mean of. -/
def neighbors (a : Archive) (k : ℕ) : ℕ :=
  max 1 (min k a.entries.length)

theorem neighbors_pos (a : Archive) (k : ℕ) : 0 < a.neighbors k :=
  Nat.lt_of_lt_of_le Nat.one_pos (le_max_left 1 _)

theorem neighbors_le (hsome : a.entries ≠ []) (k : ℕ) : a.neighbors k ≤ a.entries.length := by
  have hpos := List.length_pos_of_ne_nil hsome
  unfold neighbors
  omega

/-- The least of these differences, as many as there are neighbors. -/
def leastGaps (a : Archive) (d : Descriptor) (k : ℕ) : List ℚ :=
  ((a.gaps d).mergeSort fractionLE).take (a.neighbors k)

/-- The mean of the least differences. -/
def meanGap (a : Archive) (d : Descriptor) (k : ℕ) : ℚ :=
  (a.leastGaps d k).sum / a.neighbors k

theorem neighbors_mono (a : Archive) {k k' : ℕ} (h : k ≤ k') : a.neighbors k ≤ a.neighbors k' := by
  unfold neighbors
  omega

theorem bounds_of_mem_gaps {x : ℚ} (h : x ∈ a.gaps d) : 0 ≤ x ∧ x ≤ 1 := by
  obtain ⟨e, -, rfl⟩ := List.mem_map.mp h
  exact ⟨Descriptor.gap_nonneg, Descriptor.gap_le_one⟩

theorem smallest_leastGaps (hsome : a.entries ≠ []) (d : Descriptor) (k : ℕ) :
    Smallest fractionLE (a.neighbors k) (a.gaps d) (a.leastGaps d k) := by
  apply orders_fractionLE.smallest_take
  rw [gaps, List.length_map]
  exact neighbors_le hsome k

theorem exactNovelty_meanGap (hn : 0 < n) (hd : d.Packs n) (ha : ∀ e ∈ a.entries, e.Packs n)
    (hsome : a.entries ≠ []) (k : ℕ) : a.ExactNovelty d k (a.meanGap d k) := by
  intro α _
  have hnovelty := novelty_of_distances (α := α) (hd.length.trans_ne hn.ne') hsome
    (fun e he => hd.exact_distance (ha e he) hn) k
  have hmap : a.entries.map (fun e => (ExactScalar.number (Descriptor.gap d.toList e.toList) : α)) =
      (a.gaps d).map ExactScalar.number := by
    rw [gaps, List.map_map]
    rfl
  rw [hnovelty, hmap, nearestMean_number, gaps, List.length_map]
  rfl

theorem meanGap_bounds (hsome : a.entries ≠ []) (d : Descriptor) (k : ℕ) :
    0 ≤ a.meanGap d k ∧ a.meanGap d k ≤ 1 := by
  have hleast := smallest_leastGaps hsome d k
  have hcount : (0 : ℚ) < a.neighbors k := Nat.cast_pos.mpr (a.neighbors_pos k)
  constructor
  · exact div_nonneg (hleast.sum_nonneg fun x hx => (bounds_of_mem_gaps hx).1) hcount.le
  · exact (div_le_one hcount).mpr (hleast.sum_le_count fun x hx => (bounds_of_mem_gaps hx).2)

/-- The entries without a gap are those equal to the descriptor. -/
theorem count_gaps (hn : 0 < n) (hd : d.Packs n) (ha : ∀ e ∈ a.entries, e.Packs n) :
    (a.gaps d).count 0 = a.entries.count d := by
  rw [gaps, List.count, List.countP_map, List.count]
  apply List.countP_congr
  intro e he
  rw [Function.comp_apply, beq_iff_eq, beq_iff_eq]
  exact hd.gap_eq_zero_iff (ha e he) hn

theorem meanGap_eq_zero_iff (hn : 0 < n) (hd : d.Packs n) (ha : ∀ e ∈ a.entries, e.Packs n)
    (hsome : a.entries ≠ []) (k : ℕ) :
    a.meanGap d k = 0 ↔ a.neighbors k ≤ a.entries.count d := by
  have hcount : (a.neighbors k : ℚ) ≠ 0 := Nat.cast_ne_zero.mpr (a.neighbors_pos k).ne'
  have hzero := (smallest_leastGaps hsome d k).sum_eq_zero_iff fun x hx => (bounds_of_mem_gaps hx).1
  rw [meanGap, div_eq_zero_iff, or_iff_left hcount, hzero, count_gaps hn hd ha]

theorem meanGap_mono (hsome : a.entries ≠ []) (d : Descriptor) {k k' : ℕ} (h : k ≤ k') :
    a.meanGap d k ≤ a.meanGap d k' :=
  (smallest_leastGaps hsome d k).mean_le (smallest_leastGaps hsome d k') (a.neighbors_pos k)
    (a.neighbors_mono h)

/-- One entry more leaves the number of neighbors as it is and can only bring a smaller gap. -/
theorem meanGap_le_of_perm_cons {b : Archive} {e : Descriptor} (hsome : a.entries ≠ [])
    (hperm : b.entries.Perm (e :: a.entries)) (hk : k ≤ a.entries.length) (d : Descriptor) :
    b.meanGap d k ≤ a.meanGap d k := by
  have hsome' : b.entries ≠ [] := fun hnil =>
    List.cons_ne_nil e a.entries (List.nil_perm.mp (hnil ▸ hperm))
  have hsame : b.neighbors k = a.neighbors k := by
    have hlonger : b.entries.length = a.entries.length + 1 := hperm.length_eq
    unfold neighbors
    omega
  have hmore : (a.gaps d).Subperm (b.gaps d) :=
    ((List.sublist_cons_self e a.entries).map _).subperm.trans (hperm.symm.map _).subperm
  have hleast := smallest_leastGaps hsome' d k
  rw [hsame] at hleast
  unfold meanGap
  rw [hsame]
  exact div_le_div_of_nonneg_right ((smallest_leastGaps hsome d k).sum_le_of_subperm hleast hmore)
    (Nat.cast_nonneg _)

theorem nearestMean_perm {distances distances' : List Float} (h : distances.Perm distances')
    (k : ℕ) : nearestMean k distances = nearestMean k distances' := by
  unfold nearestMean
  dsimp only
  rw [orders_totalLE.mergeSort_eq_of_perm h, h.length_eq]

/-- An archive with the same outcomes of two tests in two of its entries. -/
def recurringArchive : Archive :=
  ⟨[.ofPassed [true, true], .ofPassed [true, false], .ofPassed [true, true]], 3⟩

end Archive

end PatchSearch
