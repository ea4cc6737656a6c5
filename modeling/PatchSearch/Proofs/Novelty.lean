import PatchSearch.Novelty
import PatchSearch.Proofs.Numbers.Exact
import PatchSearch.Proofs.Numbers.FloatRoot
import PatchSearch.Proofs.Yields

/-!
How far behaviors lie apart. The bits of packed outcomes are the outcomes and there are no others,
so packing loses nothing, and two descriptors of one suite differ in as many bits as there are tests
at which the outcomes differ, and so in no more than the suite has tests. The share of these tests
is a metric, and the distance is that share, rounded. Distances and the means of distances therefore
lie between zero and one, unless they are no number because there are more tests than any float
counts.
-/
namespace PatchSearch

namespace Descriptor

/-- Bit `i` of a packed number is outcome `i`. -/
theorem testBit_foldr (bits : List Bool) (i : Nat) :
    (bits.foldr (fun (b : Bool) n => 2 * n + b.toNat) 0).testBit i = bits.getD i false := by
  induction bits generalizing i with
  | nil => simp
  | cons b bits ih =>
    rw [List.foldr_cons]
    cases i with
    | zero =>
      rw [Nat.testBit_zero]
      cases b <;> simp [Nat.add_mod]
    | succ i =>
      have hhalf (n : Nat) : (2 * n + b.toNat) / 2 = n := by
        cases b <;> simp [Nat.mul_add_div]
      rw [Nat.testBit_succ, hhalf, ih, List.getD_cons_succ]

theorem getLsbD_packWord (bits : List Bool) {i : Nat} (hi : i < 64) :
    (packWord bits).getLsbD i = bits.getD i false := by
  rw [packWord, BitVec.getLsbD_ofNat, testBit_foldr]
  simp [hi]

/-- Counting differences by position is counting different pairs. -/
theorem countP_range_getD {bits bits' : List Bool} (h : bits.length = bits'.length) {n : Nat}
    (hn : bits.length ≤ n) :
    (List.range n).countP (fun i => bits.getD i false ^^ bits'.getD i false) =
      (bits.zip bits').countP fun (b, b') => b ^^ b' := by
  induction bits generalizing bits' n with
  | nil =>
    obtain rfl : bits' = [] := List.eq_nil_of_length_eq_zero h.symm
    simp
  | cons b bits ih =>
    obtain _ | ⟨b', bits'⟩ := bits'
    · cases h
    obtain _ | n := n
    · cases hn
    have hrest := ih (Nat.succ.inj h) (Nat.le_of_succ_le_succ hn)
    rw [List.range_succ_eq_map, List.countP_cons, List.countP_map, List.zip_cons_cons,
      List.countP_cons, ← hrest]
    rfl

/-- The words of two chunks differ in as many bits as the chunks have different outcomes. -/
theorem popCount_packWord {bits bits' : List Bool} (h : bits.length = bits'.length)
    (hlength : bits.length ≤ 64) :
    popCount (packWord bits ^^^ packWord bits') =
      (bits.zip bits').countP fun (b, b') => b ^^ b' := by
  rw [← countP_range_getD h hlength, popCount]
  refine List.countP_congr fun i hi => ?_
  have hi : i < 64 := List.mem_range.mp hi
  rw [BitVec.getLsbD_xor, getLsbD_packWord bits hi, getLsbD_packWord bits' hi]

theorem hamming_packWords (fuel length : Nat) {bits bits' : List Bool}
    (h : bits.length = bits'.length) (hfuel : bits.length ≤ fuel) :
    hamming ⟨packWords fuel bits, length⟩ ⟨packWords fuel bits', length⟩ =
      (bits.zip bits').countP fun (b, b') => b ^^ b' := by
  induction fuel generalizing bits bits' with
  | zero =>
    obtain rfl : bits = [] := List.eq_nil_of_length_eq_zero (Nat.le_zero.mp hfuel)
    rfl
  | succ fuel ih =>
    obtain _ | ⟨b, bs⟩ := bits
    · rfl
    obtain _ | ⟨b', bs'⟩ := bits'
    · cases h
    have hdrop : ((b :: bs).drop 64).length = ((b' :: bs').drop 64).length := by
      rw [List.length_drop, List.length_drop, h]
    have hless : ((b :: bs).drop 64).length ≤ fuel := by
      rw [List.length_drop]
      omega
    have hrest := ih hdrop hless
    have htake : ((b :: bs).take 64).length = ((b' :: bs').take 64).length := by
      rw [List.length_take, List.length_take, h]
    have hchunk := popCount_packWord htake (List.length_take_le _ _)
    unfold hamming at hrest ⊢
    rw [packWords, packWords, List.zip_cons_cons, List.foldr_cons]
    dsimp only at hrest ⊢
    rw [hrest, hchunk, ← List.countP_append, ← List.zip_append htake,
      List.take_append_drop, List.take_append_drop]

/-- Descriptors of as many outcomes differ in as many bits as there are different outcomes. -/
theorem hamming_ofPassed {passed passed' : List Bool} (h : passed.length = passed'.length) :
    (ofPassed passed).hamming (ofPassed passed') =
      (passed.zip passed').countP fun (b, b') => b ^^ b' := by
  unfold ofPassed
  rw [← h]
  exact hamming_packWords passed.length passed.length h le_rfl

section Packing

variable {bits bits' : List Bool}

/-- Word `k` holds the 64 outcomes from number `64 * k` on, or as many of them as there are. -/
theorem getElem?_packWords {fuel : ℕ} (hfuel : bits.length ≤ fuel) (k : ℕ) :
    (packWords fuel bits)[k]? =
      if 64 * k < bits.length then some (packWord ((bits.drop (64 * k)).take 64)) else none := by
  induction fuel generalizing bits k with
  | zero =>
    obtain rfl : bits = [] := List.eq_nil_of_length_eq_zero (Nat.le_zero.mp hfuel)
    rfl
  | succ fuel ih =>
    obtain _ | ⟨b, bits⟩ := bits
    · rfl
    have hless : ((b :: bits).drop 64).length ≤ fuel := by
      rw [List.length_drop]
      omega
    obtain _ | k := k
    · simp [packWords]
    · rw [packWords, List.getElem?_cons_succ, ih hless, List.drop_drop, List.length_drop]
      have hplace : 64 + 64 * k = 64 * (k + 1) := by ring
      have hthere : 64 * k < (b :: bits).length - 64 ↔ 64 * (k + 1) < (b :: bits).length := by
        omega
      rw [hplace]
      exact if_congr hthere rfl rfl

/-- Bit `i` of a descriptor is outcome `i`, and there are no others. -/
theorem passed_ofPassed (bits : List Bool) (i : ℕ) :
    (ofPassed bits).passed i = bits.getD i false := by
  by_cases hi : i < bits.length
  · have hword : 64 * (i / 64) < bits.length := (Nat.mul_div_le i 64).trans_lt hi
    have hbit : i % 64 < 64 := Nat.mod_lt i (by decide)
    unfold passed ofPassed
    dsimp only
    rw [getElem?_packWords le_rfl, if_pos hword, Option.getD_some, getLsbD_packWord _ hbit,
      List.getD_eq_getElem?_getD, List.getElem?_take_of_lt hbit, List.getElem?_drop,
      Nat.div_add_mod, ← List.getD_eq_getElem?_getD, decide_eq_true hi, Bool.true_and]
  · rw [List.getD_eq_default _ _ (not_lt.mp hi)]
    simp [passed, ofPassed, hi]

/-- The outcomes can be read off the descriptor. -/
theorem toList_ofPassed (bits : List Bool) : (ofPassed bits).toList = bits := by
  apply List.ext_getElem
  · simp [toList, ofPassed]
  · intro i hi hi'
    simp [toList, passed_ofPassed, hi']

theorem ofPassed_inj : ofPassed bits = ofPassed bits' ↔ bits = bits' := by
  refine ⟨fun h => ?_, congrArg ofPassed⟩
  rw [← toList_ofPassed bits, h, toList_ofPassed]

/-- A test has its bit unless it failed. -/
theorem passed_ofOutcomes {ordered failed : List String} {i : ℕ} :
    (ofOutcomes ordered failed).passed i = true ↔ ∃ t, ordered[i]? = some t ∧ t ∉ failed := by
  rw [ofOutcomes, passed_ofPassed, List.getD_eq_getElem?_getD, List.getElem?_map]
  cases ordered[i]? <;> simp

end Packing

section Differences

variable {bits bits' bits'' : List Bool}

/-- The numbers of the tests at which two lists of outcomes differ. -/
def differences (bits bits' : List Bool) : Finset ℕ :=
  (Finset.range bits.length).filter fun i => bits[i]? ≠ bits'[i]?

/-- The share of the tests at which two lists of outcomes differ, as a fraction. -/
def gap (bits bits' : List Bool) : ℚ :=
  (differences bits bits').card / bits.length

/-- The distance of words counts the tests at which the outcomes differ. -/
theorem hamming_eq_card (h : bits.length = bits'.length) :
    (ofPassed bits).hamming (ofPassed bits') = (differences bits bits').card := by
  have hcard : (differences bits bits').card =
      (List.range bits.length).countP fun i => decide (bits[i]? ≠ bits'[i]?) := by
    rw [List.countP_eq_length_filter]
    rfl
  rw [hamming_ofPassed h, ← countP_range_getD h le_rfl, hcard]
  apply List.countP_congr
  intro i hi
  have hi : i < bits.length := List.mem_range.mp hi
  have hi' : i < bits'.length := h ▸ hi
  rw [List.getD_eq_getElem?_getD, List.getD_eq_getElem?_getD, List.getElem?_eq_getElem hi,
    List.getElem?_eq_getElem hi']
  simp

theorem card_differences_le : (differences bits bits').card ≤ bits.length :=
  (Finset.card_filter_le _ _).trans (Finset.card_range _).le

theorem differences_eq_empty_iff (h : bits.length = bits'.length) :
    differences bits bits' = ∅ ↔ bits = bits' := by
  unfold differences
  rw [Finset.filter_eq_empty_iff]
  simp only [Finset.mem_range, not_not]
  refine ⟨fun hsame => List.ext_getElem? fun i => ?_, fun hsame i _ => by rw [hsame]⟩
  by_cases hi : i < bits.length
  · exact hsame hi
  · rw [List.getElem?_eq_none (not_lt.mp hi), List.getElem?_eq_none (h ▸ not_lt.mp hi)]

theorem differences_comm (h : bits.length = bits'.length) :
    differences bits' bits = differences bits bits' := by
  unfold differences
  rw [h]
  exact Finset.filter_congr fun i _ => ne_comm

theorem differences_subset (h : bits.length = bits'.length) :
    differences bits bits'' ⊆ differences bits bits' ∪ differences bits' bits'' := by
  intro i hi
  simp only [differences, Finset.mem_union, Finset.mem_filter, ← h] at hi ⊢
  by_cases hsame : bits[i]? = bits'[i]?
  · exact Or.inr ⟨hi.1, hsame ▸ hi.2⟩
  · exact Or.inl ⟨hi.1, hsame⟩

theorem gap_eq_zero_iff (h : bits.length = bits'.length) (hsome : bits ≠ []) :
    gap bits bits' = 0 ↔ bits = bits' := by
  have hpos : (bits.length : ℚ) ≠ 0 := Nat.cast_ne_zero.mpr (List.length_pos_of_ne_nil hsome).ne'
  rw [gap, div_eq_zero_iff, or_iff_left hpos, Nat.cast_eq_zero, Finset.card_eq_zero,
    differences_eq_empty_iff h]

theorem gap_comm (h : bits.length = bits'.length) : gap bits' bits = gap bits bits' := by
  rw [gap, gap, differences_comm h, h]

theorem gap_nonneg : 0 ≤ gap bits bits' :=
  div_nonneg (Nat.cast_nonneg _) (Nat.cast_nonneg _)

theorem gap_le_one : gap bits bits' ≤ 1 :=
  div_le_one_of_le₀ (Nat.cast_le.mpr card_differences_le) (Nat.cast_nonneg _)

/-- What changes from the first outcomes to the last changes on the way. -/
theorem gap_triangle (h : bits.length = bits'.length) :
    gap bits bits'' ≤ gap bits bits' + gap bits' bits'' := by
  have hcard : (differences bits bits'').card ≤
      (differences bits bits').card + (differences bits' bits'').card :=
    (Finset.card_le_card (differences_subset h)).trans (Finset.card_union_le _ _)
  unfold gap
  rw [← h, ← add_div]
  exact div_le_div_of_nonneg_right (by exact_mod_cast hcard) (Nat.cast_nonneg _)

end Differences

section Distances

variable {bits bits' : List Bool} {d d' : Descriptor}

theorem distance_of_length_ne {α : Type} [Arithmetic α] (h : d.length ≠ d'.length) :
    (d.distance d' : Except NoveltyError α) = .error (.lengthMismatch d.length d'.length) := by
  unfold distance
  rw [if_pos h]

theorem distance_of_empty {α : Type} [Arithmetic α] (h : d.length = 0) (h' : d'.length = 0) :
    (d.distance d' : Except NoveltyError α) = .error .emptyDescriptor := by
  unfold distance
  rw [h, h', if_neg (by simp), if_pos rfl]

theorem distance_ofPassed {α : Type} [Arithmetic α] (h : bits.length = bits'.length)
    (hsome : bits ≠ []) : ((ofPassed bits).distance (ofPassed bits') : Except NoveltyError α) =
      .ok (proportion (differences bits bits').card bits.length) := by
  have hpos : bits.length ≠ 0 := (List.length_pos_of_ne_nil hsome).ne'
  unfold distance
  rw [length_ofPassed, length_ofPassed, if_neg (not_not.mpr h), if_neg hpos, hamming_eq_card h]

/-- What the distance of the descriptors of two lists of outcomes is: the number of the tests at
which they differ, which fits into half a word, in proportion to the number of all tests. Without
rounding it is their gap; a float is the gap rounded, a number between zero and one, and is zero
only for the same outcomes. -/
structure Measured (bits bits' : List Bool) : Prop where
  counted : (ofPassed bits).hamming (ofPassed bits') = (differences bits bits').card
  fits : (differences bits bits').card < halfWordCount
  exact : ∀ (α : Type) [ExactScalar α], (ofPassed bits).distance (ofPassed bits') =
    .ok (ExactScalar.number (gap bits bits') : α)
  rounded : ∃ x : Float, (ofPassed bits).distance (ofPassed bits') = .ok x ∧
    FloatOrder.Within 1 x ∧ Rounding.Rounds (gap bits bits') (FloatOrder.value x) ∧
      (FloatOrder.value x = 0 ↔ bits = bits')

theorem measured (h : bits.length = bits'.length) (hsome : bits ≠ [])
    (hfits : bits.length < halfWordCount) : Measured bits bits' := by
  have hle : (differences bits bits').card ≤ bits.length := card_differences_le
  have hpos : 0 < bits.length := List.length_pos_of_ne_nil hsome
  have hexact : bits.length < 2 ^ 53 := hfits.trans (by decide)
  refine ⟨hamming_eq_card h, hle.trans_lt hfits, fun α _ => ?_, _, distance_ofPassed h hsome,
    FloatOrder.within_proportion hle hpos (Or.inl (FloatOrder.value_ofNat hexact).1),
    FloatOrder.rounds_proportion hle hpos hexact, ?_⟩
  · rw [distance_ofPassed h hsome, ExactScalar.proportion_eq _ hpos.ne']
    rfl
  · rw [FloatOrder.value_proportion_eq_zero_iff hle hpos hexact, Finset.card_eq_zero,
      differences_eq_empty_iff h]

/-- Packing keeps the outcomes exactly. A descriptor has as many tests as there are outcomes, the
bit of each is its outcome, and there are no bits beyond; so descriptors are equal when the outcomes
are and only then. The distance of outcomes of one suite that is not empty is the share of the tests
at which they differ, and as a fraction it is a metric with values up to one; outcomes of suites of
different sizes and of empty suites have no distance. In a descriptor of a run the tests that did
not fail have their bits set. -/
theorem packing_exact {bits : List Bool} (hfits : bits.length < halfWordCount) :
    (ofPassed bits).length = bits.length ∧
    (∀ i (hi : i < bits.length), (ofPassed bits).passed i = bits[i]) ∧
    (∀ i, bits.length ≤ i → (ofPassed bits).passed i = false) ∧
    (∀ bits', ofPassed bits = ofPassed bits' ↔ bits = bits') ∧
    (∀ bits', bits.length = bits'.length → bits ≠ [] →
      Measured bits bits' ∧ (gap bits bits' = 0 ↔ bits = bits') ∧
        gap bits' bits = gap bits bits' ∧ gap bits bits' ≤ 1 ∧
        ∀ bits'', gap bits bits'' ≤ gap bits bits' + gap bits' bits'') ∧
    (∀ (α : Type) [Arithmetic α] bits',
      (bits.length ≠ bits'.length →
        ((ofPassed bits).distance (ofPassed bits') : Except NoveltyError α) =
          .error (.lengthMismatch bits.length bits'.length)) ∧
      (bits = [] → bits' = [] →
        ((ofPassed bits).distance (ofPassed bits') : Except NoveltyError α) =
          .error .emptyDescriptor)) ∧
    ∀ ordered failed i, (ofOutcomes ordered failed).passed i = true ↔
      ∃ t, ordered[i]? = some t ∧ t ∉ failed := by
  refine ⟨rfl, fun i hi => ?_, fun i hi => ?_, fun bits' => ofPassed_inj, fun bits' h hsome => ?_,
    fun α _ bits' => ⟨fun h => distance_of_length_ne h, ?_⟩,
    fun ordered failed i => passed_ofOutcomes⟩
  · rw [passed_ofPassed, List.getD_eq_getElem _ _ hi]
  · rw [passed_ofPassed, List.getD_eq_default _ _ hi]
  · exact ⟨measured h hsome hfits, gap_eq_zero_iff h hsome, gap_comm h, gap_le_one,
      fun bits'' => gap_triangle h⟩
  · rintro rfl rfl
    exact distance_of_empty rfl rfl

/-- Of 65 outcomes, one more than a word holds, the last one differs. -/
theorem packing_exact_of_longer_than_word :
    (List.replicate 65 true).length < halfWordCount ∧
      ofPassed (List.replicate 65 true) ≠ ofPassed (List.replicate 64 true ++ [false]) ∧
      (ofPassed (List.replicate 65 true)).distance
          (ofPassed (List.replicate 64 true ++ [false])) =
        .ok (ExtendedRational.number (1 / 65)) := by
  have hfits : (List.replicate 65 true).length < halfWordCount := by decide
  obtain ⟨-, -, -, hinj, hmetric, -⟩ := packing_exact hfits
  obtain ⟨hmeasured, -⟩ := hmetric (List.replicate 64 true ++ [false]) rfl (by simp)
  refine ⟨hfits, ?_, ?_⟩
  · rw [ne_eq, hinj]
    decide
  · have hcard : (differences (List.replicate 65 true)
        (List.replicate 64 true ++ [false])).card = 1 := by
      decide +kernel
    rw [hmeasured.exact ExtendedRational, gap, hcard]
    rfl

end Distances

/-- A descriptor of outcomes of a suite. -/
def Describes (ordered : List String) (d : Descriptor) : Prop :=
  ∃ failed, d = ofOutcomes ordered failed

variable {ordered : List String} {d d' : Descriptor}

theorem Describes.length (h : d.Describes ordered) : d.length = ordered.length := by
  obtain ⟨failed, rfl⟩ := h
  simp [ofOutcomes, ofPassed]

theorem Describes.hamming_le (h : d.Describes ordered) (h' : d'.Describes ordered) :
    d.hamming d' ≤ ordered.length := by
  obtain ⟨failed, rfl⟩ := h
  obtain ⟨failed', rfl⟩ := h'
  unfold ofOutcomes
  rw [hamming_eq_card (by simp)]
  exact card_differences_le.trans (by simp)

/-- Descriptors of a suite that is not empty have a distance, and it is a share. -/
theorem Describes.yields_distance (h : d.Describes ordered) (h' : d'.Describes ordered)
    (hordered : ordered ≠ []) :
    Yields (d.distance d' : Except NoveltyError Float) fun x =>
      (Float.ofNat ordered.length).isFinite = true ∨ x.isNaN = false → FloatOrder.Within 1 x := by
  have hpos : 0 < ordered.length := List.length_pos_of_ne_nil hordered
  unfold distance
  rw [h.length, h'.length, if_neg (by simp), if_neg hpos.ne']
  exact Yields.ok fun hshare => FloatOrder.within_proportion (h.hamming_le h') hpos hshare

end Descriptor

open FloatOrder

/-- The mean of the nearest distances is a share when the distances are, at least those that are
numbers if the mean is one. -/
theorem Archive.within_nearestMean {distances : List Float} (hne : distances ≠ [])
    (hshares : ∀ x ∈ distances, x.isNaN = false → Within 1 x) (k : Nat)
    (h : (∀ x ∈ distances, x.isNaN = false) ∨ (nearestMean k distances).isNaN = false) :
    Within 1 (nearestMean k distances) := by
  have hpos : 0 < distances.length := List.length_pos_of_ne_nil hne
  unfold nearestMean at h ⊢
  dsimp only at h ⊢
  generalize hsorted : (distances.mergeSort Scalar.totalLE).take (max 1 (min k distances.length)) =
    nearest at h ⊢
  have hlength : nearest.length = max 1 (min k distances.length) := by
    rw [← hsorted, List.length_take, List.length_mergeSort]
    omega
  have hmem (x : Float) (hx : x ∈ nearest) : x ∈ distances := by
    rw [← hsorted] at hx
    exact List.mem_mergeSort.mp (List.mem_of_mem_take hx)
  have hnumbers : ∀ x ∈ nearest, x.isNaN = false := by
    rcases h with hall | hmean
    · exact fun x hx => hall x (hmem x hx)
    · exact (numbers_of_foldl (numbers_of_div hmean).1).2
  rw [← hlength]
  exact within_mean (fun x hx => hshares x (hmem x hx) (hnumbers x hx)) (by omega)

/-- Every archived descriptor describes outcomes of the suite. -/
def Archive.Describes (ordered : List String) (a : Archive) : Prop :=
  ∀ d ∈ a.entries, d.Describes ordered

theorem Archive.Describes.insert {ordered : List String} {a : Archive} (h : a.Describes ordered)
    {d : Descriptor} (hd : d.Describes ordered) (g : Random) :
    (a.insert d g).1.Describes ordered := by
  intro e he
  rcases Archive.mem_entries_insert he with hold | rfl
  · exact h e hold
  · exact hd

/-- Novelty is a share, if the tests can be counted or it is a number. -/
theorem Archive.Describes.within_novelty {ordered : List String} {a : Archive}
    (h : a.Describes ordered) {d : Descriptor} (hd : d.Describes ordered) {k : Nat} {v : Float}
    (hv : a.novelty d k = .ok v)
    (hshare : (Float.ofNat ordered.length).isFinite = true ∨ v.isNaN = false) : Within 1 v := by
  unfold Archive.novelty at hv
  by_cases hempty : d.isEmpty = true
  · rw [if_pos hempty] at hv
    cases hv
  have hordered : ordered ≠ [] := by
    rintro rfl
    exact hempty (by simp [Descriptor.isEmpty, hd.length])
  rw [if_neg hempty] at hv
  by_cases hnone : a.entries.isEmpty = true
  · rw [if_pos hnone] at hv
    cases hv
    obtain ⟨hfinite, hvalue⟩ := value_ofNat (n := 1) (by decide)
    refine ⟨hfinite, ?_, ?_⟩
    · exact hvalue ▸ Nat.cast_nonneg 1
    · exact hvalue.trans_le (by simp)
  · rw [if_neg hnone] at hv
    obtain ⟨distances, hdistances, hv⟩ := bind_eq_ok_iff.mp hv
    cases hv
    obtain ⟨hlength, hshares⟩ :=
      (Yields.mapM fun e he => hd.yields_distance (h e he) hordered).of_eq hdistances
    have hne : distances ≠ [] := by
      rintro rfl
      exact hnone (by simpa using hlength.symm)
    refine within_nearestMean hne (fun x hx hnumber => hshares x hx (Or.inr hnumber)) k ?_
    exact hshare.imp_left fun hfinite x hx => (hshares x hx (Or.inl hfinite)).isNaN

end PatchSearch
