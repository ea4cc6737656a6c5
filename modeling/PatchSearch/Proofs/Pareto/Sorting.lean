import Mathlib.Data.List.Nodup
import Mathlib.Data.List.Perm.Subperm
import PatchSearch.Pareto.Fronts
import PatchSearch.Proofs.Yields

/-!
Sorting by domination comes to no fault, whatever the vectors. An index is released once by each
of its dominators, when the front of that dominator is taken away, and no index is in two fronts;
so a count never falls below zero, although domination among values that are no numbers need not
be an order. All indices in the fronts are places of vectors, and crowding distances exist for
them when the vectors have one size.
-/
namespace PatchSearch

section Releasing

/-- What is left of a count; zero outside the table. -/
def left (counts : Array Nat) (q : Nat) : Nat :=
  counts[q]?.getD 0

theorem lt_size_of_left_pos {counts : Array Nat} {q : Nat} (h : 0 < left counts q) :
    q < counts.size := by
  by_contra hge
  rw [left, Array.getElem?_eq_none (by omega)] at h
  cases h

theorem left_setIfInBounds {counts : Array Nat} {q : Nat} (h : q < counts.size) (m p : Nat) :
    left (counts.setIfInBounds q m) p = if p = q then m else left counts p := by
  unfold left
  rw [Array.getElem?_setIfInBounds]
  by_cases hp : p = q
  · simp [hp, h]
  · simp [hp, Ne.symm hp]

/-- Taking a dominator off a count that is not zero. -/
theorem yields_release {counts : Array Nat} {next : List Nat} {q : Nat}
    (h : 0 < left counts q) :
    Yields (release (counts, next) q) fun r => r.1.size = counts.size ∧
      (∀ p, left r.1 p = if p = q then left counts q - 1 else left counts p) ∧
      r.2 = if left counts q = 1 then q :: next else next := by
  have hlt := lt_size_of_left_pos h
  have hsome : counts[q]? = some (left counts q - 1 + 1) := by
    rw [Nat.sub_add_cancel h, left, Array.getElem?_eq_getElem hlt]
    rfl
  unfold release
  rw [hsome]
  refine Yields.ok ⟨Array.size_setIfInBounds, left_setIfInBounds hlt _, ?_⟩
  by_cases hone : left counts q = 1
  · simp [hone]
  · rw [if_neg hone, if_neg (by omega)]

/-- Releasing every index at most as often as its count says. The counts fall by as much as was
released, and exactly the indices whose last dominator was taken off join the next front. -/
theorem yields_foldlM_release {released : List Nat} {counts : Array Nat} {next : List Nat}
    (h : ∀ q, released.count q ≤ left counts q) :
    Yields (released.foldlM release (counts, next)) fun r => r.1.size = counts.size ∧
      (∀ q, left r.1 q + released.count q = left counts q) ∧
      ∃ fresh, r.2 = fresh ++ next ∧ fresh.Nodup ∧
        ∀ q, q ∈ fresh ↔ 0 < left counts q ∧ left r.1 q = 0 := by
  induction released generalizing counts next with
  | nil =>
    refine Yields.ok ⟨rfl, fun q => rfl, [], rfl, List.nodup_nil, fun q => ?_⟩
    simp
    omega
  | cons p released ih =>
    have hp := h p
    rw [List.count_cons_self] at hp
    rw [List.foldlM_cons]
    refine Yields.bind (yields_release (by omega)) ?_
    rintro ⟨counts', next'⟩ ⟨hsize', hleft', hnext'⟩
    dsimp only at hsize' hleft' hnext'
    have hcount (q : Nat) : released.count q ≤ left counts' q := by
      have hq := h q
      rw [List.count_cons] at hq
      rw [hleft' q]
      by_cases hqp : q = p
      · subst hqp
        simp at hq ⊢
        omega
      · rw [if_neg (by simpa using Ne.symm hqp)] at hq
        rw [if_neg hqp]
        omega
    refine Yields.mono (ih hcount) ?_
    rintro r ⟨hsize, hleft, fresh, hfresh, hnodup, hmem⟩
    refine ⟨hsize.trans hsize', fun q => ?_, ?_⟩
    · have hq := hleft q
      rw [hleft' q] at hq
      rw [List.count_cons]
      by_cases hqp : q = p
      · subst hqp
        simp at hq ⊢
        omega
      · rw [if_neg hqp] at hq
        rw [if_neg (by simpa using Ne.symm hqp)]
        omega
    · have hpleft := hleft p
      rw [hleft' p, if_pos rfl] at hpleft
      by_cases hone : left counts p = 1
      · rw [if_pos hone] at hnext'
        refine ⟨fresh ++ [p], by simp [hfresh, hnext'], ?_, fun q => ?_⟩
        · rw [List.nodup_append]
          refine ⟨hnodup, List.nodup_singleton p, fun q hq q' hq' heq => ?_⟩
          rw [List.mem_singleton] at hq'
          subst hq' heq
          have hpos := ((hmem q).mp hq).1
          rw [hleft' q, if_pos rfl] at hpos
          omega
        · rw [List.mem_append, hmem q, hleft' q, List.mem_singleton]
          by_cases hqp : q = p
          · subst hqp
            simp
            omega
          · simp [hqp]
      · rw [if_neg hone] at hnext'
        refine ⟨fresh, by rw [hfresh, hnext'], hnodup, fun q => ?_⟩
        rw [hmem q, hleft' q]
        by_cases hqp : q = p
        · subst hqp
          simp only [if_pos]
          omega
        · rw [if_neg hqp]

end Releasing

section Fronts

/-- How far a sorting of `n` indices has come, with `dominated` the lists of the indices that
each of them dominates: those in `done` are taken away and those in `front` are next. No index
occurs twice, every count is that of the dominators that are not taken away, and the counts that
are zero are those of the indices that are taken away or next. -/
structure Sorting (n : Nat) (dominated : Array (List Nat)) (done : List Nat) (counts : Array Nat)
    (front : List Nat) : Prop where
  size : counts.size = n
  nodup : (done ++ front).Nodup
  bounded : ∀ p ∈ done ++ front, p < n
  count : ∀ q, left counts q + done.countP (fun p => q ∈ dominated[p]?.getD []) =
    (List.range n).countP fun p => q ∈ dominated[p]?.getD []
  zero : ∀ q < n, left counts q = 0 ↔ q ∈ done ++ front

variable {n : Nat} {dominated : Array (List Nat)} {done front : List Nat} {counts : Array Nat}

/-- An index is released by a front as often as members of the front dominate it. -/
theorem count_released (hdominated : ∀ p : Nat, (dominated[p]?.getD []).Nodup) (q : Nat) :
    (front.flatMap fun p => dominated[p]?.getD []).count q =
      front.countP fun p => q ∈ dominated[p]?.getD [] := by
  induction front with
  | nil => rfl
  | cons p front ih =>
    rw [List.flatMap_cons, List.count_append, ih, List.countP_cons, Nat.add_comm]
    by_cases hq : q ∈ dominated[p]?.getD []
    · rw [List.count_eq_one_of_mem (hdominated p) hq]
      simp [hq]
    · rw [List.count_eq_zero_of_not_mem hq]
      simp [hq]

/-- Taking a front away. -/
theorem Sorting.yields_nextFront (h : Sorting n dominated done counts front)
    (hdominated : ∀ p : Nat, (dominated[p]?.getD []).Nodup) :
    Yields (nextFront dominated counts front) fun r =>
      Sorting n dominated (done ++ front) r.1 r.2 := by
  have hsubperm : (done ++ front).Subperm (List.range n) :=
    List.subperm_of_subset h.nodup fun p hp => List.mem_range.mpr (h.bounded p hp)
  have hcount (q : Nat) :
      (front.flatMap fun p => dominated[p]?.getD []).count q ≤ left counts q := by
    have hall := hsubperm.countP_le fun p => decide (q ∈ dominated[p]?.getD [])
    have hq := h.count q
    rw [List.countP_append] at hall
    rw [count_released hdominated]
    omega
  unfold nextFront
  refine Yields.bind (yields_foldlM_release hcount) ?_
  rintro ⟨counts', next⟩ ⟨hsize, hleft, fresh, hfresh, hnodup, hmem⟩
  dsimp only at hsize hleft hfresh hmem
  rw [List.append_nil] at hfresh
  subst hfresh
  have hnext (q : Nat) : q ∈ next.reverse ↔ 0 < left counts q ∧ left counts' q = 0 := by
    rw [List.mem_reverse, hmem]
  have hlt {q : Nat} (hq : q ∈ next.reverse) : q < n := by
    rw [← h.size]
    exact lt_size_of_left_pos ((hnext q).mp hq).1
  refine Yields.pure ⟨hsize.trans h.size, ?_, ?_, ?_, ?_⟩
  · rw [List.nodup_append]
    refine ⟨h.nodup, List.nodup_reverse.mpr hnodup, fun p hp q hq heq => ?_⟩
    subst heq
    have hzero := (h.zero p (hlt hq)).mpr hp
    have hpos := ((hnext p).mp hq).1
    omega
  · intro p hp
    rcases List.mem_append.mp hp with hp | hp
    · exact h.bounded p hp
    · exact hlt hp
  · intro q
    have hq := h.count q
    have hreleased := hleft q
    rw [count_released hdominated] at hreleased
    rw [List.countP_append]
    dsimp only
    omega
  · intro q hq
    have hreleased := hleft q
    rw [List.mem_append, hnext, ← h.zero q hq]
    dsimp only
    omega

/-- The fronts from a front on hold indices below `n` only. -/
theorem Sorting.yields_frontsFrom (h : Sorting n dominated done counts front)
    (hdominated : ∀ p : Nat, (dominated[p]?.getD []).Nodup) (fuel : Nat) :
    Yields (frontsFrom dominated fuel counts front) fun fs => ∀ f ∈ fs, ∀ p ∈ f, p < n := by
  induction fuel generalizing done counts front with
  | zero => exact Yields.ok (by simp)
  | succ fuel ih =>
    unfold frontsFrom
    split
    · exact Yields.ok (by simp)
    · refine Yields.bind (h.yields_nextFront hdominated) fun r hr => ?_
      refine Yields.bind (ih hr) fun fs hfs => Yields.pure ?_
      intro f hf p hp
      rcases List.mem_cons.mp hf with rfl | hf
      · exact h.bounded p (List.mem_append_right _ hp)
      · exact hfs f hf p hp

variable {α : Type} [Scalar α] (vs : List (Objectives α))

theorem nodup_dominatedBy (v : Objectives α) : (dominatedBy vs v).Nodup := by
  unfold dominatedBy
  refine List.Nodup.sublist (List.filter_sublist.map Prod.snd) ?_
  rw [List.zipIdx_map_snd]
  exact List.nodup_range'

/-- No place dominates another one twice. -/
theorem nodup_dominated (p : Nat) : ((vs.map (dominatedBy vs)).toArray[p]?.getD []).Nodup := by
  cases h : (vs.map (dominatedBy vs)).toArray[p]? with
  | none => exact List.nodup_nil
  | some ds =>
    obtain ⟨v, -, rfl⟩ : ∃ v, vs[p]? = some v ∧ dominatedBy vs v = ds := by simpa using h
    exact nodup_dominatedBy vs v

theorem mem_dominatedBy {v w : Objectives α} {q : Nat} (hq : vs[q]? = some w) :
    q ∈ dominatedBy vs v ↔ v.dominates w = true := by
  unfold dominatedBy
  rw [List.mem_map]
  constructor
  · rintro ⟨⟨w', q'⟩, hfound, rfl⟩
    obtain ⟨hmem, hdominates⟩ := List.mem_filter.mp hfound
    rw [List.mk_mem_zipIdx_iff_getElem?, hq] at hmem
    cases hmem
    exact hdominates
  · intro hdominates
    exact ⟨(w, q), List.mem_filter.mpr ⟨List.mk_mem_zipIdx_iff_getElem?.mpr hq, hdominates⟩, rfl⟩

theorem lt_length_of_mem_dominatedBy {v : Objectives α} {q : Nat}
    (h : q ∈ dominatedBy vs v) : q < vs.length := by
  obtain ⟨⟨w, q⟩, hfound, rfl⟩ := List.mem_map.mp h
  have hmem := (List.mem_filter.mp hfound).1
  rw [List.mk_mem_zipIdx_iff_getElem?] at hmem
  exact (List.getElem?_eq_some_iff.mp hmem).1

/-- The dominators of a vector are counted by their places. -/
theorem dominatorCount_eq {w : Objectives α} {q : Nat} (hq : vs[q]? = some w) :
    dominatorCount vs w = (List.range vs.length).countP fun p =>
      q ∈ (vs.map (dominatedBy vs)).toArray[p]?.getD [] := by
  have hplaces : List.range vs.length = vs.zipIdx.map Prod.snd := by
    rw [List.zipIdx_map_snd, List.range_eq_range']
  have hvalues : dominatorCount vs w =
      (vs.zipIdx.map Prod.fst).countP fun v => v.dominates w := by
    rw [List.zipIdx_map_fst]
    rfl
  rw [hvalues, hplaces, List.countP_map, List.countP_map]
  refine List.countP_congr fun x hx => ?_
  obtain ⟨v, p⟩ := x
  rw [List.mk_mem_zipIdx_iff_getElem?] at hx
  simp [hx, mem_dominatedBy vs hq]

/-- The counts and the first front that a sorting starts with. -/
theorem sorting_start :
    Sorting vs.length (vs.map (dominatedBy vs)).toArray [] (vs.map (dominatorCount vs)).toArray
      ((List.range vs.length).filter fun i => (vs.map (dominatorCount vs))[i]? == some 0) := by
  have hleft {q : Nat} {w : Objectives α} (hq : vs[q]? = some w) :
      left (vs.map (dominatorCount vs)).toArray q = dominatorCount vs w := by
    simp [left, hq]
  refine ⟨by simp, ?_, ?_, fun q => ?_, fun q hq => ?_⟩
  · exact List.nodup_range.filter _
  · intro p hp
    exact List.mem_range.mp (List.mem_filter.mp hp).1
  · by_cases hq : q < vs.length
    · have hw := List.getElem?_eq_getElem hq
      rw [hleft hw, dominatorCount_eq vs hw]
      rfl
    · have hnone : left (vs.map (dominatorCount vs)).toArray q = 0 := by
        simp [left, List.getElem?_eq_none (Nat.le_of_not_lt hq)]
      rw [hnone, eq_comm, List.countP_nil, List.countP_eq_zero]
      intro p hp hmem
      have hv := List.getElem?_eq_getElem (List.mem_range.mp hp)
      rw [List.getElem?_toArray, List.getElem?_map, hv] at hmem
      exact hq (lt_length_of_mem_dominatedBy vs (of_decide_eq_true hmem))
  · have hw := List.getElem?_eq_getElem hq
    rw [hleft hw, List.nil_append, List.mem_filter, List.mem_range]
    simp [hq]

/-- Sorting comes to no fault, and the fronts hold places of vectors. -/
theorem yields_fronts :
    Yields (fronts vs) fun fs => ∀ front ∈ fs, ∀ p ∈ front, p < vs.length :=
  (sorting_start vs).yields_frontsFrom (nodup_dominated vs) vs.length

end Fronts

section Crowding

variable {α : Type} [Scalar α] {size : Nat}

omit [Scalar α] in
theorem yields_objectiveColumn {members : List (Objectives α)} (h : ∀ v ∈ members, v.size = size)
    {k : Nat} (hk : k < size) : Yields (objectiveColumn members k) fun _ => True := by
  have hvalue (v : Objectives α) (hv : v ∈ members) : Yields (v.value k) fun _ => True := by
    have hlt : k < v.toList.length := by
      rw [v.length_toList, h v hv]
      exact hk
    exact Yields.mono (yields_itemAt hlt) fun _ _ => trivial
  exact Yields.mono (Yields.mapM hvalue) fun _ _ => trivial

/-- The members of a front have crowding distances when all vectors have one size. -/
theorem yields_crowding {vs : List (Objectives α)} (hvs : ∀ v ∈ vs, v.size = size)
    {front : List Nat} (hfront : ∀ p ∈ front, p < vs.length) :
    Yields (crowding front vs) fun _ => True := by
  unfold crowding
  split
  · exact Yields.pure trivial
  · next hlarge =>
    have hhead : front.headD 0 ∈ front := by
      cases front with
      | nil => simp at hlarge
      | cons p front => simp
    refine Yields.bind (yields_itemAt (hfront _ hhead)) fun first hfirst => ?_
    split
    · exact Yields.pure trivial
    · have hmember (p : Nat) (hp : p ∈ front) :
          Yields (itemAt vs p) fun v => v.size = size :=
        Yields.mono (yields_itemAt (hfront p hp)) fun v hv => hvs v hv.1
      refine Yields.bind (Yields.mapM hmember) fun members hmembers => ?_
      have hcolumn (k : Nat) (hk : k ∈ List.range first.size) :
          Yields (objectiveColumn members k) fun _ => True := by
        rw [List.mem_range, hvs first hfirst.1] at hk
        exact yields_objectiveColumn hmembers.2 hk
      exact Yields.bind (Yields.mapM hcolumn) fun columns _ => Yields.pure trivial

end Crowding

end PatchSearch
