import PatchSearch.Proofs.Pareto.Sorting
import PatchSearch.Proofs.Numbers.FloatOrder

/-!
What the fronts say. When domination runs in no circles, the fronts hold every index once. Whoever
dominates a member of a front is in an earlier front, and every member of a front but the first is
dominated by a member of the front just before it. So the number of the front is the only grading
of the indices by these two rules, whatever other indices there may be besides.
-/
namespace PatchSearch

/-- An index is in the front of a number. -/
def InFront (fs : List (List Nat)) (k q : Nat) : Prop :=
  ∃ f, fs[k]? = some f ∧ q ∈ f

/-- Fronts that come after the indices in `done`: with these they hold every index below `n` once,
the dominators of a member come before it, and one of them just before it. -/
structure Layered (n : Nat) (dominated : Array (List Nat)) (done : List Nat)
    (fs : List (List Nat)) : Prop where
  nodup : (done ++ fs.flatten).Nodup
  complete : ∀ q, q ∈ done ++ fs.flatten ↔ q < n
  before : ∀ k q p, InFront fs k q → p < n → q ∈ dominated[p]?.getD [] →
    p ∈ done ∨ ∃ j < k, InFront fs j p
  above : ∀ k q, InFront fs (k + 1) q → ∃ p, InFront fs k p ∧ q ∈ dominated[p]?.getD []

section Fronts

variable {n : Nat} {dominated : Array (List Nat)} {done front : List Nat} {counts : Array Nat}

theorem inFront_cons_zero {fs : List (List Nat)} {q : Nat} :
    InFront (front :: fs) 0 q ↔ q ∈ front := by
  simp [InFront]

/-- Taken away or next are the indices whose dominators are all taken away. -/
theorem Sorting.mem_iff (h : Sorting n dominated done counts front) {q : Nat} (hq : q < n) :
    q ∈ done ++ front ↔ ∀ p < n, q ∈ dominated[p]?.getD [] → p ∈ done := by
  have hdone : done.Nodup := (List.nodup_append.mp h.nodup).1
  have hsub : done.Subperm (List.range n) :=
    List.subperm_of_subset hdone fun p hp =>
      List.mem_range.mpr (h.bounded p (List.mem_append_left _ hp))
  have hcount := h.count q
  rw [← h.zero q hq]
  constructor
  · intro hzero p hp hdominates
    by_contra hnot
    have hmore : (p :: done).Subperm (List.range n) := by
      refine List.subperm_of_subset (List.nodup_cons.mpr ⟨hnot, hdone⟩) fun p' hp' => ?_
      rcases List.mem_cons.mp hp' with rfl | hp'
      · exact List.mem_range.mpr hp
      · exact hsub.subset hp'
    have hlt := hmore.countP_le fun p => decide (q ∈ dominated[p]?.getD [])
    rw [List.countP_cons_of_pos (by simpa using hdominates)] at hlt
    omega
  · intro hall
    have hle : (List.range n).countP (fun p => q ∈ dominated[p]?.getD []) ≤
        done.countP fun p => q ∈ dominated[p]?.getD [] := by
      rw [List.countP_eq_length_filter, List.countP_eq_length_filter]
      refine (List.subperm_of_subset (List.nodup_range.filter _) fun p hp => ?_).length_le
      obtain ⟨hp, hdominates⟩ := List.mem_filter.mp hp
      exact List.mem_filter.mpr
        ⟨hall p (List.mem_range.mp hp) (of_decide_eq_true hdominates), hdominates⟩
    omega

/-- When no front is left, every index is taken away, unless domination runs in circles. -/
theorem Sorting.mem_done (h : Sorting n dominated done counts []) {weight : Nat → Nat}
    (hweight : ∀ p q, p < n → q ∈ dominated[p]?.getD [] → weight p < weight q) {q : Nat}
    (hq : q < n) : q ∈ done := by
  induction hw : weight q using Nat.strongRecOn generalizing q with
  | ind w ih =>
    have hmem : q ∈ done ++ [] := (h.mem_iff hq).mpr fun p hp hdominates =>
      ih (weight p) (hw ▸ hweight p q hp hdominates) hp rfl
    rwa [List.append_nil] at hmem

theorem Sorting.layered_nil (h : Sorting n dominated done counts []) {weight : Nat → Nat}
    (hweight : ∀ p q, p < n → q ∈ dominated[p]?.getD [] → weight p < weight q) :
    Layered n dominated done [] := by
  refine ⟨h.nodup, fun q => ⟨fun hq => h.bounded q hq, fun hq => ?_⟩, nofun, nofun⟩
  exact List.mem_append_left _ (h.mem_done hweight hq)

theorem Sorting.length_le (h : Sorting n dominated done counts front) :
    (done ++ front).length ≤ n := by
  have hsub : (done ++ front).Subperm (List.range n) :=
    List.subperm_of_subset h.nodup fun p hp => List.mem_range.mpr (h.bounded p hp)
  simpa using hsub.length_le

theorem head_of_frontsFrom {fuel : Nat} {fs : List (List Nat)}
    (h : frontsFrom dominated fuel counts front = .ok fs) {q : Nat} (hq : InFront fs 0 q) :
    q ∈ front := by
  obtain ⟨f, hf, hq⟩ := hq
  cases fuel with
  | zero =>
    cases h
    cases hf
  | succ fuel =>
    unfold frontsFrom at h
    split at h
    · cases h
      cases hf
    · obtain ⟨⟨counts', next⟩, -, h⟩ := bind_eq_ok_iff.mp h
      obtain ⟨rest, -, h⟩ := bind_eq_ok_iff.mp h
      cases h
      cases hf
      exact hq

/-- Sorting goes on until every index is in a front. -/
theorem Sorting.yields_layered (h : Sorting n dominated done counts front)
    (hdominated : ∀ p : Nat, (dominated[p]?.getD []).Nodup) (weight : Nat → Nat)
    (hweight : ∀ p q, p < n → q ∈ dominated[p]?.getD [] → weight p < weight q) (fuel : Nat)
    (hfuel : n ≤ fuel + done.length) :
    Yields (frontsFrom dominated fuel counts front) (Layered n dominated done) := by
  induction fuel generalizing done counts front with
  | zero =>
    have hlength := h.length_le
    rw [List.length_append] at hlength
    obtain rfl : front = [] := List.eq_nil_of_length_eq_zero (by omega)
    exact Yields.ok (h.layered_nil hweight)
  | succ fuel ih =>
    have hrest := h.yields_nextFront hdominated
    unfold frontsFrom
    split
    · next hempty =>
      obtain rfl := List.isEmpty_iff.mp hempty
      exact Yields.ok (h.layered_nil hweight)
    · next hsome =>
      have hpos : 0 < front.length := List.length_pos_iff.mpr fun hnil => hsome (by simp [hnil])
      refine Yields.bind hrest ?_
      rintro ⟨counts', next⟩ hnext
      obtain ⟨fs, hfs, hlayers⟩ := ih hnext (by rw [List.length_append]; omega)
      dsimp only at hfs ⊢
      rw [hfs]
      have hflat : (done ++ front) ++ fs.flatten = done ++ (front :: fs).flatten := by
        rw [List.flatten_cons, List.append_assoc]
      refine Yields.pure ⟨hflat ▸ hlayers.nodup, hflat ▸ hlayers.complete, ?_, ?_⟩
      · intro k q p hq hp hdominates
        cases k with
        | zero =>
          have hmem := List.mem_append_right done (inFront_cons_zero.mp hq)
          exact Or.inl ((h.mem_iff (h.bounded q hmem)).mp hmem p hp hdominates)
        | succ k =>
          obtain hdone | ⟨j, hj, hfront⟩ := hlayers.before k q p hq hp hdominates
          · refine (List.mem_append.mp hdone).imp id fun hfront => ?_
            exact ⟨0, k.succ_pos, inFront_cons_zero.mpr hfront⟩
          · exact Or.inr ⟨j + 1, Nat.succ_lt_succ hj, hfront⟩
      · intro k q hq
        cases k with
        | zero =>
          -- the dominators of a member of the next front are not all taken away before it
          have hmem : q ∈ next := head_of_frontsFrom hfs hq
          have hlt := hnext.bounded q (List.mem_append_right _ hmem)
          have hnot : q ∉ done ++ front := fun hin =>
            (List.nodup_append.mp hnext.nodup).2.2 q hin q hmem rfl
          rw [h.mem_iff hlt] at hnot
          push Not at hnot
          obtain ⟨p, hp, hdominates, hnotdone⟩ := hnot
          have hall := (hnext.mem_iff hlt).mp (List.mem_append_right _ hmem) p hp hdominates
          exact ⟨p, inFront_cons_zero.mpr ((List.mem_append.mp hall).resolve_left hnotdone),
            hdominates⟩
        | succ k => exact hlayers.above k q hq

/-- The fronts that sorting takes away from a state on, one after the other until none is left. No
bound on their number is part of it. -/
inductive Peeling (dominated : Array (List Nat)) : Array Nat → List Nat → List (List Nat) → Prop
  | stop {counts : Array Nat} : Peeling dominated counts [] []
  | peel {counts counts' : Array Nat} {front next : List Nat} {fs : List (List Nat)}
      (hsome : front ≠ []) (hnext : nextFront dominated counts front = .ok (counts', next))
      (hrest : Peeling dominated counts' next fs) : Peeling dominated counts front (front :: fs)

theorem Peeling.ne_nil {fs : List (List Nat)} (h : Peeling dominated counts front fs) :
    ∀ f ∈ fs, f ≠ [] := by
  induction h with
  | stop => nofun
  | peel hsome hnext hrest ih =>
    intro f hf
    rcases List.mem_cons.mp hf with rfl | hf
    · exact hsome
    · exact ih f hf

/-- The bound on the number of fronts is never what ends a sorting. -/
theorem Sorting.peeling_of_frontsFrom (h : Sorting n dominated done counts front)
    (hdominated : ∀ p : Nat, (dominated[p]?.getD []).Nodup) {fuel : Nat}
    (hfuel : n ≤ fuel + done.length) {fs : List (List Nat)}
    (hfs : frontsFrom dominated fuel counts front = .ok fs) :
    Peeling dominated counts front fs := by
  induction fuel generalizing done counts front fs with
  | zero =>
    cases hfs
    have hlength := h.length_le
    rw [List.length_append] at hlength
    obtain rfl : front = [] := List.eq_nil_of_length_eq_zero (by omega)
    exact Peeling.stop
  | succ fuel ih =>
    unfold frontsFrom at hfs
    split at hfs
    · next hempty =>
      cases hfs
      obtain rfl := List.isEmpty_iff.mp hempty
      exact Peeling.stop
    · next hsome =>
      rw [List.isEmpty_iff] at hsome
      have hpos := List.length_pos_iff.mpr hsome
      obtain ⟨⟨counts', next⟩, hnext, hfs⟩ := bind_eq_ok_iff.mp hfs
      obtain ⟨rest, hrest, hfs⟩ := bind_eq_ok_iff.mp hfs
      cases hfs
      have hsorting := (h.yields_nextFront hdominated).of_eq hnext
      refine Peeling.peel hsome hnext (ih hsorting ?_ hrest)
      rw [List.length_append]
      omega

/-- In layers without a beginning every index is in one front. -/
theorem Layered.exists_inFront {fs : List (List Nat)} (h : Layered n dominated [] fs) {q : Nat}
    (hq : q < n) : ∃ k, InFront fs k q := by
  have hmem := (h.complete q).mpr hq
  rw [List.nil_append, List.mem_flatten] at hmem
  obtain ⟨f, hf, hq⟩ := hmem
  obtain ⟨k, hk⟩ := List.getElem?_of_mem hf
  exact ⟨k, f, hk, hq⟩

theorem Layered.lt_of_inFront {fs : List (List Nat)} (h : Layered n dominated [] fs) {k q : Nat}
    (hq : InFront fs k q) : q < n := by
  obtain ⟨f, hf, hq⟩ := hq
  exact (h.complete q).mp (List.mem_flatten.mpr ⟨f, List.mem_of_getElem? hf, hq⟩)

/-- No index is in two fronts. -/
theorem Layered.inFront_unique {fs : List (List Nat)} (h : Layered n dominated done fs)
    {j k q : Nat} (hj : InFront fs j q) (hk : InFront fs k q) : j = k := by
  have hdisjoint := (List.nodup_flatten.mp (List.nodup_append.mp h.nodup).2.1).2
  obtain ⟨f, hf, hqf⟩ := hj
  obtain ⟨g, hg, hqg⟩ := hk
  have hapart {i i' : Nat} {f g : List Nat} (hlt : i < i') (hf : fs[i]? = some f)
      (hg : fs[i']? = some g) (hqf : q ∈ f) (hqg : q ∈ g) : False := by
    obtain ⟨hi, rfl⟩ := List.getElem?_eq_some_iff.mp hf
    obtain ⟨hi', rfl⟩ := List.getElem?_eq_some_iff.mp hg
    exact List.pairwise_iff_getElem.mp hdisjoint i i' hi hi' hlt hqf hqg
  rcases Nat.lt_trichotomy j k with hlt | heq | hgt
  · exact (hapart hlt hf hg hqf hqg).elim
  · exact heq
  · exact (hapart hgt hg hf hqg hqf).elim

/-- A grading by domination: dominators are graded lower, and one of them just lower. -/
structure Grading (n : Nat) (dominated : Array (List Nat)) (grade : Nat → Nat) : Prop where
  lower : ∀ p q, p < n → q < n → q ∈ dominated[p]?.getD [] → grade p < grade q
  just : ∀ q k, q < n → grade q = k + 1 → ∃ p < n, q ∈ dominated[p]?.getD [] ∧ grade p = k

/-- The fronts are the grades of any grading. -/
theorem Layered.grade_eq {fs : List (List Nat)} (h : Layered n dominated [] fs)
    {grade : Nat → Nat} (hgrade : Grading n dominated grade) {k q : Nat} (hq : InFront fs k q) :
    grade q = k := by
  induction k using Nat.strongRecOn generalizing q with
  | ind k ih =>
    have hlt := h.lt_of_inFront hq
    apply Nat.le_antisymm
    · by_contra hgt
      obtain ⟨i, hi⟩ : ∃ i, grade q = i + 1 := ⟨grade q - 1, by omega⟩
      obtain ⟨p, hp, hdominates, hpi⟩ := hgrade.just q i hlt hi
      obtain ⟨j, hj, hfront⟩ := (h.before k q p hq hp hdominates).resolve_left nofun
      have := ih j hj hfront
      omega
    · cases k with
      | zero => exact Nat.zero_le _
      | succ k =>
        obtain ⟨p, hfront, hdominates⟩ := h.above k q hq
        have hp := ih k k.lt_succ_self hfront
        have := hgrade.lower p q (h.lt_of_inFront hfront) hlt hdominates
        omega

theorem Layered.inFront_iff {fs : List (List Nat)} (h : Layered n dominated [] fs)
    {grade : Nat → Nat} (hgrade : Grading n dominated grade) {q : Nat} (hq : q < n) (k : Nat) :
    InFront fs k q ↔ grade q = k := by
  constructor
  · exact h.grade_eq hgrade
  · rintro rfl
    obtain ⟨k, hk⟩ := h.exists_inFront hq
    rwa [h.grade_eq hgrade hk]

end Fronts

end PatchSearch

/-!
Domination among vectors of floats. A vector does not dominate itself, and domination is transitive
among vectors of one size, also with values that are no numbers, which compare with nothing; empty
vectors may be there as well, as they take no part. So domination runs in no circles, and the
fronts of such vectors are layers, numbered by the longest chains of dominators.
-/
namespace PatchSearch

namespace Objectives

/-- Domination place by place. -/
theorem dominates_iff {α : Type} [Scalar α] {v w : Objectives α} : v.dominates w = true ↔
    (∀ (k : Nat) (a b : α), v.toList[k]? = some a → w.toList[k]? = some b → a ≤ b) ∧
      ∃ (k : Nat) (a b : α), v.toList[k]? = some a ∧ w.toList[k]? = some b ∧ a < b := by
  have hzip (k : Nat) (x : α × α) :
      (v.toList.zip w.toList)[k]? = some x ↔
        v.toList[k]? = some x.1 ∧ w.toList[k]? = some x.2 := by
    rw [List.getElem?_zip_eq_some]
  unfold dominates
  simp only [Bool.and_eq_true, List.all_eq_true, List.any_eq_true, decide_eq_true_eq,
    List.mem_iff_getElem?]
  constructor
  · rintro ⟨hall, x, ⟨k, hx⟩, hlt⟩
    rw [hzip] at hx
    refine ⟨fun k a b ha hb => ?_, k, x.1, x.2, hx.1, hx.2, hlt⟩
    exact hall (a, b) ⟨k, (hzip k (a, b)).mpr ⟨ha, hb⟩⟩
  · rintro ⟨hall, k, a, b, ha, hb, hlt⟩
    refine ⟨fun x ⟨k, hx⟩ => ?_, (a, b), ⟨k, (hzip k (a, b)).mpr ⟨ha, hb⟩⟩, hlt⟩
    rw [hzip] at hx
    exact hall k x.1 x.2 hx.1 hx.2

/-- A vector has a certain size, or it is empty. -/
def Uniform {α : Type} (size : Nat) (v : Objectives α) : Prop :=
  v.size = 0 ∨ v.size = size

variable {u v w : Objectives Float} {size : Nat}

theorem not_dominates_self (v : Objectives Float) : v.dominates v = false := by
  rw [← Bool.not_eq_true, dominates_iff]
  rintro ⟨-, k, a, b, ha, hb, hlt⟩
  obtain rfl := Option.some.inj (ha.symm.trans hb)
  exact FloatOrder.lt_irrefl a hlt

theorem dominates_trans (hv : v.Uniform size) (hw : w.Uniform size)
    (huv : u.dominates v = true) (hvw : v.dominates w = true) : u.dominates w = true := by
  rw [dominates_iff] at huv hvw ⊢
  obtain ⟨huv, k, a, b, ha, hb, hab⟩ := huv
  obtain ⟨hvw, k', b', c', hb', hc', -⟩ := hvw
  -- a strict comparison is one of values that are there, so none of the three is empty
  have hsize {x : Objectives Float} (hx : x.Uniform size) {k : Nat} {a : Float}
      (ha : x.toList[k]? = some a) : x.toList.length = size := by
    have hlt := (List.getElem?_eq_some_iff.mp ha).1
    rw [x.length_toList] at hlt ⊢
    exact hx.resolve_left (by omega)
  have hlv := hsize hv hb
  have hlw := hsize hw hc'
  have hmiddle {k : Nat} {c : Float} (hc : w.toList[k]? = some c) :
      ∃ b, v.toList[k]? = some b := by
    have hlt := (List.getElem?_eq_some_iff.mp hc).1
    exact ⟨_, List.getElem?_eq_getElem (by omega)⟩
  refine ⟨fun k a c ha hc => ?_, ?_⟩
  · obtain ⟨b, hb⟩ := hmiddle hc
    exact FloatOrder.le_trans (huv k a b ha hb) (hvw k b c hb hc)
  · have hlt := (List.getElem?_eq_some_iff.mp hb).1
    have hc := List.getElem?_eq_getElem (show k < w.toList.length by omega)
    exact ⟨k, a, _, ha, hc, FloatOrder.lt_of_lt_of_le hab (hvw k b _ hb hc)⟩

end Objectives

section Fronts

variable {vs : List (Objectives Float)} {size : Nat}

/-- A vector has more dominators than any of its dominators. -/
theorem dominatorCount_lt (hvs : ∀ v ∈ vs, v.Uniform size) {v w : Objectives Float} (hv : v ∈ vs)
    (hw : w ∈ vs) (h : v.dominates w = true) : dominatorCount vs v < dominatorCount vs w := by
  unfold dominatorCount
  rw [List.countP_eq_length_filter, List.countP_eq_length_filter]
  have hfiltered : vs.filter (·.dominates v) =
      (vs.filter (·.dominates w)).filter (·.dominates v) := by
    rw [List.filter_filter]
    refine List.filter_congr fun u _ => ?_
    rw [eq_comm, Bool.and_eq_left_iff_imp]
    exact fun huv => Objectives.dominates_trans (hvs v hv) (hvs w hw) huv h
  rw [hfiltered]
  refine List.length_filter_lt_length_iff_exists.mpr ⟨v, List.mem_filter.mpr ⟨hv, h⟩, ?_⟩
  rw [v.not_dominates_self]
  exact Bool.false_ne_true

/-- The indices that each index dominates. -/
theorem mem_dominated {p q : Nat} {w : Objectives Float} (hq : vs[q]? = some w) :
    q ∈ (vs.map (dominatedBy vs)).toArray[p]?.getD [] ↔
      ∃ v, vs[p]? = some v ∧ v.dominates w = true := by
  rw [List.getElem?_toArray, List.getElem?_map]
  cases hp : vs[p]? with
  | none => simp
  | some v => simp [mem_dominatedBy vs hq]

/-- The fronts of vectors of one size are layers of all of them. -/
theorem yields_fronts_layered (hvs : ∀ v ∈ vs, v.Uniform size) :
    Yields (fronts vs) (Layered vs.length (vs.map (dominatedBy vs)).toArray []) := by
  refine (sorting_start vs).yields_layered (nodup_dominated vs)
    (fun q => (vs[q]?.map (dominatorCount vs)).getD 0) (fun p q hp hq => ?_) vs.length
    (Nat.le_add_right _ _)
  have hlt : q < vs.length := by
    rw [List.getElem?_toArray, List.getElem?_map, List.getElem?_eq_getElem hp] at hq
    exact lt_length_of_mem_dominatedBy vs hq
  have hw := List.getElem?_eq_getElem hlt
  obtain ⟨v, hv, hdominates⟩ := (mem_dominated hw).mp hq
  rw [hv, hw]
  exact dominatorCount_lt hvs (List.mem_of_getElem? hv) (List.mem_of_getElem? hw) hdominates

/-- The vector at one place dominates the vector at another. -/
def Outranks (vs : List (Objectives Float)) (p q : Nat) : Prop :=
  ∃ v w, vs[p]? = some v ∧ vs[q]? = some w ∧ v.dominates w = true

theorem Outranks.lt_length {p q : Nat} (h : Outranks vs p q) : p < vs.length ∧ q < vs.length := by
  obtain ⟨v, w, hv, hw, -⟩ := h
  exact ⟨(List.getElem?_eq_some_iff.mp hv).1, (List.getElem?_eq_some_iff.mp hw).1⟩

theorem mem_dominated_iff_outranks {p q : Nat} :
    q ∈ (vs.map (dominatedBy vs)).toArray[p]?.getD [] ↔ Outranks vs p q := by
  cases hq : vs[q]? with
  | none =>
    constructor
    · intro hmem
      rw [List.getElem?_toArray, List.getElem?_map] at hmem
      have hge := List.getElem?_eq_none_iff.mp hq
      cases hp : vs[p]? with
      | none => simp [hp] at hmem
      | some v =>
        rw [hp] at hmem
        exact absurd (lt_length_of_mem_dominatedBy vs hmem) (Nat.not_lt.mpr hge)
    · rintro ⟨v, w, -, hw, -⟩
      rw [hq] at hw
      cases hw
  | some w =>
    rw [mem_dominated hq]
    constructor
    · rintro ⟨v, hv, hdominates⟩
      exact ⟨v, w, hv, hq, hdominates⟩
    · rintro ⟨v, w', hv, hw, hdominates⟩
      cases hq.symm.trans hw
      exact ⟨v, hv, hdominates⟩

/-- The lengths of the chains of dominators, each dominating the one after it, that end at a
place. -/
def chainLengths (vs : List (Objectives Float)) (i : Nat) : Set Nat :=
  {k | ∃ ps : List Nat, ps.length = k ∧ (ps ++ [i]).IsChain (Outranks vs)}

section Chains

variable {fs : List (List Nat)}
  (h : Layered vs.length (vs.map (dominatedBy vs)).toArray [] fs)
include h

theorem Layered.lt_of_outranks {k p q : Nat} (hq : InFront fs k q) (hout : Outranks vs p q) :
    ∃ j < k, InFront fs j p := by
  have hmem := mem_dominated_iff_outranks.mpr hout
  exact (h.before k q p hq hout.lt_length.1 hmem).resolve_left nofun

/-- A chain of dominators goes through earlier fronts only, a different one for each. -/
theorem Layered.length_le_of_isChain {k i : Nat} (hi : InFront fs k i) {ps : List Nat}
    (hchain : (ps ++ [i]).IsChain (Outranks vs)) : ps.length ≤ k := by
  induction ps using List.reverseRecOn generalizing k i with
  | nil => exact Nat.zero_le k
  | append_singleton ps p ih =>
    rw [List.append_assoc, List.singleton_append, List.isChain_append_cons_cons] at hchain
    obtain ⟨hchain, hout, -⟩ := hchain
    obtain ⟨j, hj, hp⟩ := h.lt_of_outranks hi hout
    have hle := ih hp hchain
    rw [List.length_append, List.length_singleton]
    omega

/-- From front to front there is a chain of dominators with one of them in each. -/
theorem Layered.mem_chainLengths {k i : Nat} (hi : InFront fs k i) : k ∈ chainLengths vs i := by
  induction k generalizing i with
  | zero => exact ⟨[], rfl, List.isChain_singleton i⟩
  | succ k ih =>
    obtain ⟨p, hp, hmem⟩ := h.above k i hi
    obtain ⟨ps, hlength, hchain⟩ := ih hp
    refine ⟨ps ++ [p], ?_, ?_⟩
    · rw [List.length_append, hlength, List.length_singleton]
    · rw [List.append_assoc, List.singleton_append, List.isChain_append_cons_cons]
      exact ⟨hchain, mem_dominated_iff_outranks.mp hmem, List.isChain_singleton i⟩

theorem Layered.isGreatest_chainLengths {k i : Nat} (hi : InFront fs k i) :
    IsGreatest (chainLengths vs i) k := by
  refine ⟨h.mem_chainLengths hi, ?_⟩
  rintro _ ⟨ps, rfl, hchain⟩
  exact h.length_le_of_isChain hi hchain

theorem Layered.inFront_iff_isGreatest {i : Nat} (hi : i < vs.length) (r : Nat) :
    InFront fs r i ↔ IsGreatest (chainLengths vs i) r := by
  constructor
  · exact h.isGreatest_chainLengths
  · intro hr
    obtain ⟨k, hk⟩ := h.exists_inFront hi
    obtain rfl := hr.unique (h.isGreatest_chainLengths hk)
    exact hk

/-- A front holds what no index outside the fronts before it dominates. -/
theorem Layered.inFront_iff_minimal {i : Nat} (hi : i < vs.length) (r : Nat) :
    InFront fs r i ↔ (∀ k < r, ¬InFront fs k i) ∧
      ∀ j < vs.length, (∀ k < r, ¬InFront fs k j) → ¬Outranks vs j i := by
  constructor
  · intro hr
    refine ⟨fun k hk hki => ?_, fun j _ houtside hout => ?_⟩
    · exact absurd (h.inFront_unique hki hr) (Nat.ne_of_lt hk)
    · obtain ⟨k, hk, hj⟩ := h.lt_of_outranks hr hout
      exact houtside k hk hj
  · rintro ⟨houtside, hleast⟩
    obtain ⟨k, hk⟩ := h.exists_inFront hi
    have hge : r ≤ k := Nat.le_of_not_lt fun hlt => houtside k hlt hk
    cases k with
    | zero =>
      obtain rfl := Nat.le_zero.mp hge
      exact hk
    | succ k =>
      obtain ⟨p, hp, hmem⟩ := h.above k i hk
      by_contra hnot
      -- the dominator just above lies outside the first `r` fronts too
      have hle : r ≤ k := by
        rcases Nat.lt_or_ge k r with hlt | hle
        · obtain rfl : r = k + 1 := by omega
          exact absurd hk hnot
        · exact hle
      refine hleast p (h.lt_of_inFront hp) (fun j hj hjp => ?_)
        (mem_dominated_iff_outranks.mp hmem)
      have := h.inFront_unique hjp hp
      omega

theorem Layered.perm_range : fs.flatten.Perm (List.range vs.length) := by
  refine (List.perm_ext_iff_of_nodup h.nodup List.nodup_range).mpr fun q => ?_
  rw [List.mem_range]
  exact h.complete q

end Chains

/-- Domination is a strict order on the vectors of one size. -/
theorem Objectives.isStrictOrder_dominates (size : Nat) :
    IsStrictOrder {v : Objectives Float // v.size = size} fun v w => v.1.dominates w.1 = true where
  irrefl := fun v hself => by
    rw [v.1.not_dominates_self] at hself
    exact Bool.false_ne_true hself
  trans := fun _ v w => dominates_trans (Or.inr v.2) (Or.inr w.2)

/-- The fronts that sorting a list of vectors takes away from the counts of their dominators. -/
def PeelsInto (vs : List (Objectives Float)) (fs : List (List Nat)) : Prop :=
  Peeling (vs.map (dominatedBy vs)).toArray (vs.map (dominatorCount vs)).toArray
    ((List.range vs.length).filter fun i => (vs.map (dominatorCount vs))[i]? == some 0) fs

/-- Sorting vectors of one size, whatever their values. Domination is a strict order among them.
Sorting ends, and without a fault, which a count below zero would be, with fronts that hold every
index once. The number of an index's front is the length of the longest chain of dominators that
ends at it, and a front is what nothing outside the fronts before it dominates. -/
theorem fronts_exact (vs : List (Objectives Float)) (size : Nat) (hsize : ∀ v ∈ vs, v.size = size) :
    (IsStrictOrder {v : Objectives Float // v.size = size} fun v w => v.1.dominates w.1 = true) ∧
      ∃ fs, fronts vs = .ok fs ∧ PeelsInto vs fs ∧ (∀ f ∈ fs, f ≠ []) ∧ (fs = [] ↔ vs = []) ∧
        fs.flatten.Perm (List.range vs.length) ∧
        ∀ i < vs.length, ∀ r,
          (InFront fs r i ↔ IsGreatest (chainLengths vs i) r) ∧
          (InFront fs r i ↔ (∀ k < r, ¬InFront fs k i) ∧
            ∀ j < vs.length, (∀ k < r, ¬InFront fs k j) → ¬Outranks vs j i) := by
  refine ⟨Objectives.isStrictOrder_dominates size, ?_⟩
  obtain ⟨fs, hfs, hlayers⟩ := yields_fronts_layered fun v hv => Or.inr (hsize v hv)
  have hpeels : PeelsInto vs fs := (sorting_start vs).peeling_of_frontsFrom
    (nodup_dominated vs) (Nat.le_add_right _ _) hfs
  refine ⟨fs, hfs, hpeels, hpeels.ne_nil, ⟨fun hnil => ?_, fun hnil => ?_⟩, hlayers.perm_range,
    fun i hi r => ⟨hlayers.inFront_iff_isGreatest hi r, hlayers.inFront_iff_minimal hi r⟩⟩
  · subst hnil
    have hlength := hlayers.perm_range.length_eq
    rw [List.length_range] at hlength
    exact List.eq_nil_of_length_eq_zero hlength.symm
  · subst hnil
    cases hfs
    rfl

/-- Two vectors that dominate a third, and one with a value that is no number, which takes part in
no domination. -/
theorem fronts_exact_of_nan :
    ∃ vs : List (Objectives Float), (∀ v ∈ vs, v.size = 2) ∧
      fronts vs = .ok [[0, 1, 3], [2]] ∧ IsGreatest (chainLengths vs 2) 1 ∧
      IsGreatest (chainLengths vs 3) 0 := by
  let vs : List (Objectives Float) :=
    [.ofList [1, 2], .ofList [2, 1], .ofList [2, 2], .ofList [0.0 / 0.0, 0]]
  have hsize : ∀ v ∈ vs, v.size = 2 := by simp [vs, Objectives.ofList]
  have hfronts : fronts vs = .ok [[0, 1, 3], [2]] := by decide +kernel
  obtain ⟨-, fs, hfs, -, -, -, -, hranks⟩ := fronts_exact vs 2 hsize
  obtain rfl := Except.ok.inj (hfs.symm.trans hfronts)
  refine ⟨vs, hsize, hfronts, (hranks 2 (by decide) 1).1.mp ?_, (hranks 3 (by decide) 0).1.mp ?_⟩
  · exact ⟨[2], rfl, List.mem_singleton_self 2⟩
  · exact ⟨[0, 1, 3], rfl, by decide⟩

end Fronts

end PatchSearch
