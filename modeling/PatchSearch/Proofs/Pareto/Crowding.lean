import PatchSearch.Pareto.Fronts
import PatchSearch.Proofs.Numbers.Exact
import PatchSearch.Proofs.Yields

/-!
Who is infinitely far out in a front, and how far out the others are, in floats or without rounding.
With finite values every gain is infinite or between zero and one, so after some columns a crowding
distance is infinite or no larger than their number. A column makes the distances of its first and
its last member infinite and none of the others, so few distances are infinite in all; and a member
with the smallest value of a column and one with the largest have one of them, which no later column
takes away. A gain depends on the place of a value among the sorted ones, so in a front without ties
every member keeps its distance when the front is rearranged.
-/
namespace PatchSearch

section Distances

variable {α : Type} [Scalar α]

theorem size_addGains (distances : Array α) (values : List α) :
    (addGains distances values).size = distances.size := by
  unfold addGains
  dsimp only
  induction (valueOrder values).zip (gainsAlong ((valueOrder values).map Prod.fst))
    generalizing distances with
  | nil => rfl
  | cons x xs ih => rw [List.foldl_cons, ih, Array.size_modify]

theorem size_foldl_addGains (columns : List (List α)) (distances : Array α) :
    (columns.foldl addGains distances).size = distances.size := by
  induction columns generalizing distances with
  | nil => rfl
  | cons column columns ih => rw [List.foldl_cons, ih, size_addGains]

/-- Every member of a front has a crowding distance. -/
theorem length_crowding {front : List Nat} {vs : List (Objectives α)} {ds : List α}
    (h : crowding front vs = .ok ds) : ds.length = front.length := by
  unfold crowding at h
  split at h
  · cases h
    exact List.length_map _
  · obtain ⟨first, -, h⟩ := bind_eq_ok_iff.mp h
    split at h
    · cases h
      exact List.length_map _
    · obtain ⟨members, -, h⟩ := bind_eq_ok_iff.mp h
      obtain ⟨columns, -, h⟩ := bind_eq_ok_iff.mp h
      cases h
      simp [size_foldl_addGains]

end Distances

section Gains

variable {α : Type} [Gauge α] {i j : ℕ} {x y : α}

/-- A distance that so many gains, each at most one, can add up to. -/
def Near (j : ℕ) (d : α) : Prop :=
  Scalar.isFinite d = true ∧ 0 ≤ Gauge.measure d ∧ Gauge.measure d ≤ j

theorem Near.mono (h : Near i x) (hij : i ≤ j) : Near j x :=
  ⟨h.1, h.2.1, h.2.2.trans (Nat.cast_le.mpr hij)⟩

theorem near_zero : Near 0 (Arithmetic.ofNat 0 : α) := by
  unfold Near
  rw [Gauge.measure_zero, Nat.cast_zero]
  exact ⟨Gauge.isFinite_zero, le_rfl, le_rfl⟩

theorem Near.add (hx : Near i x) (hy : Near j y) (hbound : i + j < 2 ^ 53) :
    Near (i + j) (x + y) := by
  refine Gauge.add_bounds hx.1 hy.1 hx.2.1 hy.2.1 ?_ hbound
  rw [Nat.cast_add]
  exact add_le_add hx.2.2 hy.2.2

omit [Gauge α] in
theorem length_innerGains [Scalar α] (range : α) (values : List α) :
    (innerGains range values).length = values.length - 2 := by
  fun_induction innerGains range values with
  | case1 a b c rest ih => simpa using ih
  | case2 values hshort =>
    match values with
    | [] => rfl
    | [_] => rfl
    | [_, _] => rfl
    | a :: b :: c :: rest => exact absurd rfl (hshort a b c rest)

omit [Gauge α] in
/-- An inner gain compares two members in order. -/
theorem mem_innerGains [Scalar α] {R : α → α → Prop} {range : α} {values : List α}
    (hsorted : values.Pairwise R) {g : α} (hg : g ∈ innerGains range values) :
    ∃ a ∈ values, ∃ c ∈ values, R a c ∧ g = (c - a) / range := by
  fun_induction innerGains range values with
  | case1 a b c rest ih =>
    obtain ⟨hfirst, hrest⟩ := List.pairwise_cons.mp hsorted
    rcases List.mem_cons.mp hg with rfl | hg
    · exact ⟨a, by simp, c, by simp, hfirst c (by simp), rfl⟩
    · obtain ⟨a', ha', c', hc', hgain⟩ := ih hrest hg
      exact ⟨a', List.mem_cons_of_mem _ ha', c', List.mem_cons_of_mem _ hc', hgain⟩
  | case2 => cases hg

omit [Gauge α] in
/-- Every place of a column with an end on either side has a gain. -/
theorem length_gainsAlong [Scalar α] {values : List α} (h : 2 ≤ values.length) :
    (gainsAlong values).length = values.length := by
  obtain ⟨low, rest, rfl⟩ := List.exists_cons_of_length_pos (show 0 < values.length by omega)
  obtain ⟨high, hhigh⟩ : ∃ high, (low :: rest).getLast? = some high :=
    ⟨_, List.getLast?_eq_some_getLast (List.cons_ne_nil low rest)⟩
  simp only [gainsAlong, List.head?_cons, hhigh, List.length_append, List.length_cons,
    List.length_nil] at h ⊢
  split
  · rw [List.length_replicate]
    omega
  · rw [length_innerGains, List.length_cons]
    omega

/-- Along ascending finite values the outer gains are infinite and the inner ones at most one. -/
theorem gainsAlong_spec {values : List α} (hlength : 2 ≤ values.length)
    (hfinite : ∀ x ∈ values, Scalar.isFinite x = true)
    (hsorted : values.Pairwise fun x y => Gauge.measure x ≤ Gauge.measure y) :
    ∃ inner, gainsAlong values = Scalar.infinity :: (inner ++ [Scalar.infinity]) ∧
      ∀ g ∈ inner, Near 1 g := by
  obtain ⟨low, rest, rfl⟩ := List.exists_cons_of_length_pos (show 0 < values.length by omega)
  obtain ⟨high, hhigh⟩ : ∃ high, (low :: rest).getLast? = some high :=
    ⟨_, List.getLast?_eq_some_getLast (List.cons_ne_nil low rest)⟩
  refine ⟨_, by simp only [gainsAlong, List.head?_cons, hhigh]; rfl, fun g hg => ?_⟩
  split at hg
  · rw [List.eq_of_mem_replicate hg]
    exact near_zero.mono (Nat.zero_le 1)
  · next hrange =>
    rw [Bool.or_eq_true, not_or, decide_eq_true_eq, Bool.not_eq_true', Bool.not_eq_false] at hrange
    obtain ⟨a, ha, c, hc, hac, rfl⟩ := mem_innerGains hsorted hg
    have hlast := List.mem_of_getLast? hhigh
    have hbelow (x : α) (hx : x ∈ low :: rest) : Gauge.measure low ≤ Gauge.measure x := by
      rcases List.mem_cons.mp hx with rfl | hx
      · exact le_rfl
      · exact (List.pairwise_cons.mp hsorted).1 x hx
    have habove (x : α) (hx : x ∈ low :: rest) : Gauge.measure x ≤ Gauge.measure high := by
      rw [← List.dropLast_append_getLast? high hhigh] at hx hsorted
      rcases List.mem_append.mp hx with hx | hx
      · exact (List.pairwise_append.mp hsorted).2.2 x hx high (List.mem_singleton_self high)
      · rw [List.mem_singleton.mp hx]
    obtain ⟨hgain, hnonneg, hle⟩ := Gauge.ratio_bounds (hfinite low (by simp)) (hfinite a ha)
      (hfinite c hc) (hfinite high hlast) (hbelow a ha) hac (habove c hc) hrange.2 hrange.1
    exact ⟨hgain, hnonneg, by rwa [Nat.cast_one]⟩

end Gains

section Columns

variable {α : Type} {column column' : List α} {i : ℕ} {gain : α}

/-- The gain of a member of a column: the one at its place in order of value. -/
def GainOf [Scalar α] (column : List α) (i : ℕ) (gain : α) : Prop :=
  ∃ (p : ℕ) (x : α), (valueOrder column)[p]? = some (x, i) ∧
    (gainsAlong ((valueOrder column).map Prod.fst))[p]? = some gain

section Places

variable [Scalar α]

theorem perm_valueOrder (column : List α) : (valueOrder column).Perm column.zipIdx :=
  List.mergeSort_perm _ _

theorem mem_valueOrder {place : α × ℕ} :
    place ∈ valueOrder column ↔ column[place.2]? = some place.1 := by
  rw [(perm_valueOrder column).mem_iff, List.mem_zipIdx_iff_getElem?]

theorem length_valueOrder (column : List α) : (valueOrder column).length = column.length := by
  rw [(perm_valueOrder column).length_eq, List.length_zipIdx]

theorem nodup_valueOrder (column : List α) : ((valueOrder column).map Prod.snd).Nodup := by
  rw [((perm_valueOrder column).map Prod.snd).nodup_iff, List.zipIdx_map_snd]
  exact List.nodup_range'

/-- The values of the members in order are the sorted values. -/
theorem map_fst_valueOrder (column : List α) :
    (valueOrder column).map Prod.fst = column.mergeSort Scalar.totalLE := by
  have hvalues : column = column.zipIdx.map Prod.fst := (List.zipIdx_map_fst 0 column).symm
  conv_rhs => rw [hvalues]
  exact List.map_mergeSort fun _ _ _ _ => rfl

/-- Adding gains to places changes each of them by its own gain. -/
theorem getElem?_foldl_modify {gains : List ((α × ℕ) × α)}
    (hnodup : (gains.map (·.1.2)).Nodup) (ds : Array α) :
    (∀ i, i ∉ gains.map (·.1.2) →
      (gains.foldl (fun ds (place, gain) => ds.modify place.2 (· + gain)) ds)[i]? = ds[i]?) ∧
    ∀ place gain, (place, gain) ∈ gains →
      (gains.foldl (fun ds (place, gain) => ds.modify place.2 (· + gain)) ds)[place.2]? =
        ds[place.2]?.map (· + gain) := by
  induction gains generalizing ds with
  | nil => exact ⟨fun _ _ => rfl, nofun⟩
  | cons first gains ih =>
    obtain ⟨place, gain⟩ := first
    rw [List.map_cons, List.nodup_cons] at hnodup
    obtain ⟨hother, hin⟩ := ih hnodup.2 (ds.modify place.2 (· + gain))
    rw [List.foldl_cons]
    refine ⟨fun i hi => ?_, fun place' gain' hmem => ?_⟩
    · rw [List.map_cons, List.mem_cons, not_or] at hi
      rw [hother i hi.2, Array.getElem?_modify, if_neg (Ne.symm hi.1)]
    · rcases List.mem_cons.mp hmem with heq | hmem
      · cases heq
        rw [hother _ hnodup.1, Array.getElem?_modify, if_pos rfl]
      · have hne : place.2 ≠ place'.2 := by
          intro heq
          exact hnodup.1 (heq ▸ List.mem_map.mpr ⟨_, hmem, rfl⟩)
        rw [hin place' gain' hmem, Array.getElem?_modify, if_neg hne]

/-- Every member of a column gets its own gain. -/
theorem GainOf.getElem?_addGains (h : GainOf column i gain) (hlength : 2 ≤ column.length)
    (ds : Array α) : (addGains ds column)[i]? = ds[i]?.map (· + gain) := by
  obtain ⟨p, x, hplace, hgain⟩ := h
  let gains := gainsAlong ((valueOrder column).map Prod.fst)
  have hgains : gains.length = (valueOrder column).length := by
    rw [length_gainsAlong (by rwa [List.length_map, length_valueOrder]), List.length_map]
  have hplaces : ((valueOrder column).zip gains).map (·.1.2) =
      (valueOrder column).map Prod.snd := by
    rw [show (fun place : (α × ℕ) × α => place.1.2) = Prod.snd ∘ Prod.fst from rfl,
      ← List.map_map, List.map_fst_zip hgains.ge]
  have hnodup := nodup_valueOrder column
  rw [← hplaces] at hnodup
  have hmem : ((x, i), gain) ∈ (valueOrder column).zip gains :=
    List.mem_of_getElem? (List.getElem?_zip_eq_some.mpr ⟨hplace, hgain⟩)
  exact (getElem?_foldl_modify hnodup ds).2 (x, i) gain hmem

/-- Every member of a column has a gain. -/
theorem exists_gainOf (hlength : 2 ≤ column.length) (hi : i < column.length) :
    ∃ gain, GainOf column i gain := by
  have hmem : (column[i], i) ∈ valueOrder column :=
    mem_valueOrder.mpr (List.getElem?_eq_getElem hi)
  obtain ⟨p, hp⟩ := List.getElem?_of_mem hmem
  have hlt : p < (gainsAlong ((valueOrder column).map Prod.fst)).length := by
    rw [length_gainsAlong (by rwa [List.length_map, length_valueOrder]), List.length_map]
    exact (List.getElem?_eq_some_iff.mp hp).1
  exact ⟨_, p, column[i], hp, List.getElem?_eq_getElem hlt⟩

end Places

variable [Gauge α]

/-- A member of a column whose value stands in a relation to every value. -/
def Extreme (R : ℚ → ℚ → Prop) (column : List α) (i : ℕ) : Prop :=
  ∃ x, column[i]? = some x ∧ ∀ y ∈ column, R (Gauge.measure x) (Gauge.measure y)

/-- A place that stands in a relation to all others is that of an extreme member. -/
theorem extreme_of_perm {R : ℚ → ℚ → Prop} {place : α × ℕ} {rest : List (α × ℕ)}
    (hperm : (place :: rest).Perm (valueOrder column))
    (hself : R (Gauge.measure place.1) (Gauge.measure place.1))
    (hrest : ∀ other ∈ rest, R (Gauge.measure place.1) (Gauge.measure other.1)) :
    Extreme R column place.2 := by
  refine ⟨place.1, mem_valueOrder.mp (hperm.mem_iff.mp List.mem_cons_self), fun y hy => ?_⟩
  obtain ⟨j, hj⟩ := List.getElem?_of_mem hy
  have hmem : (y, j) ∈ place :: rest := hperm.mem_iff.mpr (mem_valueOrder.mpr hj)
  rcases List.mem_cons.mp hmem with heq | hmem
  · rw [← heq] at hself ⊢
    exact hself
  · exact hrest (y, j) hmem

theorem pairwise_valueOrder (hfinite : ∀ x ∈ column, Scalar.isFinite x = true) :
    (valueOrder column).Pairwise fun a b => Gauge.measure a.1 ≤ Gauge.measure b.1 := by
  have hsorted : ((valueOrder column).map Prod.fst).Pairwise fun x y =>
      Scalar.totalLE x y = true := by
    rw [map_fst_valueOrder]
    exact Gauge.orders.pairwise_mergeSort column
  have hmem {place : α × ℕ} (h : place ∈ valueOrder column) : Scalar.isFinite place.1 = true :=
    hfinite _ (List.mem_of_getElem? (mem_valueOrder.mp h))
  exact (List.pairwise_map.mp hsorted).imp_of_mem fun ha hb hab =>
    Gauge.measure_le (hmem ha) (hmem hb) hab

/-- The member that comes first in order of value is a lowest one. -/
theorem extreme_first (hfinite : ∀ x ∈ column, Scalar.isFinite x = true) {first : α × ℕ}
    {rest : List (α × ℕ)} (h : valueOrder column = first :: rest) :
    Extreme (· ≤ ·) column first.2 := by
  have hsorted := pairwise_valueOrder hfinite
  rw [h, List.pairwise_cons] at hsorted
  exact extreme_of_perm (h ▸ .refl _) le_rfl hsorted.1

/-- The member that comes last is a highest one. -/
theorem extreme_last (hfinite : ∀ x ∈ column, Scalar.isFinite x = true) {last : α × ℕ}
    {rest : List (α × ℕ)} (h : valueOrder column = rest ++ [last]) :
    Extreme (· ≥ ·) column last.2 := by
  have hsorted := pairwise_valueOrder hfinite
  have hperm : (last :: rest).Perm (valueOrder column) := by
    rw [h]
    exact (List.perm_append_singleton last rest).symm
  rw [h, List.pairwise_append] at hsorted
  refine extreme_of_perm hperm le_rfl fun other hother => ?_
  exact hsorted.2.2 other hother last (List.mem_singleton_self last)

/-- A column with members has a lowest one and a highest one. -/
theorem exists_extremes (hfinite : ∀ x ∈ column, Scalar.isFinite x = true) (hne : column ≠ []) :
    (∃ i, Extreme (· ≤ ·) column i) ∧ ∃ i, Extreme (· ≥ ·) column i := by
  have horder : valueOrder column ≠ [] := by
    rw [← List.length_pos_iff, length_valueOrder]
    exact List.length_pos_iff.mpr hne
  constructor
  · exact ⟨_, extreme_first hfinite (List.cons_head_tail horder).symm⟩
  · exact ⟨_, extreme_last hfinite (List.dropLast_append_getLast horder).symm⟩

theorem exists_ends {β : Type} (xs : List β) (h : 2 ≤ xs.length) :
    ∃ first middle last, xs = first :: (middle ++ [last]) := by
  obtain ⟨first, rest, rfl⟩ := List.exists_cons_of_length_pos (show 0 < xs.length by omega)
  have hne : rest ≠ [] := by
    rintro rfl
    simp at h
  exact ⟨first, rest.dropLast, rest.getLast hne, by rw [List.dropLast_append_getLast]⟩

/-- Two members of a column have infinite gains, a lowest one and a highest one; all others gain at
most one. -/
theorem gainOf_cases (hlength : 2 ≤ column.length)
    (hfinite : ∀ x ∈ column, Scalar.isFinite x = true) :
    ∃ first last, Extreme (· ≤ ·) column first ∧ GainOf column first Scalar.infinity ∧
      Extreme (· ≥ ·) column last ∧ GainOf column last Scalar.infinity ∧
      ∀ i gain, GainOf column i gain →
        gain = Scalar.infinity ∧ (i = first ∨ i = last) ∨ Near 1 gain := by
  have hsorted := pairwise_valueOrder hfinite
  have hvalues : ∀ x ∈ (valueOrder column).map Prod.fst, Scalar.isFinite x = true := by
    intro x hx
    obtain ⟨place, hplace, rfl⟩ := List.mem_map.mp hx
    exact hfinite _ (List.mem_of_getElem? (mem_valueOrder.mp hplace))
  have hlength' : 2 ≤ ((valueOrder column).map Prod.fst).length := by
    rwa [List.length_map, length_valueOrder]
  obtain ⟨inner, hgains, hnear⟩ :=
    gainsAlong_spec hlength' hvalues (List.pairwise_map.mpr hsorted)
  have hinner := length_gainsAlong hlength'
  rw [List.length_map] at hinner hlength'
  obtain ⟨first, middle, last, horder⟩ := exists_ends (valueOrder column) hlength'
  have hmiddle : middle.length = inner.length := by
    rw [hgains, horder] at hinner
    simp at hinner
    omega
  have hends : valueOrder column = (first :: middle) ++ [last] := horder
  refine ⟨first.2, last.2, extreme_first hfinite horder, ⟨0, first.1, ?_, ?_⟩,
    extreme_last hfinite hends, ⟨inner.length + 1, last.1, ?_, ?_⟩, ?_⟩
  · rw [horder]
    rfl
  · rw [hgains]
    rfl
  · rw [horder, ← hmiddle]
    simp
  · rw [hgains]
    simp
  · rintro i gain ⟨p, x, hplace, hgain⟩
    rw [horder] at hplace
    rw [hgains] at hgain
    cases p with
    | zero =>
      cases hplace
      cases hgain
      exact Or.inl ⟨rfl, Or.inl rfl⟩
    | succ p =>
      rw [List.getElem?_cons_succ] at hplace hgain
      by_cases hp : p < inner.length
      · rw [List.getElem?_append_left hp] at hgain
        exact Or.inr (hnear gain (List.mem_of_getElem? hgain))
      · rw [List.getElem?_append_right (by omega), List.getElem?_singleton] at hplace hgain
        split at hplace
        · cases hplace
          split at hgain
          · cases hgain
            exact Or.inl ⟨rfl, Or.inr rfl⟩
          · cases hgain
        · cases hplace

/-- Where no other member has the same value, the gain does not depend on the order of the
members. -/
theorem GainOf.of_perm (h : GainOf column i gain) (hperm : column'.Perm column)
    (hdistinct : column.Nodup) {x : α} {i' : ℕ} (hx : column[i]? = some x)
    (hx' : column'[i']? = some x) : GainOf column' i' gain := by
  obtain ⟨p, y, hplace, hgain⟩ := h
  have hy : column[i]? = some y := mem_valueOrder.mp (List.mem_of_getElem? hplace)
  obtain rfl := Option.some.inj (hx.symm.trans hy)
  have hmem : (x, i') ∈ valueOrder column' := mem_valueOrder.mpr hx'
  obtain ⟨p', hplace'⟩ := List.getElem?_of_mem hmem
  have hsorted : (valueOrder column').map Prod.fst = (valueOrder column).map Prod.fst := by
    rw [map_fst_valueOrder, map_fst_valueOrder, Gauge.orders.mergeSort_eq_of_perm hperm]
  have hnodup : ((valueOrder column).map Prod.fst).Nodup := by
    rw [map_fst_valueOrder]
    exact (List.mergeSort_perm column _).nodup_iff.mpr hdistinct
  -- the value stands at one place among the sorted ones
  have hsame : p = p' := by
    have hvalue : ((valueOrder column).map Prod.fst)[p]? = some x := by
      rw [List.getElem?_map, hplace]
      rfl
    have hvalue' : ((valueOrder column).map Prod.fst)[p']? = some x := by
      rw [← hsorted, List.getElem?_map, hplace']
      rfl
    have hlt := (List.getElem?_eq_some_iff.mp hvalue).1
    exact (List.getElem?_inj hlt hnodup).mp (hvalue.trans hvalue'.symm)
  rw [← hsorted, hsame] at hgain
  exact ⟨p', x, hplace', hgain⟩

end Columns

section Sums

variable {α : Type} [Gauge α] {column : List α} {n j : ℕ} {far : List ℕ} {ds : Array α}

/-- The distances after so many columns: infinite at some places at most, and else as large as so
many gains can be. -/
def Spread (j : ℕ) (far : List ℕ) (ds : Array α) : Prop :=
  ∀ (i : ℕ) d, ds[i]? = some d → d = Scalar.infinity ∧ i ∈ far ∨ Near j d

theorem Spread.finite_or_infinite (h : Spread j far ds) {i : ℕ} {d : α} (hd : ds[i]? = some d) :
    Scalar.isFinite d = true ∨ d = Scalar.infinity :=
  (h i d hd).elim (fun hfar => Or.inr hfar.1) fun hnear => Or.inl hnear.1

/-- A member with an infinite gain is infinitely far out. -/
theorem Spread.infinite_of_gain (h : Spread j far ds) (hlength : 2 ≤ column.length)
    (hsize : ds.size = column.length) {i : ℕ} (hi : i < column.length)
    (hgain : GainOf column i Scalar.infinity) :
    (addGains ds column)[i]? = some Scalar.infinity := by
  have hd : ds[i]? = some _ := Array.getElem?_eq_getElem (hsize ▸ hi)
  rw [hgain.getElem?_addGains hlength, hd, Option.map_some,
    Gauge.add_infinity (h.finite_or_infinite hd)]

/-- One column makes two more distances infinite, that of a lowest member and that of a highest one,
and leaves infinite ones infinite. -/
theorem Spread.addGains (h : Spread j far ds) (hlength : 2 ≤ column.length)
    (hfinite : ∀ x ∈ column, Scalar.isFinite x = true) (hsize : ds.size = column.length)
    (hbound : j + 1 < 2 ^ 53) :
    ∃ first last : ℕ, Spread (j + 1) (first :: last :: far) (PatchSearch.addGains ds column) ∧
      Extreme (· ≤ ·) column first ∧
      (PatchSearch.addGains ds column)[first]? = some Scalar.infinity ∧
      Extreme (· ≥ ·) column last ∧
      (PatchSearch.addGains ds column)[last]? = some Scalar.infinity ∧
      ∀ i : ℕ, ds[i]? = some Scalar.infinity →
        (PatchSearch.addGains ds column)[i]? = some Scalar.infinity := by
  obtain ⟨first, last, hfirst, hgainFirst, hlast, hgainLast, hcases⟩ :=
    gainOf_cases hlength hfinite
  have hplace {i : ℕ} (hi : i < column.length) : ∃ d gain, ds[i]? = some d ∧
      (PatchSearch.addGains ds column)[i]? = some (d + gain) ∧
      (gain = Scalar.infinity ∧ (i = first ∨ i = last) ∨ Near 1 gain) := by
    obtain ⟨gain, hgain⟩ := exists_gainOf hlength hi
    have hd : ds[i]? = some _ := Array.getElem?_eq_getElem (hsize ▸ hi)
    refine ⟨_, gain, hd, ?_, hcases i gain hgain⟩
    rw [hgain.getElem?_addGains hlength, hd, Option.map_some]
  have hlt {R : ℚ → ℚ → Prop} {i : ℕ} (h : Extreme R column i) : i < column.length := by
    obtain ⟨x, hx, -⟩ := h
    exact (List.getElem?_eq_some_iff.mp hx).1
  refine ⟨first, last, fun i d hd => ?_, hfirst,
    h.infinite_of_gain hlength hsize (hlt hfirst) hgainFirst, hlast,
    h.infinite_of_gain hlength hsize (hlt hlast) hgainLast, fun i hi => ?_⟩
  · have hi : i < column.length := by
      rw [← hsize, ← size_addGains ds column]
      exact (Array.getElem?_eq_some_iff.mp hd).1
    obtain ⟨d₀, gain, hd₀, hresult, hgain⟩ := hplace hi
    obtain rfl := Option.some.inj (hd.symm.trans hresult)
    rcases hgain with ⟨rfl, hends⟩ | hgain
    · refine Or.inl ⟨Gauge.add_infinity (h.finite_or_infinite hd₀), ?_⟩
      rcases hends with rfl | rfl <;> simp
    · rcases h i d₀ hd₀ with ⟨rfl, hfar⟩ | hnear
      · exact Or.inl ⟨Gauge.infinity_add (Or.inl hgain.1), by simp [hfar]⟩
      · exact Or.inr (hnear.add hgain hbound)
  · have hi' : i < column.length := hsize ▸ (Array.getElem?_eq_some_iff.mp hi).1
    obtain ⟨d₀, gain, hd₀, hresult, hgain⟩ := hplace hi'
    obtain rfl := Option.some.inj (hi.symm.trans hd₀)
    rw [hresult, Gauge.infinity_add]
    rcases hgain with ⟨rfl, -⟩ | hgain
    · exact Or.inr rfl
    · exact Or.inl hgain.1

/-- All columns together make at most two distances each infinite, and for each of them that of a
lowest member and that of a highest one. -/
theorem Spread.foldl_addGains {columns : List (List α)} (hn : 2 ≤ n)
    (hcolumns : ∀ column ∈ columns, column.length = n ∧ ∀ x ∈ column, Scalar.isFinite x = true)
    (h : Spread j far ds) (hfar : far.length ≤ 2 * j) (hsize : ds.size = n)
    (hbound : j + columns.length < 2 ^ 53) :
    (∃ far' : List ℕ, far'.length ≤ 2 * (j + columns.length) ∧
      Spread (j + columns.length) far' (columns.foldl PatchSearch.addGains ds)) ∧
    (∀ i : ℕ, ds[i]? = some Scalar.infinity →
      (columns.foldl PatchSearch.addGains ds)[i]? = some Scalar.infinity) ∧
    ∀ column ∈ columns,
      (∃ i : ℕ, Extreme (· ≤ ·) column i ∧
        (columns.foldl PatchSearch.addGains ds)[i]? = some Scalar.infinity) ∧
      ∃ i : ℕ, Extreme (· ≥ ·) column i ∧
        (columns.foldl PatchSearch.addGains ds)[i]? = some Scalar.infinity := by
  induction columns generalizing ds j far with
  | nil => exact ⟨⟨far, hfar, h⟩, fun _ hi => hi, nofun⟩
  | cons column columns ih =>
    rw [List.length_cons] at hbound ⊢
    obtain ⟨hlength, hfinite⟩ := hcolumns column (by simp)
    obtain ⟨first, last, hspread, hlowest, hfirst, hhighest, hlast, hkept⟩ :=
      h.addGains (hlength ▸ hn) hfinite (hsize.trans hlength.symm) (by omega)
    obtain ⟨hfew, hrest, hends⟩ := ih (fun c hc => hcolumns c (List.mem_cons_of_mem _ hc)) hspread
      (by simp only [List.length_cons]; omega) ((size_addGains ds column).trans hsize) (by omega)
    rw [List.foldl_cons, show j + (columns.length + 1) = j + 1 + columns.length by omega]
    refine ⟨hfew, fun i hi => hrest i (hkept i hi), fun c hc => ?_⟩
    rcases List.mem_cons.mp hc with rfl | hc
    · exact ⟨⟨first, hlowest, hrest first hfirst⟩, last, hhighest, hrest last hlast⟩
    · exact hends c hc

/-- Columns in which two members have the same gains leave the two at the same distance. -/
theorem getElem?_foldl_addGains_congr {ks : List ℕ} {columns columns' : ℕ → List α} {i i' : ℕ}
    (h : ∀ k ∈ ks, 2 ≤ (columns k).length ∧ 2 ≤ (columns' k).length ∧
      ∃ gain, GainOf (columns k) i gain ∧ GainOf (columns' k) i' gain)
    {ds ds' : Array α} (hd : ds'[i']? = ds[i]?) :
    ((ks.map columns').foldl addGains ds')[i']? = ((ks.map columns).foldl addGains ds)[i]? := by
  induction ks generalizing ds ds' with
  | nil => exact hd
  | cons k ks ih =>
    rw [List.map_cons, List.map_cons, List.foldl_cons, List.foldl_cons]
    obtain ⟨hlength, hlength', gain, hgain, hgain'⟩ := h k (by simp)
    apply ih fun k hk => h k (List.mem_cons_of_mem _ hk)
    rw [hgain.getElem?_addGains hlength, hgain'.getElem?_addGains hlength', hd]

end Sums

section Fronts

/-- All values in use are numbers and none is infinite. -/
def Objectives.Finite (v : Objectives Float) : Prop :=
  ∀ x ∈ v.toList, x.isFinite = true

variable {α : Type} [Gauge α] {vs : List (Objectives α)} {front front' : List ℕ} {m k : ℕ}

/-- The vectors of a front have so many finite values each. -/
def Measured (m : ℕ) (vs : List (Objectives α)) (front : List ℕ) : Prop :=
  ∀ i ∈ front, ∃ v, vs[i]? = some v ∧ v.size = m ∧ ∀ x ∈ v.toList, Scalar.isFinite x = true

/-- The value of a vector in one objective, if both are there. -/
def valueAt (vs : List (Objectives α)) (k i : ℕ) : Option α :=
  vs[i]?.bind fun v => v.toList[k]?

/-- A column of a front. -/
def frontColumn (vs : List (Objectives α)) (front : List ℕ) (k : ℕ) : List α :=
  front.map fun i => (valueAt vs k i).getD (Arithmetic.ofNat 0)

theorem Measured.valueAt (h : Measured m vs front) {i : ℕ} (hk : k < m) (hi : i ∈ front) :
    ∃ x, PatchSearch.valueAt vs k i = some x ∧ Scalar.isFinite x = true := by
  obtain ⟨v, hv, hsize, hfinite⟩ := h i hi
  have hlt : k < v.toList.length := by rwa [v.length_toList, hsize]
  exact ⟨v.toList[k], by simp [PatchSearch.valueAt, hv, hlt], hfinite _ (List.getElem_mem hlt)⟩

theorem Measured.frontColumn (h : Measured m vs front) (hk : k < m) :
    (PatchSearch.frontColumn vs front k).length = front.length ∧
      ∀ x ∈ PatchSearch.frontColumn vs front k, Scalar.isFinite x = true := by
  refine ⟨List.length_map _, fun x hx => ?_⟩
  obtain ⟨i, hi, rfl⟩ := List.mem_map.mp hx
  obtain ⟨x, hx, hfinite⟩ := h.valueAt hk hi
  rw [hx]
  exact hfinite

theorem Measured.perm (h : Measured m vs front) (hperm : front'.Perm front) :
    Measured m vs front' :=
  fun i hi => h i (hperm.mem_iff.mp hi)

/-- There are no more than three objectives. -/
theorem Measured.le_three (h : Measured m vs front) (hne : front ≠ []) : m ≤ 3 := by
  obtain ⟨i, hi⟩ := List.exists_mem_of_ne_nil front hne
  obtain ⟨v, -, rfl, -⟩ := h i hi
  exact v.size_le

/-- A member with an extreme value of the front is infinitely far out. -/
def FarOut (R : ℚ → ℚ → Prop) (vs : List (Objectives α)) (front : List ℕ) (k : ℕ) (ds : List α) :
    Prop :=
  ∃ (j i : ℕ) (x : α), front[j]? = some i ∧ ds[j]? = some Scalar.infinity ∧
    valueAt vs k i = some x ∧
    ∀ i' ∈ front, ∀ y, valueAt vs k i' = some y → R (Gauge.measure x) (Gauge.measure y)

/-- An extreme member of a column is one with an extreme value of the front. -/
theorem Measured.farOut (h : Measured m vs front) {R : ℚ → ℚ → Prop} {j : ℕ} {ds : List α}
    (hk : k < m) (hextreme : Extreme R (PatchSearch.frontColumn vs front k) j)
    (hd : j < front.length → ds[j]? = some Scalar.infinity) : FarOut R vs front k ds := by
  obtain ⟨x, hx, hR⟩ := hextreme
  rw [PatchSearch.frontColumn, List.getElem?_map, Option.map_eq_some_iff] at hx
  obtain ⟨i, hi, rfl⟩ := hx
  obtain ⟨x, hx, -⟩ := h.valueAt hk (List.mem_of_getElem? hi)
  rw [hx, Option.getD_some] at hR
  refine ⟨j, i, x, hi, hd (List.getElem?_eq_some_iff.mp hi).1, hx, fun i' hi' y hy => ?_⟩
  refine hR y (List.mem_map.mpr ⟨i', hi', ?_⟩)
  rw [hy]
  rfl

theorem objectiveColumn_eq {members : List (Objectives α)} {column : List α}
    (hmembers : front.mapM (itemAt vs) = .ok members)
    (hcolumn : objectiveColumn members k = .ok column) :
    column = PatchSearch.frontColumn vs front k := by
  obtain ⟨hlength, hitems⟩ := getElem?_of_mapM hmembers
  obtain ⟨hlength', hvalues⟩ := getElem?_of_mapM hcolumn
  refine List.ext_getElem (by rw [hlength', hlength, frontColumn, List.length_map]) ?_
  intro j hj _
  have hfront := List.getElem?_eq_getElem (l := front) (i := j) (by omega)
  obtain ⟨v, hv, hitem⟩ := hitems j _ hfront
  obtain ⟨x, hx, hvalue⟩ := hvalues j v hv
  have hx' : PatchSearch.valueAt vs k front[j] = some x := by
    rw [valueAt, getElem?_of_itemAt hitem]
    exact getElem?_of_itemAt hvalue
  rw [(List.getElem?_eq_some_iff.mp hx).2]
  simp [frontColumn, hx']

/-- The columns that crowding distances are computed from. -/
theorem columns_eq {members : List (Objectives α)} {columns : List (List α)}
    (hmembers : front.mapM (itemAt vs) = .ok members)
    (hcolumns : (List.range m).mapM (objectiveColumn members) = .ok columns) :
    columns = (List.range m).map (PatchSearch.frontColumn vs front) := by
  obtain ⟨hlength, hvalues⟩ := getElem?_of_mapM hcolumns
  refine List.ext_getElem (by rw [hlength, List.length_map]) ?_
  intro k hk _
  rw [hlength, List.length_range] at hk
  obtain ⟨column, hcolumn, heq⟩ := hvalues k k (by simp [hk])
  rw [(List.getElem?_eq_some_iff.mp hcolumn).2, objectiveColumn_eq hmembers heq]
  simp

/-- What the gains of all columns of a front add up to. -/
def summedGains (m : ℕ) (vs : List (Objectives α)) (front : List ℕ) : Array α :=
  ((List.range m).map (frontColumn vs front)).foldl addGains
    (front.map fun _ => (Arithmetic.ofNat 0 : α)).toArray

/-- The distances of a front of more than two members are its summed gains. -/
theorem Measured.crowding_eq (h : Measured m vs front) (hlarge : 2 < front.length) :
    crowding front vs = .ok (summedGains m vs front).toList := by
  have hfirst : Yields (itemAt vs (front.headD 0)) fun v => v.size = m := by
    have hhead : front.headD 0 ∈ front := by
      cases front with
      | nil => simp at hlarge
      | cons p front => simp
    obtain ⟨v, hv, hsize, -⟩ := h _ hhead
    exact ⟨v, itemAt_eq_ok_iff.mpr hv, hsize⟩
  obtain ⟨first, hfirst, rfl⟩ := hfirst
  have hmembers : Yields (front.mapM (itemAt vs)) fun members =>
      ∀ v ∈ members, v.size = first.size := by
    refine (Yields.mapM fun i hi => ?_).mono fun members => And.right
    obtain ⟨v, hv, hsize, -⟩ := h i hi
    exact ⟨v, itemAt_eq_ok_iff.mpr hv, hsize⟩
  obtain ⟨members, hmembers, hsizes⟩ := hmembers
  have hcolumns : Yields ((List.range first.size).mapM (objectiveColumn members))
      fun _ => True := by
    refine (Yields.mapM (Q := fun _ => True) fun k hk => ?_).mono fun _ _ => trivial
    refine (Yields.mapM (Q := fun _ => True) fun v hv => ?_).mono fun _ _ => trivial
    have hlt : k < v.toList.length := by
      rw [v.length_toList, hsizes v hv]
      exact List.mem_range.mp hk
    exact ⟨_, itemAt_of_lt _ _ hlt, trivial⟩
  obtain ⟨columns, hcolumns, -⟩ := hcolumns
  unfold crowding
  rw [if_neg (by omega)]
  simp only [hfirst, bind, Except.bind]
  by_cases hnone : first.size = 0
  · rw [if_pos hnone, hnone, summedGains, List.range_zero, List.map_nil, List.foldl_nil]
    rfl
  · simp only [if_neg hnone, hmembers, hcolumns]
    rw [columns_eq hmembers hcolumns]
    rfl

/-- Who is infinitely far out in a front: at most two members for each objective, and in each
objective a member with the smallest value and one with the largest. -/
structure Extremes (m : ℕ) (vs : List (Objectives α)) (front : List ℕ) (ds : List α) : Prop where
  few : ∃ far : List ℕ, far.length ≤ 2 * m ∧
    ∀ (j : ℕ) d, ds[j]? = some d → d = Scalar.infinity ∧ j ∈ far ∨ Near m d
  lowest : front ≠ [] → ∀ k < m, FarOut (· ≤ ·) vs front k ds
  highest : front ≠ [] → ∀ k < m, FarOut (· ≥ ·) vs front k ds

/-- All members of a front of one or two are infinitely far out. -/
theorem Measured.extremes_of_small (h : Measured m vs front) (hm : 0 < m)
    (hsmall : front.length ≤ 2) : Extremes m vs front (front.map fun _ => Scalar.infinity) := by
  have hends (hne : front ≠ []) {k : ℕ} (hk : k < m) :
      (∃ i, Extreme (· ≤ ·) (PatchSearch.frontColumn vs front k) i) ∧
        ∃ i, Extreme (· ≥ ·) (PatchSearch.frontColumn vs front k) i := by
    obtain ⟨hlength, hfinite⟩ := h.frontColumn hk
    apply exists_extremes hfinite
    rw [← List.length_pos_iff, hlength]
    exact List.length_pos_iff.mpr hne
  have hall {j : ℕ} (hj : j < front.length) :
      (front.map fun _ => (Scalar.infinity : α))[j]? = some Scalar.infinity := by
    rw [List.getElem?_map, List.getElem?_eq_getElem hj]
    rfl
  refine ⟨⟨List.range front.length, by rw [List.length_range]; omega, fun j d hd => ?_⟩,
    fun hne k hk => ?_, fun hne k hk => ?_⟩
  · have hlt := (List.getElem?_eq_some_iff.mp hd).1
    rw [List.length_map] at hlt
    rw [hall hlt] at hd
    exact Or.inl ⟨(Option.some.inj hd).symm, List.mem_range.mpr hlt⟩
  · obtain ⟨j, hj⟩ := (hends hne hk).1
    exact h.farOut hk hj hall
  · obtain ⟨j, hj⟩ := (hends hne hk).2
    exact h.farOut hk hj hall

/-- The gains of all columns leave few members infinitely far out. -/
theorem Measured.extremes_of_columns (h : Measured m vs front) (hlarge : 2 ≤ front.length) :
    Extremes m vs front (summedGains m vs front).toList := by
  have hstart : Spread 0 [] (front.map fun _ => (Arithmetic.ofNat 0 : α)).toArray := by
    intro i d hd
    rw [List.getElem?_toArray, List.getElem?_map, Option.map_eq_some_iff] at hd
    obtain ⟨-, -, rfl⟩ := hd
    exact Or.inr near_zero
  have hcolumns : ∀ column ∈ (List.range m).map (PatchSearch.frontColumn vs front),
      column.length = front.length ∧ ∀ x ∈ column, Scalar.isFinite x = true := by
    intro column hcolumn
    obtain ⟨k, hk, rfl⟩ := List.mem_map.mp hcolumn
    exact h.frontColumn (List.mem_range.mp hk)
  have hthree := h.le_three (List.ne_nil_of_length_pos (by omega))
  obtain ⟨⟨far, hfar, hspread⟩, -, hends⟩ :=
    hstart.foldl_addGains hlarge hcolumns (by simp) (by simp) (by simp; omega)
  rw [List.length_map, List.length_range, zero_add] at hfar hspread
  refine ⟨⟨far, hfar, fun j d hd => ?_⟩, fun _ k hk => ?_, fun _ k hk => ?_⟩
  · rw [Array.getElem?_toList] at hd
    exact hspread j d hd
  · obtain ⟨j, hj, hd⟩ := (hends _ (List.mem_map_of_mem (List.mem_range.mpr hk))).1
    exact h.farOut hk hj fun _ => by rwa [Array.getElem?_toList]
  · obtain ⟨j, hj, hd⟩ := (hends _ (List.mem_map_of_mem (List.mem_range.mpr hk))).2
    exact h.farOut hk hj fun _ => by rwa [Array.getElem?_toList]

theorem crowding_extremes {ds : List α} (h : crowding front vs = .ok ds)
    (hmeasured : Measured m vs front) (hm : 0 < m) : Extremes m vs front ds := by
  by_cases hsmall : front.length ≤ 2
  · rw [crowding, if_pos hsmall] at h
    cases h
    exact hmeasured.extremes_of_small hm hsmall
  · rw [hmeasured.crowding_eq (by omega)] at h
    cases h
    exact hmeasured.extremes_of_columns (by omega)

/-- No two members of a front have the same value in an objective. -/
def Untied (m : ℕ) (vs : List (Objectives α)) (front : List ℕ) : Prop :=
  ∀ k < m, ((frontColumn vs front k).map Gauge.measure).Nodup

/-- In a front without ties every member keeps its distance when the front is rearranged. -/
theorem Measured.summedGains_perm (h : Measured m vs front) (huntied : Untied m vs front)
    (hlarge : 2 ≤ front.length) (hperm : front'.Perm front) {j j' i : ℕ}
    (hj : front[j]? = some i) (hj' : front'[j']? = some i) :
    (summedGains m vs front')[j']? = (summedGains m vs front)[j]? := by
  have hstart : (front'.map fun _ => (Arithmetic.ofNat 0 : α)).toArray[j']? =
      (front.map fun _ => (Arithmetic.ofNat 0 : α)).toArray[j]? := by
    rw [List.getElem?_toArray, List.getElem?_map, List.getElem?_toArray, List.getElem?_map, hj, hj']
  refine getElem?_foldl_addGains_congr (fun k hk => ?_) hstart
  have hk := List.mem_range.mp hk
  have hlength := (h.frontColumn hk).1
  have hlength' := ((h.perm hperm).frontColumn hk).1
  have hsame := hperm.length_eq
  have hcolumn {front : List ℕ} {j : ℕ} (hj : front[j]? = some i) :
      (PatchSearch.frontColumn vs front k)[j]? =
        some ((PatchSearch.valueAt vs k i).getD (Arithmetic.ofNat 0)) := by
    rw [PatchSearch.frontColumn, List.getElem?_map, hj]
    rfl
  obtain ⟨gain, hgain⟩ :=
    exists_gainOf (by omega) (List.getElem?_eq_some_iff.mp (hcolumn hj)).1
  refine ⟨by omega, by omega, gain, hgain, ?_⟩
  exact hgain.of_perm (hperm.map _) (huntied k hk).of_map (hcolumn hj) (hcolumn hj')

/-- A property that holds at few places holds of few members. -/
theorem countP_le_of_places {β : Type} {P : β → Bool} {xs : List β} (places : List ℕ)
    (h : ∀ (i : ℕ) x, xs[i]? = some x → P x = true → i ∈ places) :
    xs.countP P ≤ places.length := by
  have hnodup : ((xs.zipIdx.filter fun p => P p.1).map Prod.snd).Nodup := by
    refine List.Nodup.sublist (List.filter_sublist.map _) ?_
    rw [List.zipIdx_map_snd]
    exact List.nodup_range'
  have hsubset : (xs.zipIdx.filter fun p => P p.1).map Prod.snd ⊆ places := by
    intro i hi
    obtain ⟨⟨x, i⟩, hmem, rfl⟩ := List.mem_map.mp hi
    obtain ⟨hmem, hP⟩ := List.mem_filter.mp hmem
    exact h i x (List.mem_zipIdx_iff_getElem?.mp hmem) hP
  calc xs.countP P
      = (xs.zipIdx.map Prod.fst).countP P := by rw [List.zipIdx_map_fst]
    _ = ((xs.zipIdx.filter fun p => P p.1).map Prod.snd).length := by
      rw [List.countP_map, List.countP_eq_length_filter, List.length_map]
      rfl
    _ ≤ places.length := (List.subperm_of_subset hnodup hsubset).length_le

/-- Crowding distances in a front of more than two members with finite values, in floats or without
rounding: every member has one, infinite or a number from zero to the number of objectives; in every
objective a member with the smallest value and one with the largest are infinitely far out, and no
more than two members for each objective are; and in a front without ties every member keeps its
distance, whatever the order of the front. -/
theorem crowding_sound (hlarge : 2 < front.length) (h : Measured m vs front) :
    ∃ ds : List α, crowding front vs = .ok ds ∧ ds.length = front.length ∧
      (∀ d ∈ ds, d = Scalar.infinity ∨ Near m d) ∧
      (∀ k < m, FarOut (· ≤ ·) vs front k ds ∧ FarOut (· ≥ ·) vs front k ds) ∧
      ds.countP (fun d => !Scalar.isFinite d) ≤ 2 * m ∧
      (Untied m vs front → ∀ front' : List ℕ, front'.Perm front →
        ∃ ds', crowding front' vs = .ok ds' ∧ ∀ j j' i : ℕ, front[j]? = some i →
          front'[j']? = some i → ds'[j']? = ds[j]?) := by
  have hne : front ≠ [] := List.ne_nil_of_length_pos (by omega)
  have hextremes := h.extremes_of_columns (by omega)
  obtain ⟨far, hfar, hfew⟩ := hextremes.few
  refine ⟨_, h.crowding_eq hlarge, length_crowding (h.crowding_eq hlarge), fun d hd => ?_,
    fun k hk => ⟨hextremes.lowest hne k hk, hextremes.highest hne k hk⟩, ?_,
    fun huntied front' hperm => ?_⟩
  · obtain ⟨j, hj⟩ := List.getElem?_of_mem hd
    exact (hfew j d hj).imp And.left id
  · refine (countP_le_of_places far fun j d hd hinfinite => ?_).trans hfar
    rcases hfew j d hd with ⟨-, hmem⟩ | hnear
    · exact hmem
    · rw [hnear.1] at hinfinite
      cases hinfinite
  · refine ⟨_, (h.perm hperm).crowding_eq (hperm.length_eq ▸ hlarge), fun j j' i hj hj' => ?_⟩
    rw [Array.getElem?_toList, Array.getElem?_toList]
    exact h.summedGains_perm huntied (by omega) hperm hj hj'

end Fronts

/-- Vectors of which none dominates another: what is larger first is smaller second. -/
def staircase : List (Objectives ExtendedRational) :=
  [(1, 4), (2, 3), (3, 1), (4, 0)].map fun (p, q) => Objectives.ofList [.number p, .number q]

/-- The four members keep their distances when the front is rearranged. -/
theorem crowding_sound_of_staircase :
    Measured 2 staircase [0, 1, 2, 3] ∧ Untied 2 staircase [0, 1, 2, 3] ∧
      ∃ ds ds' : List ExtendedRational, crowding [0, 1, 2, 3] staircase = .ok ds ∧
        ds.countP (fun d => !Scalar.isFinite d) ≤ 4 ∧
        crowding [3, 1, 0, 2] staircase = .ok ds' ∧ ds'[0]? = ds[3]? ∧ ds'[1]? = ds[1]? ∧
          ds'[2]? = ds[0]? ∧ ds'[3]? = ds[2]? := by
  have hmeasured : Measured 2 staircase [0, 1, 2, 3] := by
    intro i hi
    simp only [List.mem_cons, List.not_mem_nil, or_false] at hi
    rcases hi with rfl | rfl | rfl | rfl <;> exact ⟨_, rfl, rfl, by decide⟩
  have huntied : Untied 2 staircase [0, 1, 2, 3] := by
    unfold Untied
    decide +kernel
  obtain ⟨ds, hds, -, -, -, hfew, hperm⟩ := crowding_sound (by decide) hmeasured
  obtain ⟨ds', hds', hsame⟩ := hperm huntied [3, 1, 0, 2] (by decide)
  exact ⟨hmeasured, huntied, ds, ds', hds, hfew, hds', hsame 3 0 3 rfl rfl, hsame 1 1 1 rfl rfl,
    hsame 0 2 0 rfl rfl, hsame 2 3 2 rfl rfl⟩

end PatchSearch
