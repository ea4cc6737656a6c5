import PatchSearch.Proofs.Search.Front

/-!
The extremes of a selection. For every candidate of a pool there is one in the first front that is
nowhere worse, so the smallest value of an objective is found in the first front, with a member
that is infinitely far out. At most two members for each objective are so far out. When there is
room for that many, all of them survive, and with them the smallest values of the pool. With one
objective all members of the first front have the smallest value, so room for one of them does.
-/
namespace PatchSearch

open FloatOrder

section Least

/-- The smallest value at a place of vectors. -/
def LeastAt (k : ℕ) (vectors : List (List Float)) (x : Float) : Prop :=
  (∃ v ∈ vectors, v[k]? = some x) ∧ ∀ v ∈ vectors, ∀ y, v[k]? = some y → x ≤ y

/-- The objective vectors of candidates. -/
def vectorsOf (cs : List (Candidate Float)) : List (List Float) :=
  cs.map (·.objectives.toList)

variable {k : ℕ} {x y : Float} {cs ds : List (Candidate Float)}

theorem LeastAt.intro {c : Candidate Float} (hc : c ∈ cs) (hx : c.objectives.toList[k]? = some x)
    (hle : ∀ d ∈ cs, ∀ y, d.objectives.toList[k]? = some y → x ≤ y) :
    LeastAt k (vectorsOf cs) x := by
  refine ⟨⟨_, List.mem_map_of_mem hc, hx⟩, fun v hv => ?_⟩
  obtain ⟨d, hd, rfl⟩ := List.mem_map.mp hv
  exact hle d hd

theorem LeastAt.exists_mem (h : LeastAt k (vectorsOf cs) x) :
    ∃ c ∈ cs, c.objectives.toList[k]? = some x := by
  obtain ⟨v, hv, hx⟩ := h.1
  obtain ⟨c, hc, rfl⟩ := List.mem_map.mp hv
  exact ⟨c, hc, hx⟩

theorem LeastAt.le (h : LeastAt k (vectorsOf cs) x) {c : Candidate Float} (hc : c ∈ cs)
    (hy : c.objectives.toList[k]? = some y) : x ≤ y :=
  h.2 _ (List.mem_map_of_mem hc) y hy

/-- The smallest value of candidates is that of those among them that have it. -/
theorem LeastAt.subset (h : LeastAt k (vectorsOf cs) x) (hsubset : ds ⊆ cs)
    {d : Candidate Float} (hd : d ∈ ds) (hx : d.objectives.toList[k]? = some x) :
    LeastAt k (vectorsOf ds) x :=
  .intro hd hx fun _ hb _ hy => h.le (hsubset hb) hy

end Least

section Pools

variable {pool cs : List (Candidate Float)} {m k room : ℕ}

/-- Candidates with so many values each, all of them finite. -/
def Valued (m : ℕ) (cs : List (Candidate Float)) : Prop :=
  ∀ c ∈ cs, c.objectives.size = m ∧ c.objectives.Finite

theorem Valued.exists_value (h : Valued m cs) {c : Candidate Float} (hc : c ∈ cs) (hk : k < m) :
    ∃ x, c.objectives.toList[k]? = some x := by
  rw [← (h c hc).1, ← Objectives.length_toList] at hk
  exact ⟨_, List.getElem?_eq_getElem hk⟩

theorem Valued.isFinite (h : Valued m cs) {c : Candidate Float} (hc : c ∈ cs) {x : Float}
    (hx : c.objectives.toList[k]? = some x) : x.isFinite = true :=
  (h c hc).2 x (List.mem_of_getElem? hx)

theorem objectives_ranked (h : ranked pool = .ok cs) :
    cs.map (·.objectives) = pool.map (·.objectives) := by
  have hobjectives (xs : List (Candidate Float)) :
      xs.map (·.objectives) = (xs.map Candidate.unranked).map (·.objectives) := by
    rw [List.map_map]
    rfl
  rw [hobjectives cs, hobjectives pool, ranked_unranked h]

theorem vectorsOf_ranked (h : ranked pool = .ok cs) : vectorsOf cs = vectorsOf pool := by
  have hmap (xs : List (Candidate Float)) :
      vectorsOf xs = (xs.map (·.objectives)).map Objectives.toList := by
    rw [List.map_map]
    rfl
  rw [hmap, hmap, objectives_ranked h]

theorem Valued.ranked (hvalued : Valued m pool) (h : ranked pool = .ok cs) : Valued m cs := by
  intro c hc
  have hmem : c.objectives ∈ cs.map (·.objectives) := List.mem_map_of_mem hc
  rw [objectives_ranked h, List.mem_map] at hmem
  obtain ⟨d, hd, heq⟩ := hmem
  exact heq ▸ hvalued d hd

/-- For every member of a ranked pool there is one in the first front that is nowhere worse. -/
theorem RankedByFront.exists_first (h : RankedByFront cs) (hvalued : Valued m cs)
    {c : Candidate Float} (hc : c ∈ cs) : ∃ d ∈ cs, d.rank = some 0 ∧
      ∀ (k : ℕ) x y, d.objectives.toList[k]? = some x → c.objectives.toList[k]? = some y →
        x ≤ y := by
  obtain ⟨r, hr⟩ := h.ranked c hc
  induction r generalizing c with
  | zero =>
    refine ⟨c, hc, hr, fun k x y hx hy => ?_⟩
    obtain rfl := Option.some.inj (hx.symm.trans hy)
    exact self_le x (isNaN_of_isFinite x (hvalued.isFinite hc hx))
  | succ r ih =>
    obtain ⟨b, hb, hdominates, hrank⟩ := h.just c hc r hr
    obtain ⟨d, hd, hfirst, hle⟩ := ih hb hrank
    refine ⟨d, hd, hfirst, fun k x y hx hy => ?_⟩
    have hk : k < m := by
      have := (List.getElem?_eq_some_iff.mp hy).1
      rwa [Objectives.length_toList, (hvalued c hc).1] at this
    obtain ⟨z, hz⟩ := hvalued.exists_value hb hk
    exact le_trans (hle k x z hx hz) ((Objectives.dominates_iff.mp hdominates).1 k z y hz hy)

/-- With one objective all members of the first front have the smallest value. -/
theorem RankedByFront.leastAt_of_first (h : RankedByFront cs) (hvalued : Valued 1 cs)
    {c : Candidate Float} (hc : c ∈ cs) (hfirst : c.rank = some 0) {x : Float}
    (hx : c.objectives.toList[0]? = some x) : LeastAt 0 (vectorsOf cs) x := by
  refine .intro hc hx fun d hd y hy => ?_
  obtain ⟨e, he, -, hle⟩ := h.exists_first hvalued hd
  obtain ⟨z, hz⟩ := hvalued.exists_value he Nat.zero_lt_one
  have hxz : x ≤ z := by
    refine le_of_not_lt (isNaN_of_isFinite z (hvalued.isFinite he hz))
      (isNaN_of_isFinite x (hvalued.isFinite hc hx)) fun hlt => ?_
    have hdominates : e.objectives.dominates c.objectives = true := by
      refine Objectives.dominates_iff.mpr ⟨fun k a b ha hb => ?_, 0, z, x, hz, hx, hlt⟩
      have hk : k = 0 := by
        have := (List.getElem?_eq_some_iff.mp ha).1
        rw [Objectives.length_toList, (hvalued e he).1] at this
        omega
      obtain rfl := hk
      obtain rfl := Option.some.inj (ha.symm.trans hz)
      obtain rfl := Option.some.inj (hb.symm.trans hx)
      exact le_of_lt hlt
    rw [(h.rank_eq_zero_iff hc).mp hfirst e he] at hdominates
    cases hdominates
  exact le_trans hxz (hle 0 z y hz hy)

/-- What holds of everyone who stands before one of whom it holds: a candidate of whom it holds
survives, or it holds of all survivors, who then take all the room. -/
theorem mem_take_or_filled {P : Candidate Float → Prop}
    (hclosed : ∀ a ∈ cs, ∀ b ∈ cs, a.standing ≤ b.standing → P b → P a)
    {c : Candidate Float} (hc : c ∈ cs) (hP : P c) :
    let sorted := cs.mergeSort Candidate.survivesBefore
    c ∈ sorted.take room ∨
      c ∈ sorted.drop room ∧ (sorted.take room).length = room ∧ ∀ d ∈ sorted.take room, P d := by
  intro sorted
  have hmem : c ∈ sorted.take room ++ sorted.drop room := by
    rw [List.take_append_drop]
    exact List.mem_mergeSort.mpr hc
  refine (List.mem_append.mp hmem).imp id fun hdropped => ⟨hdropped, ?_, fun d hd => ?_⟩
  · have hpos := List.length_pos_of_mem hdropped
    rw [List.length_drop] at hpos
    rw [List.length_take]
    omega
  · have hsorted : sorted.Pairwise fun a b => a.standing ≤ b.standing := pairwise_survivesBefore cs
    rw [← List.take_append_drop room sorted] at hsorted
    exact hclosed d (List.mem_mergeSort.mp (List.mem_of_mem_take hd)) c hc
      ((List.pairwise_append.mp hsorted).2.2 d hd c hdropped) hP

/-- A selection with room for anyone keeps a member of the first front. -/
theorem RankedByFront.exists_first_kept (h : RankedByFront cs) (hroom : 0 < room)
    {c : Candidate Float} (hc : c ∈ cs) (hfirst : c.rank = some 0) :
    ∃ d ∈ (cs.mergeSort Candidate.survivesBefore).take room, d.rank = some 0 := by
  have hclosed : ∀ a ∈ cs, ∀ b ∈ cs, a.standing ≤ b.standing → b.rank = some 0 →
      a.rank = some 0 := by
    intro a ha b hb hle hzero
    obtain ⟨r, hr⟩ := h.ranked a ha
    rw [hr, Nat.le_zero.mp (rank_le_of_standing_le hle hr hzero)]
  obtain hkept | ⟨-, hfull, hall⟩ := mem_take_or_filled hclosed hc hfirst
  · exact ⟨c, hkept, hfirst⟩
  · obtain ⟨d, hd⟩ := List.exists_mem_of_length_pos (hfull ▸ hroom)
    exact ⟨d, hd, hall d hd⟩

end Pools

section Outermost

variable {pool cs : List (Candidate Float)} {m k room : ℕ} {front : List ℕ} {ds : List Float}

/-- The first front of a ranked pool, with the distances of its members. -/
structure FirstFront (cs : List (Candidate Float)) (front : List ℕ) (ds : List Float) : Prop where
  crowding : crowding front (cs.map (·.objectives)) = .ok ds
  rank_iff : ∀ (i : ℕ) c, cs[i]? = some c → (c.rank = some 0 ↔ i ∈ front)
  distance : ∀ (j i : ℕ) d, front[j]? = some i → ds[j]? = some d →
    ∃ c, cs[i]? = some c ∧ c.crowding = d

/-- A ranked pool with a member of rank zero has a first front. -/
theorem exists_firstFront (hsize : ∀ c ∈ pool, c.objectives.Uniform m)
    (h : ranked pool = .ok cs) {c : Candidate Float} (hc : c ∈ cs) (hfirst : c.rank = some 0) :
    ∃ front ds, FirstFront cs front ds ∧ front ≠ [] := by
  obtain ⟨fs, hlength, hlayers, hspec⟩ := ranked_spec hsize h
  have hplace {c : Candidate Float} {i k : ℕ} (hi : cs[i]? = some c) (hk : c.rank = some k) :
      InFront fs k i := by
    have hlt : i < pool.length := hlength ▸ (List.getElem?_eq_some_iff.mp hi).1
    obtain ⟨k', front, hf, hin⟩ := hlayers.exists_inFront hlt
    obtain ⟨j, hj⟩ := List.getElem?_of_mem hin
    obtain ⟨ds, x, d, -, -, hd, hc⟩ := hspec k' front j i hf hj
    obtain rfl := Option.some.inj (hi.symm.trans hc)
    cases hk
    exact ⟨front, hf, hin⟩
  obtain ⟨i, hi⟩ := List.getElem?_of_mem hc
  obtain ⟨front, hf, hin⟩ := hplace hi hfirst
  obtain ⟨j, hj⟩ := List.getElem?_of_mem hin
  obtain ⟨ds, x, d, hds, -⟩ := hspec 0 front j i hf hj
  refine ⟨front, ds, ⟨?_, fun i c hi => ⟨fun hzero => ?_, fun hin => ?_⟩, fun j i x hj hx => ?_⟩,
    List.ne_nil_of_mem hin⟩
  · rw [objectives_ranked h, hds]
  · obtain ⟨front', hf', hin⟩ := hplace hi hzero
    obtain rfl := Option.some.inj (hf.symm.trans hf')
    exact hin
  · obtain ⟨j, hj⟩ := List.getElem?_of_mem hin
    obtain ⟨-, x, d, -, -, -, hc⟩ := hspec 0 front j i hf hj
    obtain rfl := Option.some.inj (hi.symm.trans hc)
    rfl
  · obtain ⟨ds', x', d, hds', hx', -, hc⟩ := hspec 0 front j i hf hj
    obtain rfl := Except.ok.inj (hds.symm.trans hds')
    obtain rfl := Option.some.inj (hx.symm.trans hx')
    exact ⟨_, hc, rfl⟩

/-- A member of the first front has a distance, and it is the distance of its place. -/
theorem FirstFront.exists_distance (h : FirstFront cs front ds) {j i : ℕ}
    (hj : front[j]? = some i) : ∃ c, cs[i]? = some c ∧ ds[j]? = some c.crowding := by
  have hlt : j < ds.length := by
    rw [length_crowding h.crowding]
    exact (List.getElem?_eq_some_iff.mp hj).1
  have hd := List.getElem?_eq_getElem hlt
  obtain ⟨c, hc, hcrowding⟩ := h.distance j i _ hj hd
  exact ⟨c, hc, hcrowding ▸ hd⟩

theorem FirstFront.measured (h : FirstFront cs front ds) (hvalued : Valued m cs) :
    Measured m (cs.map (·.objectives)) front := by
  intro i hi
  obtain ⟨j, hj⟩ := List.getElem?_of_mem hi
  obtain ⟨c, hc, -⟩ := h.exists_distance hj
  exact ⟨c.objectives, by rw [List.getElem?_map, hc]; rfl, hvalued c (List.mem_of_getElem? hc)⟩

/-- In the first front and as far out as can be. -/
def Candidate.outermost (c : Candidate Float) : Bool :=
  c.rank == some 0 && Scalar.totalLE Scalar.infinity c.crowding

theorem Candidate.outermost_iff {c : Candidate Float} : c.outermost = true ↔
    c.rank = some 0 ∧ floatPlace Scalar.infinity ≤ floatPlace c.crowding := by
  rw [outermost, Bool.and_eq_true, beq_iff_eq, totalLE_iff]

theorem Near.not_infinity_le {d : Float} (h : Near m d) :
    ¬ floatPlace Scalar.infinity ≤ floatPlace d := by
  rw [floatPlace_infinity]
  exact not_le.mpr (floatPlace_lt h.1)

/-- At most two members for each objective are outermost. -/
theorem FirstFront.countP_le (h : FirstFront cs front ds) {far : List ℕ}
    (hfar : ∀ (j : ℕ) d, ds[j]? = some d → d = Scalar.infinity ∧ j ∈ far ∨ Near m d) :
    cs.countP Candidate.outermost ≤ far.length := by
  refine (countP_le_of_places (far.filterMap fun j => front[j]?) fun i c hc hout => ?_).trans
    (List.length_filterMap_le _ _)
  obtain ⟨hrank, hplace⟩ := Candidate.outermost_iff.mp hout
  obtain ⟨j, hj⟩ := List.getElem?_of_mem ((h.rank_iff i c hc).mp hrank)
  obtain ⟨c', hc', hd⟩ := h.exists_distance hj
  obtain rfl := Option.some.inj (hc.symm.trans hc')
  rcases hfar j _ hd with ⟨-, hmem⟩ | hnear
  · exact List.mem_filterMap.mpr ⟨j, hmem, hj⟩
  · exact absurd hplace hnear.not_infinity_le

/-- Who survives before an outermost candidate is outermost as well. -/
theorem outermost_of_standing_le {c d : Candidate Float} (hd : d.outermost = true)
    (hc : ∃ r, c.rank = some r) (h : c.standing ≤ d.standing) : c.outermost = true := by
  obtain ⟨r, hr⟩ := hc
  obtain ⟨hrank, hplace⟩ := Candidate.outermost_iff.mp hd
  obtain rfl : r = 0 := Nat.le_zero.mp (rank_le_of_standing_le h hr hrank)
  refine Candidate.outermost_iff.mpr ⟨hr, ?_⟩
  unfold Candidate.standing at h
  rw [hr, hrank, Prod.Lex.toLex_le_toLex] at h
  have hle := (h.resolve_left (lt_irrefl _)).2
  dsimp only at hle
  omega

/-- An outermost candidate of a pool with few of them survives. -/
theorem RankedByFront.mem_take_of_outermost (h : RankedByFront cs)
    (hcount : cs.countP Candidate.outermost ≤ room) {c : Candidate Float} (hc : c ∈ cs)
    (hout : c.outermost = true) : c ∈ (cs.mergeSort Candidate.survivesBefore).take room := by
  have hclosed : ∀ a ∈ cs, ∀ b ∈ cs, a.standing ≤ b.standing → b.outermost = true →
      a.outermost = true :=
    fun a ha b _ hle hb => outermost_of_standing_le hb (h.ranked a ha) hle
  refine (mem_take_or_filled hclosed hc hout).resolve_right fun ⟨hdropped, hfull, hall⟩ => ?_
  -- the dropped candidate is one more than there may be
  have hone : 0 < ((cs.mergeSort Candidate.survivesBefore).drop room).countP Candidate.outermost :=
    List.countP_pos_iff.mpr ⟨c, hdropped, hout⟩
  rw [← (List.mergeSort_perm cs Candidate.survivesBefore).countP_eq,
    ← List.take_append_drop room (cs.mergeSort Candidate.survivesBefore), List.countP_append,
    List.countP_eq_length.mpr hall, hfull] at hcount
  omega

/-- A pool has few outermost candidates, and one of them has the smallest value of an objective. -/
theorem RankedByFront.exists_outermost (h : RankedByFront cs) (hvalued : Valued m cs)
    (hfront : FirstFront cs front ds) (hne : front ≠ []) (hk : k < m) :
    cs.countP Candidate.outermost ≤ 2 * m ∧
      ∃ c ∈ cs, c.outermost = true ∧
        ∃ x, c.objectives.toList[k]? = some x ∧ LeastAt k (vectorsOf cs) x := by
  obtain ⟨⟨far, hfar, hnear⟩, hlowest, -⟩ := crowding_extremes hfront.crowding
    (hfront.measured hvalued) (Nat.zero_lt_of_lt hk)
  refine ⟨(hfront.countP_le hnear).trans hfar, ?_⟩
  obtain ⟨j, i, x, hj, hd, hx, hle⟩ := hlowest hne k hk
  obtain ⟨c, hc, hcrowding⟩ := hfront.distance j i _ hj hd
  have hmem := List.mem_of_getElem? hc
  have hvalue {i : ℕ} {c : Candidate Float} (hc : cs[i]? = some c) :
      valueAt (cs.map (·.objectives)) k i = c.objectives.toList[k]? := by
    simp [valueAt, hc]
  rw [hvalue hc] at hx
  refine ⟨c, hmem, ?_, x, hx, .intro hmem hx fun d hd y hy => ?_⟩
  · rw [Candidate.outermost_iff, hcrowding]
    exact ⟨(hfront.rank_iff i c hc).mpr (List.mem_of_getElem? hj), le_rfl⟩
  -- the smallest value of the first front is the smallest of all
  obtain ⟨e, he, hrank, hbelow⟩ := h.exists_first hvalued hd
  obtain ⟨i', hi'⟩ := List.getElem?_of_mem he
  obtain ⟨z, hz⟩ := hvalued.exists_value he hk
  have hxz : value x ≤ value z :=
    hle i' ((hfront.rank_iff i' e hi').mp hrank) z ((hvalue hi').trans hz)
  rw [← le_iff_value_le (hvalued.isFinite hmem hx) (hvalued.isFinite he hz)] at hxz
  exact le_trans hxz (hbelow k z y hz hy)

end Outermost

/-- A selection with room for two candidates for each objective keeps the smallest value of the
pool in every objective; with one objective room for one candidate does. -/
theorem survivors_leastAt {m room k : ℕ} {pool kept : List (Candidate Float)}
    (hvalued : Valued m pool) (hroom : 2 * m ≤ room ∨ m = 1 ∧ 0 < room) (hne : pool ≠ [])
    (h : survivors room pool = .ok kept) (hk : k < m) :
    ∃ x, LeastAt k (vectorsOf kept) x ∧ LeastAt k (vectorsOf pool) x := by
  obtain ⟨cs, hcs, rfl⟩ := survivors_eq_take h
  have huniform : ∀ c ∈ pool, c.objectives.Uniform m := fun c hc => Or.inr (hvalued c hc).1
  have hranked := rankedByFront_ranked huniform hcs
  have hvalued' := hvalued.ranked hcs
  have hpos : 0 < cs.length := by
    rw [← List.length_map (·.objectives), objectives_ranked hcs, List.length_map]
    exact List.length_pos_iff.mpr hne
  obtain ⟨d, hd, hfirst, -⟩ := hranked.exists_first hvalued' (List.getElem_mem hpos)
  have hleast : ∃ c ∈ (cs.mergeSort Candidate.survivesBefore).take room,
      ∃ x, c.objectives.toList[k]? = some x ∧ LeastAt k (vectorsOf cs) x := by
    rcases hroom with hroom | ⟨rfl, hroom⟩
    · obtain ⟨front, ds, hfront, hfne⟩ := exists_firstFront huniform hcs hd hfirst
      obtain ⟨hcount, c, hc, hout, hx⟩ :=
        hranked.exists_outermost hvalued' hfront hfne hk
      exact ⟨c, hranked.mem_take_of_outermost (hcount.trans hroom) hc hout, hx⟩
    · obtain rfl := Nat.lt_one_iff.mp hk
      obtain ⟨c, hkept, hzero⟩ := hranked.exists_first_kept hroom hd hfirst
      have hc := List.mem_mergeSort.mp (List.mem_of_mem_take hkept)
      obtain ⟨x, hx⟩ := hvalued'.exists_value hc hk
      exact ⟨c, hkept, x, hx, hranked.leastAt_of_first hvalued' hc hzero hx⟩
  obtain ⟨c, hkept, x, hx, hleast⟩ := hleast
  refine ⟨x, hleast.subset (fun d hd => ?_) hkept hx, vectorsOf_ranked hcs ▸ hleast⟩
  exact List.mem_mergeSort.mp (List.mem_of_mem_take hd)

end PatchSearch
