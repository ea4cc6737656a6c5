import Mathlib.Data.Prod.Lex
import PatchSearch.Proofs.Evaluation.Selected
import PatchSearch.Proofs.Pareto.Crowding
import PatchSearch.Proofs.Pareto.Layers
import PatchSearch.Proofs.Search.Course
import PatchSearch.Proofs.Search.Selection
import PatchSearch.Proofs.Search.WellFormed

/-!
What ranking gives. Every member of a front gets the number of the front as its rank and its
distance within the front as its crowding. In a ranked pool dominators have lower ranks, and a
member with a rank above zero has a dominator ranked just below it. These two rules leave no choice
of the ranks, and they tell the first front from the others.
-/
namespace PatchSearch

section Ranks

variable {α : Type} [Scalar α]

/-- A candidate with a rank and a crowding distance. -/
def Candidate.withRank (c : Candidate α) (rank : Nat) (crowding : α) : Candidate α :=
  { c with rank := some rank, crowding }

omit [Scalar α] in
/-- Ranking a front changes its members, each to its own distance, and no others. -/
theorem rankFront_spec (pool : Array (Candidate α)) (rank : Nat) {front : List Nat}
    (distances : List α) (hnodup : front.Nodup) :
    (∀ i, i ∉ front → (rankFront pool rank front distances)[i]? = pool[i]?) ∧
      ∀ (j i : Nat) d, front[j]? = some i → distances[j]? = some d →
        (rankFront pool rank front distances)[i]? = pool[i]?.map (·.withRank rank d) := by
  unfold rankFront
  induction front generalizing pool distances with
  | nil => exact ⟨fun i _ => rfl, nofun⟩
  | cons p front ih =>
    obtain ⟨hp, hnodup⟩ := List.nodup_cons.mp hnodup
    cases distances with
    | nil => exact ⟨fun i _ => rfl, nofun⟩
    | cons d distances =>
      rw [List.zip_cons_cons, List.foldl_cons]
      obtain ⟨hothers, hmembers⟩ := ih (pool.modify p (·.withRank rank d))
        distances hnodup
      have hmodify (i : Nat) : (pool.modify p (·.withRank rank d))[i]? =
          if p = i then pool[i]?.map (·.withRank rank d) else pool[i]? :=
        Array.getElem?_modify
      refine ⟨fun i hi => ?_, fun j i d' hj hd' => ?_⟩
      · rw [List.mem_cons, not_or] at hi
        exact (hothers i hi.2).trans ((hmodify i).trans (if_neg (Ne.symm hi.1)))
      · cases j with
        | zero =>
          cases hj
          cases hd'
          exact (hothers p hp).trans ((hmodify p).trans (if_pos rfl))
        | succ j =>
          have hi : p ≠ i := by
            rintro rfl
            exact hp (List.mem_of_getElem? hj)
          exact (hmembers j i d' hj hd').trans (by rw [hmodify, if_neg hi])

/-- Ranking fronts without common members gives the members of each its number and their distances
within it. -/
theorem rankFronts_spec {vs : List (Objectives α)} {first : Nat} {fs : List (List Nat)}
    {pool result : Array (Candidate α)} (h : rankFronts vs first fs pool = .ok result)
    (hnodup : fs.flatten.Nodup) :
    (∀ i, i ∉ fs.flatten → result[i]? = pool[i]?) ∧
      ∀ (k : Nat) front (j i : Nat), fs[k]? = some front → front[j]? = some i →
        ∃ ds d, crowding front vs = .ok ds ∧ ds[j]? = some d ∧
          result[i]? = pool[i]?.map (·.withRank (first + k) d) := by
  induction fs generalizing first pool with
  | nil =>
    cases h
    exact ⟨fun i _ => rfl, nofun⟩
  | cons front fs ih =>
    obtain ⟨ds, hds, h⟩ := bind_eq_ok_iff.mp h
    rw [List.flatten_cons, List.nodup_append] at hnodup
    obtain ⟨hfront, hrest, hdisjoint⟩ := hnodup
    obtain ⟨hothers, hmembers⟩ := ih h hrest
    obtain ⟨hothers₁, hmembers₁⟩ := rankFront_spec pool first ds hfront
    refine ⟨fun i hi => ?_, fun k f j i hf hi => ?_⟩
    · rw [List.flatten_cons, List.mem_append, not_or] at hi
      exact (hothers i hi.2).trans (hothers₁ i hi.1)
    · cases k with
      | zero =>
        cases hf
        have hmem := List.mem_of_getElem? hi
        have hlt := (List.getElem?_eq_some_iff.mp hi).1
        rw [← length_crowding hds] at hlt
        have hd := List.getElem?_eq_getElem hlt
        refine ⟨ds, _, hds, hd, ?_⟩
        rw [hothers i fun hin => hdisjoint i hmem i hin rfl, hmembers₁ j i _ hi hd]
        rfl
      | succ k =>
        obtain ⟨ds', d, hds', hd, hresult⟩ := hmembers k f j i hf hi
        refine ⟨ds', d, hds', hd, ?_⟩
        have hmem : i ∈ fs.flatten :=
          List.mem_flatten.mpr ⟨f, List.mem_of_getElem? hf, List.mem_of_getElem? hi⟩
        rw [hresult, hothers₁ i fun hin => hdisjoint i hin i hmem rfl, Nat.add_right_comm]
        rfl

/-- Ranking comes to no fault when every front has crowding distances. -/
theorem yields_rankFronts_of_crowding {vs : List (Objectives α)} {fs : List (List Nat)}
    (h : ∀ f ∈ fs, Yields (crowding f vs) fun _ => True) (rank : Nat)
    (pool : Array (Candidate α)) : Yields (rankFronts vs rank fs pool) fun _ => True := by
  induction fs generalizing rank pool with
  | nil => exact Yields.ok trivial
  | cons front fs ih =>
    unfold rankFronts
    refine Yields.bind (h front (by simp)) fun ds _ => ?_
    exact ih (fun f hf => h f (List.mem_cons_of_mem _ hf)) _ _

end Ranks

/-- The ranks of candidates follow domination: dominators are ranked lower, and a candidate with a
rank above zero has a dominator ranked just below it. -/
structure RankedByFront (xs : List (Candidate Float)) : Prop where
  ranked : ∀ c ∈ xs, ∃ k, c.rank = some k
  lower : ∀ c ∈ xs, ∀ d ∈ xs, d.objectives.dominates c.objectives = true →
    ∀ j k, d.rank = some j → c.rank = some k → j < k
  just : ∀ c ∈ xs, ∀ k, c.rank = some (k + 1) →
    ∃ d ∈ xs, d.objectives.dominates c.objectives = true ∧ d.rank = some k

namespace RankedByFront

variable {xs ys : List (Candidate Float)}

theorem congr (h : RankedByFront xs) (hmem : ∀ c, c ∈ ys ↔ c ∈ xs) : RankedByFront ys := by
  refine ⟨fun c hc => h.ranked c ((hmem c).mp hc),
    fun c hc d hd => h.lower c ((hmem c).mp hc) d ((hmem d).mp hd), fun c hc k hk => ?_⟩
  obtain ⟨d, hd, hdominates⟩ := h.just c ((hmem c).mp hc) k hk
  exact ⟨d, (hmem d).mpr hd, hdominates⟩

/-- The first rank is that of the candidates that none dominates. -/
theorem rank_eq_zero_iff (h : RankedByFront xs) {c : Candidate Float} (hc : c ∈ xs) :
    c.rank = some 0 ↔ ∀ d ∈ xs, d.objectives.dominates c.objectives = false := by
  obtain ⟨k, hk⟩ := h.ranked c hc
  constructor
  · intro hzero d hd
    rw [← Bool.not_eq_true]
    intro hdominates
    obtain ⟨j, hj⟩ := h.ranked d hd
    exact Nat.not_lt_zero j (h.lower c hc d hd hdominates j 0 hj hzero)
  · intro hnone
    cases k with
    | zero => exact hk
    | succ k =>
      obtain ⟨d, hd, hdominates, -⟩ := h.just c hc k hk
      rw [hnone d hd] at hdominates
      cases hdominates

/-- The ranks are a grading of the places of the candidates. -/
theorem grading (h : RankedByFront xs) :
    Grading xs.length
      ((xs.map (·.objectives)).map (dominatedBy (xs.map (·.objectives)))).toArray
      fun i => (xs[i]?.bind (·.rank)).getD 0 := by
  have hdominated {p q : Nat} {c : Candidate Float} (hq : xs[q]? = some c) :
      q ∈ ((xs.map (·.objectives)).map (dominatedBy (xs.map (·.objectives)))).toArray[p]?.getD [] ↔
        ∃ d, xs[p]? = some d ∧ d.objectives.dominates c.objectives = true := by
    rw [mem_dominated (w := c.objectives) (by rw [List.getElem?_map, hq]; rfl)]
    simp [List.getElem?_map]
  constructor
  · intro p q hp hq hdominates
    have hc := List.getElem?_eq_getElem hq
    obtain ⟨d, hd, hdominates⟩ := (hdominated hc).mp hdominates
    obtain ⟨k, hk⟩ := h.ranked _ (List.getElem_mem hq)
    obtain ⟨j, hj⟩ := h.ranked d (List.mem_of_getElem? hd)
    have hlt := h.lower _ (List.getElem_mem hq) d (List.mem_of_getElem? hd) hdominates j k hj hk
    simpa [hd, hc, hj, hk] using hlt
  · intro q k hq hgrade
    have hc := List.getElem?_eq_getElem hq
    obtain ⟨j, hj⟩ := h.ranked _ (List.getElem_mem hq)
    simp only [hc, Option.bind_some, hj, Option.getD_some] at hgrade
    subst hgrade
    obtain ⟨d, hd, hdominates, hk⟩ := h.just _ (List.getElem_mem hq) k hj
    obtain ⟨p, hp⟩ := List.getElem?_of_mem hd
    refine ⟨p, (List.getElem?_eq_some_iff.mp hp).1, (hdominated hc).mpr ⟨d, hp, hdominates⟩, ?_⟩
    simp [hp, hk]

/-- The ranks are those that sorting the candidates gives. -/
theorem rank_eq_iff (h : RankedByFront xs) {size : Nat}
    (hsize : ∀ c ∈ xs, c.objectives.Uniform size) :
    Yields (fronts (xs.map (·.objectives))) fun fs =>
      ∀ (j : Nat) c, xs[j]? = some c → ∃ k, c.rank = some k ∧ ∀ k', InFront fs k' j ↔ k = k' := by
  have hvs (v : Objectives Float) (hv : v ∈ xs.map (·.objectives)) : v.Uniform size := by
    obtain ⟨c, hc, rfl⟩ := List.mem_map.mp hv
    exact hsize c hc
  refine Yields.mono (yields_fronts_layered hvs) fun fs hfs j c hj => ?_
  rw [List.length_map] at hfs
  obtain ⟨k, hk⟩ := h.ranked c (List.mem_of_getElem? hj)
  refine ⟨k, hk, fun k' => ?_⟩
  rw [hfs.inFront_iff h.grading (List.getElem?_eq_some_iff.mp hj).1 k', hj]
  simp [hk]

/-- The first front holds the candidates that none dominates. -/
theorem firstFront_eq (h : RankedByFront xs) :
    firstFront xs =
      xs.filter fun c => !xs.any fun d => d.objectives.dominates c.objectives := by
  refine List.filter_congr fun c hc => ?_
  rw [Bool.eq_iff_iff, beq_iff_eq, h.rank_eq_zero_iff hc]
  simp

/-- There are candidates of all lower ranks, so a rank is less than the number of candidates. -/
theorem rank_lt_length (h : RankedByFront xs) {d : Candidate Float} (hd : d ∈ xs) {r : Nat}
    (hr : d.rank = some r) : r < xs.length := by
  have hlower (i : Nat) (hi : i ≤ r) : ∃ d ∈ xs, d.rank = some (r - i) := by
    induction i with
    | zero => exact ⟨d, hd, hr⟩
    | succ i ih =>
      obtain ⟨d', hd', hrank⟩ := ih (by omega)
      obtain ⟨k, hk⟩ : ∃ k, r - i = k + 1 := ⟨r - (i + 1), by omega⟩
      obtain ⟨d'', hd'', -, hrank'⟩ := h.just d' hd' k (hk ▸ hrank)
      exact ⟨d'', hd'', by rw [hrank']; congr 1; omega⟩
  have hsub : (List.range (r + 1)).map some ⊆ xs.map (·.rank) := by
    intro rank hrank
    obtain ⟨j, hj, rfl⟩ := List.mem_map.mp hrank
    have hle : j ≤ r := Nat.le_of_lt_succ (List.mem_range.mp hj)
    obtain ⟨d', hd', hd'r⟩ := hlower (r - j) (Nat.sub_le r j)
    rw [Nat.sub_sub_self hle] at hd'r
    exact List.mem_map.mpr ⟨d', hd', hd'r⟩
  have hnodup : ((List.range (r + 1)).map some).Nodup :=
    List.nodup_range.map fun _ _ => Option.some.inj
  have hlength := (List.subperm_of_subset hnodup hsub).length_le
  rw [List.length_map, List.length_map, List.length_range] at hlength
  omega

end RankedByFront

section Pools

variable {pool cs : List (Candidate Float)} {size : Nat}

/-- Ranking a pool sorts it into fronts and gives every member of a front its number as rank and
its distance within the front as crowding. -/
theorem ranked_spec (hsize : ∀ c ∈ pool, c.objectives.Uniform size) (h : ranked pool = .ok cs) :
    ∃ fs, cs.length = pool.length ∧
      Layered pool.length ((pool.map (·.objectives)).map
        (dominatedBy (pool.map (·.objectives)))).toArray [] fs ∧
      ∀ (k : Nat) front (j i : Nat), fs[k]? = some front → front[j]? = some i →
        ∃ ds x d, crowding front (pool.map (·.objectives)) = .ok ds ∧ ds[j]? = some x ∧
          pool[i]? = some d ∧ cs[i]? = some (d.withRank k x) := by
  have hvs (v : Objectives Float) (hv : v ∈ pool.map (·.objectives)) : v.Uniform size := by
    obtain ⟨c, hc, rfl⟩ := List.mem_map.mp hv
    exact hsize c hc
  obtain ⟨fs, hfs, h⟩ := bind_eq_ok_iff.mp h
  obtain ⟨result, hresult, h⟩ := bind_eq_ok_iff.mp h
  cases h
  have hlayers := (yields_fronts_layered hvs).of_eq hfs
  rw [List.length_map] at hlayers
  have hspec := (rankFronts_spec hresult (by simpa using hlayers.nodup)).2
  have hlength : result.toList.length = pool.length := by
    have hunranked := congrArg List.length (rankFronts_unranked hresult)
    simpa using hunranked
  refine ⟨fs, hlength, hlayers, fun k front j i hf hj => ?_⟩
  obtain ⟨ds, x, hds, hx, hc⟩ := hspec k front j i hf hj
  have hlt := hlayers.lt_of_inFront ⟨front, hf, List.mem_of_getElem? hj⟩
  have hd := List.getElem?_eq_getElem hlt
  refine ⟨ds, x, _, hds, hx, hd, ?_⟩
  rw [Array.getElem?_toList, hc, List.getElem?_toArray, hd, Nat.zero_add]
  rfl

/-- The ranks of a ranked pool follow domination. -/
theorem rankedByFront_ranked (hsize : ∀ c ∈ pool, c.objectives.Uniform size)
    (h : ranked pool = .ok cs) : RankedByFront cs := by
  obtain ⟨fs, hlength, hlayers, hspec⟩ := ranked_spec hsize h
  -- what stands at a place, and the front of the place
  have hplace {c : Candidate Float} {i : Nat} (hi : cs[i]? = some c) :
      ∃ d, pool[i]? = some d ∧ c.objectives = d.objectives ∧
        ∃ k, c.rank = some k ∧ InFront fs k i := by
    have hlt : i < pool.length := hlength ▸ (List.getElem?_eq_some_iff.mp hi).1
    obtain ⟨k, front, hf, hin⟩ := hlayers.exists_inFront hlt
    obtain ⟨j, hj⟩ := List.getElem?_of_mem hin
    obtain ⟨ds, x, d, -, -, hd, hc⟩ := hspec k front j i hf hj
    obtain rfl := Option.some.inj (hi.symm.trans hc)
    exact ⟨d, hd, rfl, k, rfl, front, hf, hin⟩
  have hfront {c : Candidate Float} {i k : Nat} (hi : cs[i]? = some c) :
      c.rank = some k ↔ InFront fs k i := by
    obtain ⟨-, -, -, k', hk', hin⟩ := hplace hi
    rw [hk', Option.some.injEq]
    exact ⟨fun heq => heq ▸ hin, hlayers.inFront_unique hin⟩
  have hdominated {c d : Candidate Float} {i p : Nat} (hi : cs[i]? = some c)
      (hp : cs[p]? = some d) :
      i ∈ ((pool.map (·.objectives)).map (dominatedBy (pool.map (·.objectives)))).toArray[p]?.getD
        [] ↔ d.objectives.dominates c.objectives = true := by
    obtain ⟨c', hc', hc, -⟩ := hplace hi
    obtain ⟨d', hd', hd, -⟩ := hplace hp
    rw [mem_dominated (w := c'.objectives) (by rw [List.getElem?_map, hc']; rfl), hc, hd]
    simp [hd']
  refine ⟨fun c hc => ?_, fun c hc d hd hdominates j k hj hk => ?_, fun c hc k hk => ?_⟩
  · obtain ⟨i, hi⟩ := List.getElem?_of_mem hc
    obtain ⟨-, -, -, k, hk, -⟩ := hplace hi
    exact ⟨k, hk⟩
  · obtain ⟨i, hi⟩ := List.getElem?_of_mem hc
    obtain ⟨p, hp⟩ := List.getElem?_of_mem hd
    have hlt : p < pool.length := hlength ▸ (List.getElem?_eq_some_iff.mp hp).1
    obtain ⟨j', hj', hin⟩ := (hlayers.before k i p ((hfront hi).mp hk) hlt
      ((hdominated hi hp).mpr hdominates)).resolve_left nofun
    rwa [hlayers.inFront_unique ((hfront hp).mp hj) hin]
  · obtain ⟨i, hi⟩ := List.getElem?_of_mem hc
    obtain ⟨p, hin, hdominates⟩ := hlayers.above k i ((hfront hi).mp hk)
    have hp := List.getElem?_eq_getElem (l := cs)
      (hlength.symm ▸ hlayers.lt_of_inFront hin)
    exact ⟨_, List.mem_of_getElem? hp, (hdominated hi hp).mp hdominates, (hfront hp).mpr hin⟩

end Pools

end PatchSearch

/-!
Who survives. The order of survival is one of ranks first and of crowding distances next, so the
survivors are a beginning of the ranked pool in that order. Dominators have lower ranks, so
whoever is dropped dominates no survivor, and a survivor with a rank above zero keeps a dominator
ranked just below it: the survivors are ranked as they would be without the others.
-/
namespace PatchSearch

open FloatOrder

/-- Where a candidate stands in the order of survival: by its rank, then by its crowding distance
from above. -/
def Candidate.standing (c : Candidate Float) : WithTop ℕ ×ₗ ℤ :=
  toLex (match c.rank with | some k => (k : WithTop ℕ) | none => ⊤, -floatPlace c.crowding)

theorem survivesBefore_iff (a b : Candidate Float) :
    a.survivesBefore b = true ↔ a.standing ≤ b.standing := by
  unfold Candidate.survivesBefore Candidate.standing
  rw [Prod.Lex.toLex_le_toLex]
  cases ha : a.rank <;> cases hb : b.rank
  · simp [totalLE_iff]
  · simp [rankBefore]
  · simp [rankBefore]
  · next j k =>
    by_cases hjk : j = k
    · simp [hjk, totalLE_iff]
    · simp [hjk, rankBefore]

/-- A pool in the order of survival. -/
theorem pairwise_survivesBefore (cs : List (Candidate Float)) :
    (cs.mergeSort Candidate.survivesBefore).Pairwise fun a b => a.standing ≤ b.standing := by
  refine (List.pairwise_mergeSort ?_ ?_ cs).imp fun h => (survivesBefore_iff _ _).mp h
  · intro a b c hab hbc
    rw [survivesBefore_iff] at hab hbc ⊢
    exact hab.trans hbc
  · intro a b
    rw [Bool.or_eq_true, survivesBefore_iff, survivesBefore_iff]
    exact le_total _ _

theorem rank_le_of_standing_le {a b : Candidate Float} (h : a.standing ≤ b.standing) {j k : Nat}
    (ha : a.rank = some j) (hb : b.rank = some k) : j ≤ k := by
  unfold Candidate.standing at h
  rw [ha, hb, Prod.Lex.toLex_le_toLex] at h
  simp only [Nat.cast_lt, Nat.cast_inj] at h
  omega

section Prefixes

variable {xs ys : List (Candidate Float)}

/-- A beginning of a ranked pool in the order of survival is ranked as it would be alone. -/
theorem RankedByFront.of_append (h : RankedByFront (xs ++ ys))
    (hsorted : (xs ++ ys).Pairwise fun a b => a.standing ≤ b.standing) : RankedByFront xs := by
  have hleft {c : Candidate Float} (hc : c ∈ xs) : c ∈ xs ++ ys := List.mem_append_left ys hc
  refine ⟨fun c hc => h.ranked c (hleft hc),
    fun c hc d hd => h.lower c (hleft hc) d (hleft hd), fun c hc k hk => ?_⟩
  obtain ⟨d, hd, hdominates, hrank⟩ := h.just c (hleft hc) k hk
  refine ⟨d, (List.mem_append.mp hd).resolve_right fun hdropped => ?_, hdominates, hrank⟩
  have hle := (List.pairwise_append.mp hsorted).2.2 c hc d hdropped
  have := rank_le_of_standing_le hle hk hrank
  omega

/-- Nothing after a beginning dominates a member of it. -/
theorem RankedByFront.not_dominates (h : RankedByFront (xs ++ ys))
    (hsorted : (xs ++ ys).Pairwise fun a b => a.standing ≤ b.standing) {c d : Candidate Float}
    (hc : c ∈ xs) (hd : d ∈ ys) : d.objectives.dominates c.objectives = false := by
  rw [← Bool.not_eq_true]
  intro hdominates
  have hc' := List.mem_append_left ys hc
  have hd' := List.mem_append_right xs hd
  obtain ⟨k, hk⟩ := h.ranked c hc'
  obtain ⟨j, hj⟩ := h.ranked d hd'
  have hlt := h.lower c hc' d hd' hdominates j k hj hk
  have hle := rank_le_of_standing_le ((List.pairwise_append.mp hsorted).2.2 c hc d hd) hk hj
  omega

end Prefixes

/-- The survivors of a pool: as many as there is room for; with those that were dropped, none of
which dominates a survivor, they make up the pool; and their ranks are those that sorting the
survivors alone gives. -/
structure Survived (room : Nat) (pool kept : List (Candidate Float)) : Prop where
  length : kept.length = min room pool.length
  dropped : ∃ dropped : List (Candidate Float),
    ((kept ++ dropped).map Candidate.unranked).Perm (pool.map Candidate.unranked) ∧
      ∀ c ∈ kept, ∀ d ∈ dropped, d.objectives.dominates c.objectives = false
  ranks : ∃ fs, fronts (kept.map (·.objectives)) = .ok fs ∧
    ∀ (j : Nat) c, kept[j]? = some c → ∃ k, c.rank = some k ∧ ∀ k', InFront fs k' j ↔ k = k'

section Survivors

variable {room size : Nat} {pool kept : List (Candidate Float)}

/-- The survivors are ranked by domination among themselves. -/
theorem rankedByFront_survivors (hsize : ∀ c ∈ pool, c.objectives.Uniform size)
    (h : survivors room pool = .ok kept) : RankedByFront kept := by
  obtain ⟨cs, hcs, rfl⟩ := survivors_eq_take h
  have hsorted := pairwise_survivesBefore cs
  have hranked : RankedByFront (cs.mergeSort Candidate.survivesBefore) :=
    (rankedByFront_ranked hsize hcs).congr fun c => List.mem_mergeSort
  rw [← List.take_append_drop room (cs.mergeSort Candidate.survivesBefore)] at hranked hsorted
  exact hranked.of_append hsorted

theorem uniform_survivors (hsize : ∀ c ∈ pool, c.objectives.Uniform size)
    (h : survivors room pool = .ok kept) : ∀ c ∈ kept, c.objectives.Uniform size := by
  intro c hc
  obtain ⟨d, hd, heq⟩ := mem_survivors h hc
  rw [Candidate.objectives_eq_of_unranked_eq heq]
  exact hsize d hd

theorem survived_survivors (hsize : ∀ c ∈ pool, c.objectives.Uniform size)
    (h : survivors room pool = .ok kept) : Survived room pool kept := by
  have hkept := (rankedByFront_survivors hsize h).rank_eq_iff (uniform_survivors hsize h)
  obtain ⟨cs, hcs, rfl⟩ := survivors_eq_take h
  have hsorted := pairwise_survivesBefore cs
  have hranked : RankedByFront (cs.mergeSort Candidate.survivesBefore) :=
    (rankedByFront_ranked hsize hcs).congr fun c => List.mem_mergeSort
  have hunranked := ranked_unranked hcs
  refine ⟨?_, ⟨(cs.mergeSort Candidate.survivesBefore).drop room, ?_, ?_⟩, hkept⟩
  · have hlength : cs.length = pool.length := by
      simpa using congrArg List.length hunranked
    rw [List.length_take, List.length_mergeSort, hlength]
  · rw [List.take_append_drop, ← hunranked]
    exact (List.mergeSort_perm cs _).map _
  · rw [← List.take_append_drop room (cs.mergeSort Candidate.survivesBefore)] at hranked hsorted
    exact fun c hc d hd => hranked.not_dominates hsorted hc hd

/-- A pool of candidates with as many objectives each has survivors. -/
theorem yields_survived (hsize : ∀ c ∈ pool, c.objectives.size = size) (room : Nat) :
    Yields (survivors room pool) (Survived room pool) := by
  have hvs (v : Objectives Float) (hv : v ∈ pool.map (·.objectives)) : v.size = size := by
    obtain ⟨c, hc, rfl⟩ := List.mem_map.mp hv
    exact hsize c hc
  have hranked : Yields (ranked pool) fun _ => True := by
    unfold ranked
    refine Yields.bind (yields_fronts _) fun fs hfs => ?_
    refine Yields.bind (yields_rankFronts_of_crowding (fun f hf => ?_) 0 _) fun _ _ =>
      Yields.pure trivial
    exact yields_crowding hvs (hfs f hf)
  obtain ⟨kept, hkept, -⟩ : Yields (survivors room pool) fun _ => True :=
    Yields.bind hranked fun _ _ => Yields.pure trivial
  exact ⟨kept, hkept, survived_survivors (fun c hc => Or.inr (hsize c hc)) hkept⟩

end Survivors

/-- A winner of a tournament is one of its two contestants, and the other does not dominate it. -/
theorem RankedByFront.tournament {population : List (Candidate Float)}
    (h : RankedByFront population) {g g' : Random} {winner : Nat}
    (hwon : tournament population g = .ok (winner, g')) :
    let i := (g.index population.length).1
    let j := ((g.index population.length).2.index population.length).1
    ∃ a b, population[i]? = some a ∧ population[j]? = some b ∧
      (winner = i ∧ b.objectives.dominates a.objectives = false ∨
        winner = j ∧ a.objectives.dominates b.objectives = false) := by
  intro i j
  obtain ⟨a, ha, hwon⟩ := bind_eq_ok_iff.mp hwon
  obtain ⟨b, hb, hwon⟩ := bind_eq_ok_iff.mp hwon
  have ha' : population[i]? = some a := getElem?_of_itemAt ha
  have hb' : population[j]? = some b := getElem?_of_itemAt hb
  obtain ⟨ka, hka⟩ := h.ranked a (List.mem_of_getElem? ha')
  obtain ⟨kb, hkb⟩ := h.ranked b (List.mem_of_getElem? hb')
  -- a contestant that dominates the other has the lower rank
  have hfree {c d : Candidate Float} {k l : Nat} (hc : c ∈ population) (hd : d ∈ population)
      (hk : c.rank = some k) (hl : d.rank = some l) (hle : k ≤ l) :
      d.objectives.dominates c.objectives = false := by
    rw [← Bool.not_eq_true]
    intro hdominates
    have := h.lower c hc d hd hdominates l k hl hk
    omega
  have hfirst := hfree (List.mem_of_getElem? ha') (List.mem_of_getElem? hb') hka hkb
  have hsecond := hfree (List.mem_of_getElem? hb') (List.mem_of_getElem? ha') hkb hka
  refine ⟨a, b, ha', hb', ?_⟩
  dsimp only at hwon
  split at hwon
  · cases hwon
    rw [hka, hkb, rankBefore]
    split
    · next hlt => exact Or.inl ⟨rfl, hfirst (of_decide_eq_true hlt).le⟩
    · next hlt => exact Or.inr ⟨rfl, hsecond (by simpa using hlt)⟩
  · next hsame =>
    rw [not_not, hka, hkb, Option.some.injEq] at hsame
    split at hwon
    · cases hwon
      exact Or.inl ⟨rfl, hfirst hsame.le⟩
    · split at hwon
      · cases hwon
        exact Or.inr ⟨rfl, hsecond hsame.ge⟩
      · obtain ⟨⟨coin, g₁⟩, -, hwon⟩ := bind_eq_ok_iff.mp hwon
        cases hwon
        cases coin
        · exact Or.inr ⟨rfl, hsecond hsame.ge⟩
        · exact Or.inl ⟨rfl, hfirst hsame.le⟩

end PatchSearch

/-!
The front of a run. At every rest of a run the population is ranked by domination among its own
members, as the last selection left it. So the members of the first rank are those that no member
dominates, the front that the run returns holds exactly them, and no tournament is won by a
contestant that the other one dominates.
-/
namespace PatchSearch

variable {σ : Type}

namespace Search

variable {s : Search Float σ} {e₀ : Engine Float σ} {c : Course Float σ}

/-- Evaluated candidates have vectors of one size. -/
theorem carries_uniform (s : Search Float σ) :
    s.Carries (fun _ => True) fun d => d.objectives.Uniform (scoredSize s.setup.objectives) where
  drawn _ := trivial
  bred _ _ _ := ⟨trivial, trivial⟩
  evaluated {d d' e e'} _ he := by
    obtain ⟨evaluation, chromosome, bench, hevaluate, rfl, -⟩ := evaluateCandidate_engine he
    obtain ⟨edits, -, hanswer⟩ := evaluate_eq_ok (congrArg Prod.fst hevaluate)
    exact evaluateEdits_uniform hanswer
  ranked hd heq := by
    rw [Candidate.objectives_eq_of_unranked_eq heq]
    exact hd

theorem Reaches.uniform (h : s.Reaches e₀ c) :
    ∀ d ∈ c.parents ++ c.seen, d.objectives.Uniform (scoredSize s.setup.objectives) := by
  intro d hd
  have hcarried := h.carried s.carries_uniform
  exact (List.mem_append.mp hd).elim (hcarried.parents d) (hcarried.seen d)

/-- The survivors of every selection of a run are ranked by domination among themselves. -/
theorem Reaches.rankedByFront (h : s.Reaches e₀ c) : RankedByFront c.parents := by
  induction h with
  | populate => exact ⟨by simp, by simp, by simp⟩
  | @step c c' h hstep ih =>
    cases hstep with
    | survive _ hs =>
      obtain ⟨population, hsurvivors, rfl⟩ := survive_engine hs
      refine rankedByFront_survivors (fun d hd => h.uniform d ?_) hsurvivors
      rcases List.mem_append.mp hd with hd | hd
      · exact List.mem_append_left _ hd
      · exact List.mem_append_right _ (List.mem_append_right _ hd)
    | _ => exact ih

end Search

/-- The survivors of a pool of vectors of one size are ranked as they would be alone, and whoever
is dropped dominates none of them. So in every run the members of rank zero are those that no
member dominates, no tournament is won by a contestant that the other one dominates, and the front
that a run returns holds the members that no member dominates. -/
theorem pareto_front (s : Search Float σ) :
    (∀ (room size : Nat) (pool : List (Candidate Float)),
      (∀ c ∈ pool, c.objectives.size = size) →
        ∃ kept, survivors room pool = .ok kept ∧ Survived room pool kept) ∧
    (∀ e₀ c, s.Reaches e₀ c → c.Rested →
      (∀ d ∈ c.engine.population, d.rank = some 0 ↔
        ∀ d' ∈ c.engine.population, d'.objectives.dominates d.objectives = false) ∧
      ∀ g winner g', tournament c.engine.population g = .ok (winner, g') →
        let i := (g.index c.engine.population.length).1
        let j := ((g.index c.engine.population.length).2.index c.engine.population.length).1
        ∃ a b, c.engine.population[i]? = some a ∧ c.engine.population[j]? = some b ∧
          (winner = i ∧ b.objectives.dominates a.objectives = false ∨
            winner = j ∧ a.objectives.dominates b.objectives = false)) ∧
    ∀ e₀ r t, s.run e₀ = .ok (r, t) →
      r.front = (t.population.filter fun d =>
        !t.population.any fun d' => d'.objectives.dominates d.objectives).map
          Candidate.snapshot := by
  have hrested (e₀ : Engine Float σ) (c : Course Float σ) (hc : s.Reaches e₀ c)
      (hrest : c.Rested) : RankedByFront c.engine.population := by
    rw [hrest.population]
    exact hc.rankedByFront
  refine ⟨fun room size pool hsize => yields_survived hsize room, ?_, ?_⟩
  · intro e₀ c hc hrest
    have hranked := hrested e₀ c hc hrest
    exact ⟨fun d hd => hranked.rank_eq_zero_iff hd, fun g winner g' hwon =>
      hranked.tournament hwon⟩
  · intro e₀ r t hrun
    obtain ⟨c, hc, hrest, rfl, reason, started, rfl⟩ := Search.reaches_run hrun
    change (firstFront c.engine.population).map Candidate.snapshot = _
    rw [(hrested e₀ c hc hrest).firstFront_eq]

/-- Two new candidates over the two lines make a pool with a survivor, and the run over the two
lines rests with a population whose first front it returns. -/
theorem pareto_front_of_twoLines :
    let d := (twoLineSearch.newCandidate twoLineEngine (Chromosome.blank 2) []).1
    (∃ kept, survivors 1 [d, d] = .ok kept ∧ Survived 1 [d, d] kept) ∧
      ∃ r t c, twoLineSearch.run twoLineEngine = .ok (r, t) ∧
        twoLineSearch.Reaches twoLineEngine c ∧ c.Rested ∧
        (∀ d ∈ c.engine.population, d.rank = some 0 ↔
          ∀ d' ∈ c.engine.population, d'.objectives.dominates d.objectives = false) ∧
        r.front = (t.population.filter fun d =>
          !t.population.any fun d' => d'.objectives.dominates d.objectives).map
            Candidate.snapshot := by
  intro d
  obtain ⟨hpool, hrests, hfront⟩ := pareto_front twoLineSearch
  obtain ⟨r, t, hrun⟩ := twoLineSearch_run
  obtain ⟨c, hc, hrest, -⟩ := Search.reaches_run hrun
  exact ⟨hpool 1 2 [d, d] (by simp [d, Search.newCandidate, Objectives.sentinel, twoLineSearch,
    Search.ofConfig, Setup.ofConfig, pairConfig]), r, t, c, hrun, hc, hrest,
    (hrests _ c hc hrest).1, hfront _ r t hrun⟩

end PatchSearch
