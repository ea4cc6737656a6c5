import PatchSearch.Proofs.Genome.Shape
import PatchSearch.Proofs.Pareto.Sorting
import PatchSearch.Search.Candidate
import PatchSearch.Proofs.Yields

/-!
Selection among fit candidates. A candidate is fit for a model when its chromosome has the shape
of the model and its objectives are as many as are asked for. Among fit candidates selection comes
to no fault: as many survive as there is room for, all of them fit, tournaments have a winner, and
a population has a diversity as long as its pairs can be counted.
-/
namespace PatchSearch

variable {α : Type}

/-- The chromosome has one gene for each of `n` points, and there are `size` objectives. -/
structure Candidate.Fit (n size : Nat) (c : Candidate α) : Prop where
  shaped : c.chromosome.Shaped n
  objectives : c.objectives.size = size

variable {n size : Nat} {pool : List (Candidate α)}

section Ranking

theorem mem_modify_fit {cs : Array (Candidate α)} (h : ∀ c ∈ cs, c.Fit n size) (i rank : Nat)
    (d : α) :
    ∀ c ∈ cs.modify i fun c => { c with rank := some rank, crowding := d }, c.Fit n size := by
  intro c hc
  obtain ⟨j, hj, rfl⟩ := Array.mem_iff_getElem.mp hc
  rw [Array.size_modify] at hj
  have hfit := h cs[j] (Array.getElem_mem hj)
  rw [Array.getElem_modify]
  split
  · exact ⟨hfit.shaped, hfit.objectives⟩
  · exact hfit

/-- Ranking a front changes neither the size of a pool nor the fitness of its members. -/
theorem rankFront_fit {cs : Array (Candidate α)} (h : ∀ c ∈ cs, c.Fit n size) (rank : Nat)
    (front : List Nat) (distances : List α) :
    (rankFront cs rank front distances).size = cs.size ∧
      ∀ c ∈ rankFront cs rank front distances, c.Fit n size := by
  unfold rankFront
  induction front.zip distances generalizing cs with
  | nil => exact ⟨rfl, h⟩
  | cons x xs ih =>
    obtain ⟨hsize, hfit⟩ := ih (mem_modify_fit h x.1 rank x.2)
    rw [Array.size_modify] at hsize
    exact ⟨hsize, hfit⟩

variable [Scalar α]

theorem yields_rankFronts {vs : List (Objectives α)} (hvs : ∀ v ∈ vs, v.size = size)
    {fs : List (List Nat)} (hfs : ∀ front ∈ fs, ∀ p ∈ front, p < vs.length)
    {cs : Array (Candidate α)} (h : ∀ c ∈ cs, c.Fit n size) (rank : Nat) :
    Yields (rankFronts vs rank fs cs) fun r => r.size = cs.size ∧ ∀ c ∈ r, c.Fit n size := by
  induction fs generalizing rank cs with
  | nil => exact Yields.ok ⟨rfl, h⟩
  | cons front fs ih =>
    unfold rankFronts
    refine Yields.bind (yields_crowding hvs (hfs front (by simp))) fun distances _ => ?_
    obtain ⟨hsize, hfit⟩ := rankFront_fit h rank front distances
    have hrest (f : List Nat) (hf : f ∈ fs) : ∀ p ∈ f, p < vs.length :=
      hfs f (List.mem_cons_of_mem _ hf)
    exact Yields.mono (ih hrest hfit (rank + 1)) fun r hr => ⟨hr.1.trans hsize, hr.2⟩

theorem yields_ranked (h : ∀ c ∈ pool, c.Fit n size) :
    Yields (ranked pool) fun cs => cs.length = pool.length ∧ ∀ c ∈ cs, c.Fit n size := by
  have hvs (v : Objectives α) (hv : v ∈ pool.map (·.objectives)) : v.size = size := by
    obtain ⟨c, hc, rfl⟩ := List.mem_map.mp hv
    exact (h c hc).objectives
  unfold ranked
  refine Yields.bind (yields_fronts _) fun fs hfs => ?_
  refine Yields.bind (yields_rankFronts hvs hfs (by simpa using h) 0) fun cs hcs => ?_
  exact Yields.pure ⟨by simpa using hcs.1, by simpa using hcs.2⟩

/-- As many of a pool survive as there is room for. -/
theorem yields_survivors (h : ∀ c ∈ pool, c.Fit n size) (room : Nat) :
    Yields (survivors room pool) fun cs =>
      cs.length = min room pool.length ∧ ∀ c ∈ cs, c.Fit n size := by
  unfold survivors
  refine Yields.bind (yields_ranked h) fun cs hcs => Yields.pure ⟨?_, fun c hc => ?_⟩
  · rw [List.length_take, List.length_mergeSort, hcs.1]
  · exact hcs.2 c (List.mem_mergeSort.mp (List.mem_of_mem_take hc))

end Ranking

section Tournaments

variable [Scalar α]

theorem isProbability_half : Random.IsProbability 0.5 :=
  Or.inr ⟨by decide +kernel, by decide +kernel⟩

/-- A tournament in a population that is not empty is won by one of its members. -/
theorem yields_tournament {population : List (Candidate α)} (h : population ≠ []) (g : Random) :
    Yields (tournament population g) fun r => r.1 < population.length := by
  have hpos : 0 < population.length := List.length_pos_iff.mpr h
  have hi := Random.index_lt population.length hpos g
  have hj := Random.index_lt population.length hpos (g.index population.length).2
  unfold tournament
  refine Yields.bind (yields_itemAt hi) fun a _ => ?_
  refine Yields.bind (yields_itemAt hj) fun b _ => ?_
  split
  · refine Yields.pure ?_
    dsimp only
    split
    · exact hi
    · exact hj
  · split
    · exact Yields.pure hi
    · split
      · exact Yields.pure hj
      · refine Yields.bind (Random.yields_chance _ _ isProbability_half) fun coin _ => ?_
        refine Yields.pure ?_
        dsimp only
        split
        · exact hi
        · exact hj

end Tournaments

section Diversity

/-- The pairs of a population are counted to the end when it has no more than 65536 members. -/
theorem pairs_lt_iff (n : Nat) : n * (n - 1) / 2 < halfWordCount / 2 ↔ n ≤ 65536 := by
  have hhalf : halfWordCount / 2 = 2 ^ 31 := rfl
  rw [hhalf, Nat.div_lt_iff_lt_mul (by omega)]
  constructor
  · intro hlt
    by_contra hmany
    have hprod : 65537 * 65536 ≤ n * (n - 1) := Nat.mul_le_mul (by omega) (by omega)
    omega
  · intro hfew
    have hprod : n * (n - 1) ≤ 65536 * 65535 := Nat.mul_le_mul hfew (by omega)
    omega

variable [Scalar α]

theorem yields_addDistances {c : Chromosome} (hc : c.Shaped n) {ds : List Chromosome}
    (h : ∀ d ∈ ds, d.Shaped n) (sum : α) : Yields (addDistances c ds sum) fun _ => True := by
  induction ds generalizing sum with
  | nil => exact Yields.ok trivial
  | cons d ds ih =>
    unfold addDistances
    refine Yields.bind (Chromosome.yields_distance hc (h d (by simp))) fun x _ => ?_
    exact ih (fun d hd => h d (List.mem_cons_of_mem _ hd)) _

theorem yields_addPairDistances {cs : List Chromosome} (h : ∀ c ∈ cs, c.Shaped n) (sum : α) :
    Yields (addPairDistances cs sum) fun _ => True := by
  induction cs generalizing sum with
  | nil => exact Yields.ok trivial
  | cons c cs ih =>
    have hrest (d : Chromosome) (hd : d ∈ cs) : d.Shaped n := h d (List.mem_cons_of_mem _ hd)
    unfold addPairDistances
    refine Yields.bind (yields_addDistances (h c (by simp)) hrest sum) fun x _ => ?_
    exact ih hrest x

/-- A population of no more than 65536 members has a diversity: its pairs fit into 31 bits. -/
theorem yields_diversity (h : ∀ c ∈ pool, c.Fit n size) (hlength : pool.length ≤ 65536) :
    Yields (diversity pool) fun _ => True := by
  have hshaped (c : Chromosome) (hc : c ∈ pool.map (·.chromosome)) : c.Shaped n := by
    obtain ⟨d, hd, rfl⟩ := List.mem_map.mp hc
    exact (h d hd).shaped
  have hpairs := (pairs_lt_iff pool.length).mpr hlength
  unfold diversity
  dsimp only
  split
  · exact Yields.pure trivial
  · refine Yields.bind (yields_addPairDistances hshaped _) fun sum _ => ?_
    exact Yields.bind (yields_fitting hpairs) fun pairs _ => Yields.pure trivial

/-- A population with a diversity has no more than 65536 members. -/
theorem length_le_of_diversity {x : α} (h : diversity pool = .ok x) : pool.length ≤ 65536 := by
  unfold diversity at h
  dsimp only at h
  split at h
  · omega
  · obtain ⟨sum, -, h⟩ := bind_eq_ok_iff.mp h
    obtain ⟨pairs, hpairs, -⟩ := bind_eq_ok_iff.mp h
    unfold fitting at hpairs
    split at hpairs
    · next hfew => exact (pairs_lt_iff _).mp hfew
    · cases hpairs

end Diversity

end PatchSearch

/-!
What selection leaves alone. Ranking a pool gives its members ranks and crowding distances and
changes nothing else of them, and the survivors are a part of the ranked pool. So up to their
ranks the survivors and the candidates that were dropped make up the pool again.
-/
namespace PatchSearch

variable {α : Type}

/-- The candidate without its rank and its crowding distance, as before any selection. -/
def Candidate.unranked [Arithmetic α] (c : Candidate α) : Candidate α :=
  { c with rank := none, crowding := Arithmetic.ofNat 0 }

section Unranked

variable [Arithmetic α] {c d : Candidate α}

theorem Candidate.eq_of_unranked_eq (h : c.unranked = d.unranked) :
    c = { d with rank := c.rank, crowding := c.crowding } := by
  obtain ⟨id, chromosome, objectives, status, rank, crowding, generation, parents⟩ := c
  simp only [Candidate.unranked, Candidate.mk.injEq] at h
  obtain ⟨rfl, rfl, rfl, rfl, -, -, rfl, rfl⟩ := h
  rfl

theorem Candidate.objectives_eq_of_unranked_eq (h : c.unranked = d.unranked) :
    c.objectives = d.objectives := by
  rw [eq_of_unranked_eq h]

end Unranked

variable [Scalar α]

theorem rankFront_unranked (pool : Array (Candidate α)) (rank : Nat) (front : List Nat)
    (distances : List α) :
    (rankFront pool rank front distances).toList.map Candidate.unranked =
      pool.toList.map Candidate.unranked := by
  unfold rankFront
  induction front.zip distances generalizing pool with
  | nil => rfl
  | cons x xs ih =>
    rw [List.foldl_cons, ih]
    apply List.ext_getElem?
    intro i
    rw [Array.toList_modify, List.getElem?_map, List.getElem?_map, List.getElem?_modify]
    cases pool.toList[i]? with
    | none => rfl
    | some c => by_cases hx : x.1 = i <;> simp [hx, Candidate.unranked]

theorem rankFronts_unranked {vs : List (Objectives α)} {rank : Nat} {fs : List (List Nat)}
    {pool ranked : Array (Candidate α)} (h : rankFronts vs rank fs pool = .ok ranked) :
    ranked.toList.map Candidate.unranked = pool.toList.map Candidate.unranked := by
  induction fs generalizing rank pool with
  | nil =>
    cases h
    rfl
  | cons front fs ih =>
    obtain ⟨distances, -, h⟩ := bind_eq_ok_iff.mp h
    rw [ih h, rankFront_unranked]

theorem ranked_unranked {pool cs : List (Candidate α)} (h : ranked pool = .ok cs) :
    cs.map Candidate.unranked = pool.map Candidate.unranked := by
  obtain ⟨fs, -, h⟩ := bind_eq_ok_iff.mp h
  obtain ⟨ranked, hranked, h⟩ := bind_eq_ok_iff.mp h
  cases h
  exact rankFronts_unranked hranked

/-- The survivors and those that were dropped are the ranked pool, in the order of survival. -/
theorem survivors_eq_take {room : Nat} {pool kept : List (Candidate α)}
    (h : survivors room pool = .ok kept) :
    ∃ cs, ranked pool = .ok cs ∧ kept = (cs.mergeSort Candidate.survivesBefore).take room := by
  obtain ⟨cs, hcs, h⟩ := bind_eq_ok_iff.mp h
  cases h
  exact ⟨cs, hcs, rfl⟩

/-- A survivor is a member of the pool with a new rank and a new crowding distance. -/
theorem mem_survivors {room : Nat} {pool kept : List (Candidate α)}
    (h : survivors room pool = .ok kept) {c : Candidate α} (hc : c ∈ kept) :
    ∃ d ∈ pool, c.unranked = d.unranked := by
  obtain ⟨cs, hcs, rfl⟩ := survivors_eq_take h
  have hmem : c.unranked ∈ cs.map Candidate.unranked :=
    List.mem_map_of_mem (List.mem_mergeSort.mp (List.mem_of_mem_take hc))
  rw [ranked_unranked hcs] at hmem
  obtain ⟨d, hd, heq⟩ := List.mem_map.mp hmem
  exact ⟨d, hd, heq.symm⟩

/-- The survivors are different candidates when those of the pool are. -/
theorem nodup_survivors {room : ℕ} {pool kept : List (Candidate α)}
    (hpool : (pool.map (·.id)).Nodup) (h : survivors room pool = .ok kept) :
    (kept.map (·.id)).Nodup := by
  obtain ⟨cs, hcs, rfl⟩ := survivors_eq_take h
  have hids : cs.map (·.id) = pool.map (·.id) := by
    have hunranked := congrArg (List.map (·.id)) (ranked_unranked hcs)
    rwa [List.map_map, List.map_map] at hunranked
  have hsorted : ((cs.mergeSort Candidate.survivesBefore).map (·.id)).Nodup := by
    rw [((List.mergeSort_perm cs _).map _).nodup_iff, hids]
    exact hpool
  exact hsorted.sublist ((List.take_sublist room _).map _)

end PatchSearch
