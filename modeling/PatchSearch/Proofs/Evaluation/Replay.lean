import PatchSearch.Proofs.Evaluation.Selected
import PatchSearch.Proofs.Genome.Bounds

/-!
Selected edits and how to select them again. An edit that was selected fits its point: operator and
ingredient are those that its numbers stand for there, and the filter has nothing against it, also
when it was the filter that chose the ingredient. So every chromosome whose active genes stand for
the same edits makes the selection give them again.
-/
namespace PatchSearch

open Chromosome

/-- An edit fits a point: it is the edit of its numbers there, these are those of an operator and,
where the operator needs one, of an ingredient, and the filter, if there is one, accepts it. -/
structure AppliedEdit.Fits (filter : Bool) (p : Point) (e : AppliedEdit) : Prop where
  edit : e = appliedEdit e.point p e.operatorIndex e.operator e.ingredientIndex
  operator : p.operators[e.operatorIndex]? = some e.operator
  needed : e.ingredientIndex.isSome = e.operator.needsIngredient
  ingredient : ∀ k ∈ e.ingredientIndex, k < p.ingredients.length
  accepted : filter = true →
    redundancyVerdict e.operator p (e.ingredientIndex.bind (p.ingredients[·]?)) = .accept

/-- Edits as a selection leaves them: in the order of their points, no more of them than the limit
allows, and each of them fits its point. -/
structure Selected (points : List Point) (filter : Bool) (limit : Option ℕ)
    (edits : List AppliedEdit) : Prop where
  ascending : (edits.map (·.point)).Pairwise (· < ·)
  limited : ∀ most, limit = some most → edits.length ≤ most
  fits : ∀ e ∈ edits, ∃ p, points[e.point]? = some p ∧ e.Fits filter p

/-- The genes of a chromosome at the point of an edit stand for the edit, up to remainders. -/
structure AppliedEdit.Encoded (p : Point) (e : AppliedEdit) (c : Chromosome) : Prop where
  operator : ∃ n, c.operatorIndex[e.point]? = some n ∧ n % p.operators.length = e.operatorIndex
  ingredient : ∀ k ∈ e.ingredientIndex,
    ∃ n, c.ingredientIndex[e.point]? = some n ∧ n % p.ingredients.length = k

section Genes

variable {filter : Bool} {c c' : Chromosome} {i : ℕ} {p : Point} {e : AppliedEdit}

/-- An edit that the filter lets pass fits its point. -/
theorem fits_filterEdit {number : ℕ} {o : Operator} {k : Option ℕ}
    (ho : p.operators[number]? = some o) (hk : k.isSome = o.needsIngredient)
    (hvalid : ∀ n ∈ k, n < p.ingredients.length)
    (h : filterEdit c i p number o k = (some e, c')) : e.point = i ∧ e.Fits filter p := by
  unfold filterEdit at h
  split at h
  · next haccepted =>
    cases h
    exact ⟨rfl, rfl, ho, hk, hvalid, fun _ => haccepted⟩
  · next j hredirect =>
    cases h
    obtain ⟨hneeds, hlt, haccepted⟩ := redirect_spec hredirect
    refine ⟨rfl, rfl, ho, hneeds.symm, fun n hn => ?_, fun _ => haccepted⟩
    obtain rfl := Option.mem_some.mp hn
    exact hlt
  · cases h

theorem decodeGene_fits (h : decodeGene filter c i p = .ok (some e, c')) :
    e.point = i ∧ e.Fits filter p := by
  obtain ⟨hnone, -⟩ | ⟨number, o, k, ho, hk, hvalid, hresult⟩ := decodeGene_cases h
  · cases hnone
  · split at hresult
    · exact fits_filterEdit ho hk hvalid hresult.symm
    · next hunfiltered =>
      cases hresult
      exact ⟨rfl, rfl, ho, hk, hvalid, fun hfilter => absurd hfilter hunfiltered⟩

/-- The filter, if there is one, lets an edit that fits its point pass as it is. -/
theorem AppliedEdit.Fits.passes (h : e.Fits filter p) (c : Chromosome) :
    (if filter = true
      then pure (filterEdit c e.point p e.operatorIndex e.operator e.ingredientIndex)
      else pure (some (appliedEdit e.point p e.operatorIndex e.operator e.ingredientIndex), c)) =
        (.ok (some e, c) : Except Fault (Option AppliedEdit × Chromosome)) := by
  rw [← h.edit]
  split
  · next hfilter =>
    unfold filterEdit
    rw [h.accepted hfilter, ← h.edit]
    rfl
  · rfl

/-- A gene that stands for an edit that fits its point is decoded to it and left as it is. -/
theorem decodeGene_replay (hfits : e.Fits filter p) (hencoded : e.Encoded p c) :
    decodeGene filter c e.point p = .ok (some e, c) := by
  obtain ⟨number, hnumber, hoperator⟩ := hencoded.operator
  have hpasses := hfits.passes c
  have hneeded := hfits.needed
  have hoperators : p.operators.isEmpty = false :=
    List.isEmpty_eq_false_iff_exists_mem.mpr ⟨_, List.mem_of_getElem? hfits.operator⟩
  unfold decodeGene
  rw [hoperators, if_neg Bool.false_ne_true]
  refine bind_eq_ok_iff.mpr ⟨number, itemAt_eq_ok_iff.mpr hnumber, ?_⟩
  dsimp only
  rw [hoperator]
  refine bind_eq_ok_iff.mpr ⟨e.operator, itemAt_eq_ok_iff.mpr hfits.operator, ?_⟩
  cases hk : e.ingredientIndex with
  | none =>
    rw [hk] at hneeded hpasses
    have hneeds : e.operator.needsIngredient = false := hneeded.symm
    rw [hneeds, Bool.false_and, if_neg Bool.false_ne_true]
    exact hpasses
  | some k =>
    rw [hk] at hneeded hpasses
    have hneeds : e.operator.needsIngredient = true := hneeded.symm
    have hingredients : p.ingredients.isEmpty = false :=
      List.isEmpty_eq_false_iff_exists_mem.mpr ⟨_, List.getElem_mem (hfits.ingredient k hk)⟩
    obtain ⟨n, hn, hmod⟩ := hencoded.ingredient k hk
    rw [hneeds, hingredients, Bool.and_false, if_neg Bool.false_ne_true, if_pos rfl]
    refine bind_eq_ok_iff.mpr ⟨n, itemAt_eq_ok_iff.mpr hn, ?_⟩
    rw [hmod]
    exact hpasses

end Genes

section Selections

variable {filter : Bool} {c c' : Chromosome} {i : ℕ} {points : List Point}
  {edits : List AppliedEdit}

/-- Every decoded edit fits its point. -/
theorem decodeFrom_fits (h : decodeFrom filter i points c = .ok (edits, c')) :
    ∀ e ∈ edits, ∃ j p, points[j]? = some p ∧ e.point = i + j ∧ e.Fits filter p := by
  induction points generalizing i c edits with
  | nil =>
    cases h
    nofun
  | cons p ps ih =>
    have hrest {c₁ : Chromosome} {rest : List AppliedEdit}
        (h : decodeFrom filter (i + 1) ps c₁ = .ok (rest, c')) :
        ∀ e ∈ rest, ∃ j q, (p :: ps)[j]? = some q ∧ e.point = i + j ∧ e.Fits filter q := by
      intro e he
      obtain ⟨j, q, hq, hpoint, hfits⟩ := ih h e he
      exact ⟨j + 1, q, hq, by omega, hfits⟩
    unfold decodeFrom at h
    split at h
    · cases h
      nofun
    · exact hrest h
    · obtain ⟨⟨edit, c₁⟩, hgene, h⟩ := bind_eq_ok_iff.mp h
      obtain ⟨⟨rest, c₂⟩, hdecoded, h⟩ := bind_eq_ok_iff.mp h
      cases h
      intro e he
      rcases List.mem_append.mp he with he | he
      · obtain rfl := Option.mem_toList.mp he
        obtain ⟨rfl, hfits⟩ := decodeGene_fits hgene
        exact ⟨0, p, rfl, rfl, hfits⟩
      · exact hrest hdecoded e he

theorem selected_of_selectEdits {limit : Option ℕ} (hc : c.Shaped points.length)
    (h : selectEdits points filter limit c = .ok (edits, c')) :
    Selected points filter limit edits := by
  obtain ⟨hpoints, hlimit⟩ := selectEdits_spec hc h
  refine ⟨hpoints ▸ pairwise_activePoints c', hlimit, ?_⟩
  obtain ⟨decoded, c₁, hdecoded, hsubperm⟩ := selectEdits_subperm h
  intro e he
  obtain ⟨j, p, hp, hpoint, hfits⟩ := decodeFrom_fits hdecoded e (hsubperm.subset he)
  rw [Nat.zero_add] at hpoint
  exact ⟨p, hpoint ▸ hp, hfits⟩

/-- Genes that stand for edits that fit are decoded to them and left as they are. -/
theorem decodeFrom_replay (hlength : c.active.length = i + points.length)
    (hpoints : activeFrom i (c.active.drop i) = edits.map (·.point))
    (hfits : ∀ e ∈ edits, ∃ j p, points[j]? = some p ∧ e.point = i + j ∧
      e.Fits filter p ∧ e.Encoded p c) :
    decodeFrom filter i points c = .ok (edits, c) := by
  induction points generalizing i edits with
  | nil =>
    have hnone : c.active.drop i = [] := List.drop_of_length_le hlength.le
    rw [hnone] at hpoints
    obtain rfl := List.map_eq_nil_iff.mp hpoints.symm
    rfl
  | cons p ps ih =>
    rw [List.length_cons] at hlength
    have hi : i < c.active.length := by omega
    rw [List.drop_eq_getElem_cons hi] at hpoints
    -- the edits of the points after this one
    have hrest {rest : List AppliedEdit} (hrest : ∀ e ∈ rest, e ∈ edits)
        (hpoints : activeFrom (i + 1) (c.active.drop (i + 1)) = rest.map (·.point)) :
        decodeFrom filter (i + 1) ps c = .ok (rest, c) := by
      refine ih (by omega) hpoints fun e he => ?_
      obtain ⟨j, q, hq, hpoint, hfits⟩ := hfits e (hrest e he)
      have hactive : e.point ∈ activeFrom (i + 1) (c.active.drop (i + 1)) := by
        rw [hpoints]
        exact List.mem_map_of_mem he
      have hlater : i + 1 ≤ e.point := (mem_activeFrom.mp hactive).1
      obtain ⟨k, rfl⟩ : ∃ k, j = k + 1 := ⟨j - 1, by omega⟩
      exact ⟨k, q, hq, by omega, hfits⟩
    unfold decodeFrom
    rw [List.getElem?_eq_getElem hi]
    cases hswitch : c.active[i] with
    | false =>
      rw [hswitch, activeFrom, if_neg Bool.false_ne_true] at hpoints
      exact hrest (fun _ he => he) hpoints
    | true =>
      rw [hswitch, activeFrom, if_pos rfl] at hpoints
      obtain ⟨e, es, rfl, hpoint, htail⟩ := List.map_eq_cons_iff.mp hpoints.symm
      obtain ⟨j, q, hq, hj, hfit, hencoded⟩ := hfits e (List.mem_cons_self)
      obtain rfl : j = 0 := by omega
      cases hq
      have hgene := decodeGene_replay hfit hencoded
      rw [hpoint] at hgene
      refine bind_eq_ok_iff.mpr ⟨(some e, c), hgene, bind_eq_ok_iff.mpr ⟨(es, c), ?_, rfl⟩⟩
      exact hrest (fun _ he => List.mem_cons_of_mem e he) htail.symm

/-- A chromosome whose active genes stand for selected edits selects them again and is left as it
is. -/
theorem Selected.replay {limit : Option ℕ} (h : Selected points filter limit edits)
    (hlength : c.active.length = points.length) (hpoints : c.activePoints = edits.map (·.point))
    (hencoded : ∀ e ∈ edits, ∀ p, points[e.point]? = some p → e.Fits filter p → e.Encoded p c) :
    selectEdits points filter limit c = .ok (edits, c) := by
  have hdecoded : decodeFrom filter 0 points c = .ok (edits, c) := by
    refine decodeFrom_replay (by rw [hlength, Nat.zero_add]) hpoints fun e he => ?_
    obtain ⟨p, hp, hfits⟩ := h.fits e he
    exact ⟨e.point, p, hp, (Nat.zero_add _).symm, hfits, hencoded e he p hp hfits⟩
  refine bind_eq_ok_iff.mpr ⟨_, hdecoded, ?_⟩
  cases limit with
  | none => rfl
  | some limit =>
    exact congrArg Except.ok (limitEdits_of_length_le points limit edits c (h.limited limit rfl))

end Selections

end PatchSearch
