import Mathlib.Data.List.Forall2
import PatchSearch.Proofs.Genome.Shape
import PatchSearch.Proofs.Program.Operators

/-!
The bounds of genes. A chromosome lies within the bounds of a model when its lists have one entry
for each point and no number reaches the bound of its point; the number of an ingredient may be
zero where there is none. Everything that makes a chromosome within bounds or changes one keeps
it there, down to the ingredients that the filter redirects to, so a selection could take all
numbers as they are.
-/
namespace PatchSearch

section Models

variable {catalog : List Point} {maxPoints : Nat} {g g' : Random} {model : ProgramModel}

/-- Every point of a model has an operator. -/
theorem ProgramModel.operators_pos
    (h : ProgramModel.ofCatalog catalog maxPoints g = .ok (model, g')) :
    ∀ b ∈ model.bounds, 0 < b.operators := by
  intro b hb
  obtain ⟨p, hp, rfl⟩ := List.mem_map.mp hb
  obtain ⟨q, rfl⟩ := ProgramModel.exists_normalize h hp
  exact q.length_normalize.1

/-- An operator that needs an ingredient is only found where there is one. -/
theorem ProgramModel.ingredients_ne_nil
    (h : ProgramModel.ofCatalog catalog maxPoints g = .ok (model, g'))
    {p : Point} (hp : p ∈ model.points) {o : Operator} (ho : o ∈ p.operators)
    (hneeds : o.needsIngredient = true) : p.ingredients ≠ [] := by
  obtain ⟨q, rfl⟩ := ProgramModel.exists_normalize h hp
  exact Point.allows_of_mem_normalize (p := q) ho hneeds

end Models

/-- How far the number of an ingredient may reach. -/
def GeneBounds.room (b : GeneBounds) : Nat :=
  max 1 b.ingredients

theorem GeneBounds.room_pos (b : GeneBounds) : 0 < b.room :=
  Nat.lt_of_lt_of_le Nat.zero_lt_one (Nat.le_max_left _ _)

theorem GeneBounds.ingredients_le_room (b : GeneBounds) : b.ingredients ≤ b.room :=
  Nat.le_max_right _ _

/-- Entries that agree go on to agree when one of them gives way to another that agrees. -/
theorem forall₂_set {β γ : Type} {R : β → γ → Prop} {xs : List β} {ys : List γ}
    (h : List.Forall₂ R xs ys) {i : Nat} {x : β} (hx : ∀ y, ys[i]? = some y → R x y) :
    List.Forall₂ R (xs.set i x) ys := by
  induction h generalizing i with
  | nil => exact List.Forall₂.nil
  | cons hhead htail ih =>
    cases i with
    | zero => exact List.Forall₂.cons (hx _ rfl) htail
    | succ i => exact List.Forall₂.cons hhead (ih fun y hy => hx y hy)

namespace Chromosome

/-- The three lists have one entry for each point, and the numbers of a point stay below what it
has to offer. -/
structure InBounds (bounds : List GeneBounds) (c : Chromosome) : Prop where
  active : c.active.length = bounds.length
  operators : List.Forall₂ (fun k b => k < b.operators) c.operatorIndex bounds
  ingredients : List.Forall₂ (fun k b => k < b.room) c.ingredientIndex bounds

variable {bounds : List GeneBounds} {c : Chromosome}

theorem InBounds.shaped (h : c.InBounds bounds) : c.Shaped bounds.length :=
  ⟨h.active, h.operators.length_eq, h.ingredients.length_eq⟩

theorem InBounds.cons (h : c.InBounds bounds) {b : GeneBounds} (active : Bool)
    {operator ingredient : Nat} (ho : operator < b.operators) (hk : ingredient < b.room) :
    (c.cons active operator ingredient).InBounds (b :: bounds) :=
  ⟨congrArg (· + 1) h.active, .cons ho h.operators, .cons hk h.ingredients⟩

theorem InBounds.switchOff (h : c.InBounds bounds) (i : Nat) : (c.switchOff i).InBounds bounds :=
  ⟨(List.length_set ..).trans h.active, h.operators, h.ingredients⟩

theorem InBounds.setIngredient (h : c.InBounds bounds) {i k : Nat}
    (hk : ∀ b, bounds[i]? = some b → k < b.room) : (c.setIngredient i k).InBounds bounds :=
  ⟨h.active, h.operators, forall₂_set h.ingredients hk⟩

theorem index_lt_of_le {n bound : Nat} (h : 0 < n) (hbound : bound ≤ n) (g : Random) :
    (g.index bound).1 < n := by
  rcases Nat.eq_zero_or_pos bound with rfl | hpos
  · rwa [Random.index_zero]
  · exact Nat.lt_of_lt_of_le (Random.index_lt bound hpos g) hbound

/-- A random chromosome lies within the bounds it is drawn from. -/
theorem inBounds_random {strategy : Initialization} {mu : Float} {g g' : Random}
    (hbounds : ∀ b ∈ bounds, 0 < b.operators)
    (h : random strategy mu bounds g = .ok (c, g')) : c.InBounds bounds := by
  induction bounds generalizing c g with
  | nil =>
    cases h
    exact ⟨rfl, .nil, .nil⟩
  | cons b bs ih =>
    obtain ⟨⟨active, g₁⟩, -, h⟩ := bind_eq_ok_iff.mp h
    obtain ⟨⟨rest, g₂⟩, hrest, h⟩ := bind_eq_ok_iff.mp h
    cases h
    refine (ih (fun b hb => hbounds b (by simp [hb])) hrest).cons _ ?_ ?_
    · exact Random.index_lt _ (hbounds b (by simp)) _
    · exact index_lt_of_le b.room_pos b.ingredients_le_room _

theorem forall₂_splice {R : Nat → GeneBounds → Prop} {xs ys : List Nat}
    (hxs : List.Forall₂ R xs bounds) (hys : List.Forall₂ R ys bounds) (cut : Nat) :
    List.Forall₂ R (xs.take cut ++ ys.drop cut) bounds := by
  rw [← List.take_append_drop cut bounds]
  exact List.rel_append (List.forall₂_take cut hxs) (List.forall₂_drop cut hys)

/-- A child of two chromosomes within bounds lies within bounds. -/
theorem Spliced.inBounds {cut : Nat} {a b : Chromosome} (h : Spliced cut a b c)
    (ha : a.InBounds bounds) (hb : b.InBounds bounds) (hcut : cut ≤ bounds.length) :
    c.InBounds bounds := by
  refine ⟨(h.shaped ha.shaped hb.shaped hcut).active, ?_, ?_⟩
  · rw [h.operatorIndex]
    exact forall₂_splice ha.operators hb.operators cut
  · rw [h.ingredientIndex]
    exact forall₂_splice ha.ingredients hb.ingredients cut

theorem inBounds_crossover {a b : Chromosome} {r : Chromosome × Chromosome} {g g' : Random}
    (ha : a.InBounds bounds) (hb : b.InBounds bounds) (h : a.crossover b g = .ok (r, g')) :
    r.1.InBounds bounds ∧ r.2.InBounds bounds := by
  by_cases hn : bounds.length < 2
  · rw [crossover_of_lt ha.shaped hb.shaped hn] at h
    cases h
    exact ⟨ha, hb⟩
  · obtain ⟨cut, c, d, g', -, hcut, -, hcrossed, hc, hd⟩ :=
      crossover_of_le ha.shaped hb.shaped (by omega) g
    rw [hcrossed] at h
    cases h
    exact ⟨hc.inBounds ha hb hcut.le, hd.inBounds hb ha hcut.le⟩

/-- A number that is drawn again stays below its bound, and one that is not drawn again stays. -/
theorem mutateIndex_lt {rate : Float} {bound n old : Nat} {new : Option Nat} {g g' : Random}
    (hn : bound ≤ n) (hold : old < n) (h : mutateIndex rate bound (some old) g = .ok (new, g')) :
    ∃ k, new = some k ∧ k < n := by
  unfold mutateIndex at h
  split at h
  · cases h
    exact ⟨old, rfl, hold⟩
  · obtain ⟨⟨hit, g₁⟩, -, h⟩ := bind_eq_ok_iff.mp h
    dsimp only at h
    split at h
    · cases h
      exact ⟨old, rfl, hold⟩
    · cases h
      exact ⟨_, rfl, index_lt_of_le (by omega) hn g₁⟩

theorem inBounds_mutateGenes {rate : Float} {as : List Bool} {os ks : List Nat} {g g' : Random}
    (h : (⟨as, os, ks⟩ : Chromosome).InBounds bounds)
    (hmutated : mutateGenes rate bounds as os ks g = .ok (c, g')) : c.InBounds bounds := by
  obtain ⟨hactive, hoperators, hingredients⟩ := h
  dsimp only at hactive hoperators hingredients
  induction bounds generalizing as os ks g c with
  | nil =>
    obtain rfl : as = [] := List.eq_nil_of_length_eq_zero hactive
    unfold mutateGenes at hmutated
    cases hmutated
    exact ⟨rfl, hoperators, hingredients⟩
  | cons b bs ih =>
    obtain ⟨a, as, rfl⟩ : ∃ a as', as = a :: as' := by
      cases as <;> simp at hactive ⊢
    cases hoperators with
    | @cons o _ os _ ho hoperators =>
      cases hingredients with
      | @cons k _ ks _ hk hingredients =>
        unfold mutateGenes at hmutated
        obtain ⟨⟨flip, g₁⟩, -, hmutated⟩ := bind_eq_ok_iff.mp hmutated
        obtain ⟨⟨o', g₂⟩, hmutatedOperator, hmutated⟩ := bind_eq_ok_iff.mp hmutated
        obtain ⟨⟨k', g₃⟩, hmutatedIngredient, hmutated⟩ := bind_eq_ok_iff.mp hmutated
        obtain ⟨⟨rest, g₄⟩, hrest, hmutated⟩ := bind_eq_ok_iff.mp hmutated
        obtain ⟨o', rfl, ho'⟩ := mutateIndex_lt le_rfl ho hmutatedOperator
        obtain ⟨k', rfl, hk'⟩ := mutateIndex_lt b.ingredients_le_room hk hmutatedIngredient
        cases hmutated
        exact (ih hrest (Nat.succ.inj hactive) hoperators hingredients).cons _ ho' hk'

/-- Mutation keeps a chromosome within bounds. -/
theorem inBounds_mutate {rate : Float} {c' : Chromosome} {g g' : Random}
    (h : c.InBounds bounds) (hmutated : c.mutate bounds rate g = .ok (c', g')) :
    c'.InBounds bounds :=
  inBounds_mutateGenes h hmutated

section Selection

variable {points : List Point}

/-- The filter redirects only where an ingredient is needed, to one that it accepts. -/
theorem redirect_spec {o : Operator} {p : Point} {i : Option Ingredient} {j : Nat}
    (h : redundancyVerdict o p i = .redirect j) :
    o.needsIngredient = true ∧ j < p.ingredients.length ∧
      redundancyVerdict o p p.ingredients[j]? = .accept := by
  unfold redundancyVerdict at h ⊢
  split at h
  · cases h
  · next hneeds =>
    rw [if_neg hneeds]
    split at h
    · cases h
    · split at h
      · cases h
      · split at h
        · next hfound =>
          cases h
          obtain ⟨hlt, hdiffers, -⟩ := List.findIdx?_eq_some_iff_getElem.mp hfound
          refine ⟨by simpa using hneeds, hlt, ?_⟩
          rw [List.getElem?_eq_getElem hlt]
          exact if_pos hdiffers
        · cases h

theorem inBounds_filterEdit (h : c.InBounds bounds) {i : Nat} {p : Point}
    (hp : bounds[i]? = some p.bounds) (number : Nat) (o : Operator) (k : Option Nat) :
    (filterEdit c i p number o k).2.InBounds bounds := by
  unfold filterEdit
  split
  · exact h
  · next j hredirect =>
    refine h.setIngredient fun b hb => ?_
    obtain rfl := Option.some.inj (hp.symm.trans hb)
    exact Nat.lt_of_lt_of_le (redirect_spec hredirect).2.1 p.bounds.ingredients_le_room
  · exact h.switchOff i

theorem inBounds_decodeGene (h : c.InBounds bounds) {filter : Bool} {i : Nat} {p : Point}
    (hp : bounds[i]? = some p.bounds) {edit : Option AppliedEdit} {c' : Chromosome}
    (hdecoded : decodeGene filter c i p = .ok (edit, c')) : c'.InBounds bounds := by
  obtain ⟨-, rfl⟩ | ⟨number, o, k, -, -, -, hresult⟩ := decodeGene_cases hdecoded
  · exact h.switchOff i
  · split at hresult
    · have hfiltered := inBounds_filterEdit h hp number o k
      rwa [← hresult] at hfiltered
    · cases hresult
      exact h

theorem inBounds_decodeFrom (h : c.InBounds bounds) {filter : Bool} {i : Nat}
    (hpoints : ∀ j p, points[j]? = some p → bounds[i + j]? = some p.bounds)
    {edits : List AppliedEdit} {c' : Chromosome}
    (hdecoded : decodeFrom filter i points c = .ok (edits, c')) : c'.InBounds bounds := by
  induction points generalizing i c edits with
  | nil =>
    cases hdecoded
    exact h
  | cons p ps ih =>
    have hrest (j : Nat) (q : Point) (hq : ps[j]? = some q) :
        bounds[i + 1 + j]? = some q.bounds := by
      rw [Nat.add_right_comm]
      exact hpoints (j + 1) q hq
    unfold decodeFrom at hdecoded
    split at hdecoded
    · cases hdecoded
      exact h
    · exact ih h hrest hdecoded
    · obtain ⟨⟨edit, c₁⟩, hgene, hdecoded⟩ := bind_eq_ok_iff.mp hdecoded
      obtain ⟨⟨rest, c₂⟩, hdecodedRest, hdecoded⟩ := bind_eq_ok_iff.mp hdecoded
      cases hdecoded
      exact ih (inBounds_decodeGene h (hpoints 0 p rfl) hgene) hrest hdecodedRest

theorem inBounds_foldl_switchOff (h : c.InBounds bounds) (edits : List AppliedEdit) :
    (edits.foldl (fun c e => c.switchOff e.point) c).InBounds bounds := by
  induction edits generalizing c with
  | nil => exact h
  | cons e es ih => exact ih (h.switchOff e.point)

/-- A selection keeps a chromosome within the bounds of its model. -/
theorem inBounds_selectEdits {model : ProgramModel} (h : c.InBounds model.bounds) {filter : Bool}
    {limit : Option Nat} {edits : List AppliedEdit} {c' : Chromosome}
    (hselected : selectEdits model.points filter limit c = .ok (edits, c')) :
    c'.InBounds model.bounds := by
  obtain ⟨⟨decoded, c₁⟩, hdecoded, hselected⟩ := bind_eq_ok_iff.mp hselected
  have hpoints (j : Nat) (p : Point) (hp : model.points[j]? = some p) :
      model.bounds[0 + j]? = some p.bounds := by
    rw [Nat.zero_add, ProgramModel.bounds, List.getElem?_map, hp]
    rfl
  have hc₁ := inBounds_decodeFrom h hpoints hdecoded
  cases limit with
  | none =>
    cases hselected
    exact hc₁
  | some limit =>
    have hlimited : (limitEdits model.points limit decoded c₁).2.InBounds model.bounds := by
      unfold limitEdits
      split
      · exact hc₁
      · exact inBounds_foldl_switchOff hc₁ _
    rw [Except.ok.inj hselected] at hlimited
    exact hlimited

/-- The numbers of a gene can be taken as they are at its point: there are operators to choose
from, and ingredients if one of them needs any, and to take the numbers modulo these changes
nothing. -/
structure TakenAsIs (c : Chromosome) (i : Nat) (p : Point) : Prop where
  operators : p.operators.length ≠ 0
  operator : ∃ k, c.operatorIndex[i]? = some k ∧ k % p.operators.length = k
  ingredients : ∀ o ∈ p.operators, o.needsIngredient = true → p.ingredients.length ≠ 0
  ingredient : p.ingredients.length ≠ 0 →
    ∃ k, c.ingredientIndex[i]? = some k ∧ k % p.ingredients.length = k

theorem exists_getElem?_of_forall₂ {R : Nat → GeneBounds → Prop} {xs : List Nat}
    (h : List.Forall₂ R xs bounds) {i : Nat} {b : GeneBounds} (hb : bounds[i]? = some b) :
    ∃ k, xs[i]? = some k ∧ R k b := by
  obtain ⟨hi, rfl⟩ := List.getElem?_eq_some_iff.mp hb
  have hi' : i < xs.length := by rw [h.length_eq]; exact hi
  exact ⟨xs[i], List.getElem?_eq_getElem hi', h.get hi' hi⟩

/-- Within bounds every number can be taken as it is. -/
theorem InBounds.takenAsIs {catalog : List Point} {maxPoints : Nat} {g g' : Random}
    {model : ProgramModel} (hmodel : ProgramModel.ofCatalog catalog maxPoints g = .ok (model, g'))
    (h : c.InBounds model.bounds) {i : Nat} {p : Point} (hp : model.points[i]? = some p) :
    c.TakenAsIs i p := by
  have hb : model.bounds[i]? = some p.bounds := by
    rw [ProgramModel.bounds, List.getElem?_map, hp]
    rfl
  have hpos : 0 < p.bounds.operators :=
    ProgramModel.operators_pos hmodel _ (List.mem_of_getElem? hb)
  refine ⟨Nat.ne_of_gt hpos, ?_, ?_, ?_⟩
  · obtain ⟨k, hk, hlt⟩ := exists_getElem?_of_forall₂ h.operators hb
    exact ⟨k, hk, Nat.mod_eq_of_lt hlt⟩
  · intro o ho hneeds hnone
    exact ProgramModel.ingredients_ne_nil hmodel (List.mem_of_getElem? hp) ho hneeds
      (List.eq_nil_of_length_eq_zero hnone)
  · intro hsome
    obtain ⟨k, hk, hlt⟩ := exists_getElem?_of_forall₂ h.ingredients hb
    have hroom : p.bounds.room = p.ingredients.length := Nat.max_eq_right (by
      change 1 ≤ p.ingredients.length
      omega)
    exact ⟨k, hk, Nat.mod_eq_of_lt (by rwa [hroom] at hlt)⟩

end Selection

end Chromosome

end PatchSearch
