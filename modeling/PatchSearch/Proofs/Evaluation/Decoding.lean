import Mathlib.Order.Bounds.Basic
import PatchSearch.Proofs.Evaluation.Replay

/-!
What the genes of a chromosome stand for, said without the way in which they are decoded. An active
gene proposes one edit at most: by remainders its numbers choose an operator and an ingredient, and
under the filter an ingredient that repeats the statement gives way to the first one that does not.
A selection keeps the proposals in the order of their points, the most suspicious ones if there are
too many, and writes into the chromosome which of them it kept and where it gave way. So selecting
again changes nothing.
-/
namespace PatchSearch

open Chromosome

section Proposals

/-- An ingredient says the same as the statement of a point, up to the blanks around both. -/
def Point.Repeats (p : Point) (x : Ingredient) : Prop :=
  Text.trim x.source.toList = Text.trim p.statement.toList

instance (p : Point) (x : Ingredient) : Decidable (p.Repeats x) :=
  inferInstanceAs (Decidable (_ = _))

/-- The number of the first ingredient of a point that does not repeat its statement. -/
def Point.FirstOther (p : Point) (j : ℕ) : Prop :=
  IsLeast {j | ∃ x, p.ingredients[j]? = some x ∧ ¬ p.Repeats x} j

namespace Chromosome

/-- Gene `i` is switched on at the point `p`, and its numbers, as remainders, are the number `n` of
an operator `o` there and the number `k` of an ingredient. -/
structure Reads (c : Chromosome) (points : List Point) (i : ℕ) (p : Point) (n : ℕ)
    (o : Operator) (k : ℕ) : Prop where
  point : points[i]? = some p
  active : c.active[i]? = some true
  number : ∃ gene, c.operatorIndex[i]? = some gene ∧ gene % p.operators.length = n
  operator : p.operators[n]? = some o
  ingredient : ∃ gene, c.ingredientIndex[i]? = some gene ∧ gene % p.ingredients.length = k

/-- The filter redirects gene `i` to ingredient `j`: the ingredient that it stands for repeats the
statement, and `j` is the first one that does not. -/
def Redirects (c : Chromosome) (points : List Point) (filter : Bool) (i j : ℕ) : Prop :=
  filter = true ∧ ∃ p n o k x, c.Reads points i p n o k ∧ o ≠ .delete ∧
    p.ingredients[k]? = some x ∧ p.Repeats x ∧ p.FirstOther j

/-- The edits that the active genes of a chromosome stand for: deletions, edits with the ingredient
of the gene, and those with the ingredient that the filter redirects to. -/
inductive Proposes (c : Chromosome) (points : List Point) (filter : Bool) : AppliedEdit → Prop
  | deletion {i n k : ℕ} {p : Point} (h : c.Reads points i p n .delete k) :
      c.Proposes points filter ⟨i, n, .delete, none, p.location, p.statement, none⟩
  | own {i n k : ℕ} {p : Point} {o : Operator} {x : Ingredient} (h : c.Reads points i p n o k)
      (ho : o ≠ .delete) (hx : p.ingredients[k]? = some x)
      (hother : filter = true → ¬ p.Repeats x) :
      c.Proposes points filter ⟨i, n, o, some k, p.location, p.statement, some x.source⟩
  | redirected {i n k j : ℕ} {p : Point} {o : Operator} {x y : Ingredient}
      (h : c.Reads points i p n o k) (ho : o ≠ .delete) (hfilter : filter = true)
      (hx : p.ingredients[k]? = some x) (hrepeats : p.Repeats x) (hj : p.FirstOther j)
      (hy : p.ingredients[j]? = some y) :
      c.Proposes points filter ⟨i, n, o, some j, p.location, p.statement, some y.source⟩

end Chromosome

variable {c c' : Chromosome} {points : List Point} {filter : Bool} {i j n k : ℕ} {p : Point}
  {o : Operator} {e e' : AppliedEdit}

/-- Operator and ingredient of a gene are determined by the gene. -/
theorem Chromosome.Reads.unique {p' : Point} {n' k' : ℕ} {o' : Operator}
    (h : c.Reads points i p n o k) (h' : c.Reads points i p' n' o' k') :
    p = p' ∧ n = n' ∧ o = o' ∧ k = k' := by
  obtain rfl : p = p' := Option.some.inj (h.point.symm.trans h'.point)
  obtain ⟨gene, hgene, rfl⟩ := h.number
  obtain ⟨gene', hgene', rfl⟩ := h'.number
  obtain rfl : gene = gene' := Option.some.inj (hgene.symm.trans hgene')
  obtain ⟨other, hother, rfl⟩ := h.ingredient
  obtain ⟨other', hother', rfl⟩ := h'.ingredient
  obtain rfl : other = other' := Option.some.inj (hother.symm.trans hother')
  exact ⟨rfl, rfl, Option.some.inj (h.operator.symm.trans h'.operator), rfl⟩

/-- Two chromosomes have the same entries at gene `i`. -/
structure Chromosome.SameGene (c c' : Chromosome) (i : ℕ) : Prop where
  active : c'.active[i]? = c.active[i]?
  operator : c'.operatorIndex[i]? = c.operatorIndex[i]?
  ingredient : c'.ingredientIndex[i]? = c.ingredientIndex[i]?

theorem Chromosome.SameGene.symm (h : c.SameGene c' i) : c'.SameGene c i :=
  ⟨h.active.symm, h.operator.symm, h.ingredient.symm⟩

theorem Chromosome.sameGene_setIngredient {m : ℕ} (h : m ≠ i) (j : ℕ) :
    c.SameGene (c.setIngredient i j) m :=
  ⟨rfl, rfl, List.getElem?_set_ne (Ne.symm h)⟩

theorem Chromosome.sameGene_switchOff {m : ℕ} (h : m ≠ i) : c.SameGene (c.switchOff i) m :=
  ⟨List.getElem?_set_ne (Ne.symm h), rfl, rfl⟩

/-- What a gene stands for is told by its entries in the three lists. -/
theorem Chromosome.Reads.congr (h : c.Reads points i p n o k) (hsame : c.SameGene c' i) :
    c'.Reads points i p n o k where
  point := h.point
  active := hsame.active.trans h.active
  number := hsame.operator ▸ h.number
  operator := h.operator
  ingredient := hsame.ingredient ▸ h.ingredient

theorem Chromosome.Redirects.congr (h : c.Redirects points filter i j)
    (hsame : c.SameGene c' i) : c'.Redirects points filter i j := by
  obtain ⟨hfilter, p, n, o, k, x, hreads, hrest⟩ := h
  exact ⟨hfilter, p, n, o, k, x, hreads.congr hsame, hrest⟩

theorem Chromosome.Proposes.congr (h : c.Proposes points filter e)
    (hsame : c.SameGene c' e.point) : c'.Proposes points filter e := by
  cases h with
  | deletion h => exact .deletion (h.congr hsame)
  | own h ho hx hother => exact .own (h.congr hsame) ho hx hother
  | redirected h ho hfilter hx hrepeats hj hy =>
    exact .redirected (h.congr hsame) ho hfilter hx hrepeats hj hy

theorem Chromosome.Proposes.reads (h : c.Proposes points filter e) :
    ∃ p k, c.Reads points e.point p e.operatorIndex e.operator k := by
  cases h with
  | deletion h => exact ⟨_, _, h⟩
  | own h => exact ⟨_, _, h⟩
  | redirected h => exact ⟨_, _, h⟩

theorem Operator.needsIngredient_iff : o.needsIngredient = true ↔ o ≠ .delete := by
  cases o <;> simp [Operator.needsIngredient]

section Filter

variable {x : Ingredient}

theorem Point.sameStatement_iff : sameStatement x.source p.statement = true ↔ p.Repeats x :=
  beq_iff_eq

theorem Point.findIdx?_eq_some_iff :
    (p.ingredients.findIdx? fun y => !sameStatement y.source p.statement) = some j ↔
      p.FirstOther j := by
  rw [List.findIdx?_eq_some_iff_getElem]
  simp only [Bool.not_eq_true', ← Bool.not_eq_true, Point.sameStatement_iff, not_not]
  constructor
  · rintro ⟨hlt, hfirst, hbefore⟩
    refine ⟨⟨_, List.getElem?_eq_getElem hlt, hfirst⟩, ?_⟩
    rintro m ⟨y, hy, hother⟩
    by_contra hless
    obtain ⟨hm, rfl⟩ := List.getElem?_eq_some_iff.mp hy
    exact hother (hbefore m (by omega))
  · rintro ⟨⟨y, hy, hfirst⟩, hleast⟩
    obtain ⟨hlt, rfl⟩ := List.getElem?_eq_some_iff.mp hy
    refine ⟨hlt, hfirst, fun m hm => ?_⟩
    by_contra hother
    have := hleast ⟨_, List.getElem?_eq_getElem (by omega), hother⟩
    omega

/-- A point has a first ingredient that does not repeat its statement, or all of them do. -/
theorem Point.exists_firstOther (p : Point) :
    (∃ j, p.FirstOther j) ∨ ∀ y ∈ p.ingredients, p.Repeats y := by
  cases hfind : p.ingredients.findIdx? fun y => !sameStatement y.source p.statement with
  | some j => exact Or.inl ⟨j, Point.findIdx?_eq_some_iff.mp hfind⟩
  | none =>
    refine Or.inr fun y hy => Point.sameStatement_iff.mp ?_
    have := List.findIdx?_eq_none_iff.mp hfind y hy
    simpa using this

theorem redundancyVerdict_of_not_repeats (ho : o ≠ .delete) (h : ¬ p.Repeats x) :
    redundancyVerdict o p (some x) = .accept := by
  have hother : sameStatement x.source p.statement = false := by
    rwa [← Bool.not_eq_true, Point.sameStatement_iff]
  simp [redundancyVerdict, Operator.needsIngredient_iff.mpr ho, hother]

theorem redundancyVerdict_eq_redirect (ho : o ≠ .delete) (h : p.Repeats x)
    (hj : p.FirstOther j) : redundancyVerdict o p (some x) = .redirect j := by
  have hsame : sameStatement x.source p.statement = true := Point.sameStatement_iff.mpr h
  have hfind := Point.findIdx?_eq_some_iff.mpr hj
  simp [redundancyVerdict, Operator.needsIngredient_iff.mpr ho, hsame, hfind]

theorem redundancyVerdict_eq_reject (ho : o ≠ .delete) (h : p.Repeats x)
    (hall : ∀ y ∈ p.ingredients, p.Repeats y) : redundancyVerdict o p (some x) = .reject := by
  have hsame : sameStatement x.source p.statement = true := Point.sameStatement_iff.mpr h
  have hnone : (p.ingredients.findIdx? fun y => !sameStatement y.source p.statement) = none := by
    refine List.findIdx?_eq_none_iff.mpr fun y hy => ?_
    simpa using Point.sameStatement_iff.mpr (hall y hy)
  simp [redundancyVerdict, Operator.needsIngredient_iff.mpr ho, hsame, hnone]

/-- An ingredient that the filter accepts does not repeat the statement. -/
theorem not_repeats_of_accept (ho : o ≠ .delete)
    (h : redundancyVerdict o p (some x) = .accept) : ¬ p.Repeats x := by
  intro hrepeats
  obtain ⟨j, hj⟩ | hall := p.exists_firstOther
  · cases h.symm.trans (redundancyVerdict_eq_redirect ho hrepeats hj)
  · cases h.symm.trans (redundancyVerdict_eq_reject ho hrepeats hall)

end Filter

section Genes

/-- A gene that can be read is decoded to the edit of its numbers, or to what the filter makes of
it. -/
theorem Chromosome.Reads.decodeGene_eq (h : c.Reads points i p n o k)
    (hroom : o ≠ .delete → p.ingredients ≠ []) (filter : Bool) :
    decodeGene filter c i p =
      let number := if o = .delete then none else some k
      .ok (if filter = true then filterEdit c i p n o number
        else (some (appliedEdit i p n o number), c)) := by
  obtain ⟨gene, hgene, hnumber⟩ := h.number
  obtain ⟨other, hother, hingredient⟩ := h.ingredient
  have hoperators : p.operators.isEmpty = false :=
    List.isEmpty_eq_false_iff_exists_mem.mpr ⟨o, List.mem_of_getElem? h.operator⟩
  have hoperator : itemAt p.operators (gene % p.operators.length) = .ok o := by
    rw [hnumber]
    exact itemAt_eq_ok_iff.mpr h.operator
  unfold decodeGene
  rw [hoperators, if_neg Bool.false_ne_true, itemAt_eq_ok_iff.mpr hgene]
  dsimp only [bind, Except.bind]
  rw [hoperator]
  dsimp only
  by_cases ho : o = .delete
  · subst ho
    rw [hnumber]
    cases filter <;> rfl
  · have hneeds := Operator.needsIngredient_iff.mpr ho
    have hingredients : p.ingredients.isEmpty = false := by
      simpa using hroom ho
    rw [hneeds, hingredients, Bool.and_false, if_neg Bool.false_ne_true, if_pos rfl, if_neg ho,
      itemAt_eq_ok_iff.mpr hother, hnumber]
    dsimp only [pure, Except.pure]
    rw [hingredient]
    cases filter <;> rfl

/-- The filter lets a gene be whose ingredient does not repeat the statement. -/
theorem Chromosome.Reads.not_redirects (h : c.Reads points i p n o k)
    (hother : filter = true → o ≠ .delete → ∀ x, p.ingredients[k]? = some x → ¬ p.Repeats x)
    (j : ℕ) : ¬ c.Redirects points filter i j := by
  rintro ⟨hfilter, p', n', o', k', x, h', ho, hx, hrepeats, -⟩
  obtain ⟨rfl, rfl, rfl, rfl⟩ := h.unique h'
  exact hother hfilter ho x hx hrepeats

theorem Chromosome.Redirects.unique {j' : ℕ} (h : c.Redirects points filter i j)
    (h' : c.Redirects points filter i j') : j = j' := by
  obtain ⟨-, p, n, o, k, x, hreads, -, -, -, hleast⟩ := h
  obtain ⟨-, p', n', o', k', x', hreads', -, -, -, hleast'⟩ := h'
  obtain ⟨rfl, -⟩ := hreads.unique hreads'
  exact hleast.unique hleast'

/-- A gene with a proposal is decoded to it. Only a gene that is redirected is rewritten. -/
theorem Chromosome.Proposes.decodeGene_eq (h : c.Proposes points filter e) :
    ∃ p c₁, points[e.point]? = some p ∧ decodeGene filter c e.point p = .ok (some e, c₁) ∧
      ((c₁ = c ∧ ∀ j, ¬ c.Redirects points filter e.point j) ∨
        ∃ j, c.Redirects points filter e.point j ∧ c₁ = c.setIngredient e.point j) := by
  cases h with
  | @deletion i n k p h =>
    refine ⟨p, c, h.point, ?_, Or.inl ⟨rfl, h.not_redirects fun _ ho => absurd rfl ho⟩⟩
    rw [h.decodeGene_eq (fun ho => absurd rfl ho)]
    cases filter <;> rfl
  | @own i n k p o x h ho hx hother =>
    have hroom : p.ingredients ≠ [] := List.ne_nil_of_mem (List.mem_of_getElem? hx)
    refine ⟨p, c, h.point, ?_, Or.inl ⟨rfl, h.not_redirects fun hfilter _ x' hx' => ?_⟩⟩
    · rw [h.decodeGene_eq (fun _ => hroom)]
      cases hfilter : filter with
      | false => simp [ho, appliedEdit, hx]
      | true =>
        have haccepted := redundancyVerdict_of_not_repeats ho (hother hfilter)
        simp [ho, filterEdit, appliedEdit, hx, haccepted]
    · obtain rfl := Option.some.inj (hx.symm.trans hx')
      exact hother hfilter
  | @redirected i n k j p o x y h ho hfilter hx hrepeats hj hy =>
    have hroom : p.ingredients ≠ [] := List.ne_nil_of_mem (List.mem_of_getElem? hx)
    refine ⟨p, c.setIngredient i j, h.point, ?_, Or.inr ⟨j, ?_, rfl⟩⟩
    · have hredirect := redundancyVerdict_eq_redirect ho hrepeats hj
      rw [h.decodeGene_eq (fun _ => hroom)]
      simp [hfilter, ho, filterEdit, appliedEdit, hx, hy, hredirect]
    · exact ⟨hfilter, p, n, o, k, x, h, ho, hx, hrepeats, hj⟩

/-- A gene proposes one edit at most. -/
theorem Chromosome.Proposes.unique (h : c.Proposes points filter e)
    (h' : c.Proposes points filter e') (hpoint : e.point = e'.point) : e = e' := by
  obtain ⟨p, c₁, hp, hdecoded, -⟩ := h.decodeGene_eq
  obtain ⟨p', c₁', hp', hdecoded', -⟩ := h'.decodeGene_eq
  rw [← hpoint] at hp' hdecoded'
  obtain rfl := Option.some.inj (hp.symm.trans hp')
  cases hdecoded.symm.trans hdecoded'
  rfl

/-- An active gene has a proposal, or the filter drops it because all ingredients of its point
repeat the statement. -/
theorem Chromosome.Reads.proposes_or_dropped (h : c.Reads points i p n o k)
    (hroom : o ≠ .delete → p.ingredients ≠ []) (filter : Bool) :
    (∃ e, c.Proposes points filter e ∧ e.point = i) ∨
      (filter = true ∧ o ≠ .delete ∧ (∀ y ∈ p.ingredients, p.Repeats y) ∧
        decodeGene filter c i p = .ok (none, c.switchOff i)) := by
  by_cases ho : o = .delete
  · subst ho
    exact Or.inl ⟨_, .deletion h, rfl⟩
  · obtain ⟨x, hx⟩ : ∃ x, p.ingredients[k]? = some x := by
      obtain ⟨gene, -, rfl⟩ := h.ingredient
      exact ⟨_, List.getElem?_eq_getElem (Nat.mod_lt _ (List.length_pos_of_ne_nil (hroom ho)))⟩
    by_cases hfilter : filter = true
    · by_cases hrepeats : p.Repeats x
      · obtain ⟨j, hj⟩ | hall := p.exists_firstOther
        · obtain ⟨y, hy, -⟩ := hj.1
          exact Or.inl ⟨_, .redirected h ho hfilter hx hrepeats hj hy, rfl⟩
        · refine Or.inr ⟨hfilter, ho, hall, ?_⟩
          have hreject := redundancyVerdict_eq_reject ho hrepeats hall
          rw [h.decodeGene_eq hroom]
          simp [hfilter, ho, filterEdit, hx, hreject]
      · exact Or.inl ⟨_, .own h ho hx fun _ => hrepeats, rfl⟩
    · exact Or.inl ⟨_, .own h ho hx fun hf => absurd hf hfilter, rfl⟩

/-- A point has an operator, and an ingredient if one of its operators needs any. -/
structure Point.Equipped (p : Point) : Prop where
  operators : p.operators ≠ []
  ingredients : ∀ o ∈ p.operators, o ≠ .delete → p.ingredients ≠ []

theorem ProgramModel.equipped {catalog : List Point} {maxPoints : ℕ} {g g' : Random}
    {model : ProgramModel} (h : ProgramModel.ofCatalog catalog maxPoints g = .ok (model, g')) :
    ∀ p ∈ model.points, p.Equipped := by
  intro p hp
  refine ⟨?_, fun o ho hne => ?_⟩
  · have hpos := ProgramModel.operators_pos h _ (List.mem_map_of_mem hp)
    exact List.ne_nil_of_length_pos hpos
  · exact ProgramModel.ingredients_ne_nil h hp ho (Operator.needsIngredient_iff.mpr hne)

/-- The active genes of a chromosome of the right shape can be read. -/
theorem Chromosome.Shaped.exists_reads (hc : c.Shaped points.length)
    (hp : points[i]? = some p) (hequipped : p.Equipped) (hactive : c.active[i]? = some true) :
    ∃ n o k, c.Reads points i p n o k ∧ (o ≠ .delete → p.ingredients ≠ []) := by
  obtain ⟨hi, -⟩ := List.getElem?_eq_some_iff.mp hp
  have hioperator : i < c.operatorIndex.length := hc.operatorIndex ▸ hi
  have hiingredient : i < c.ingredientIndex.length := hc.ingredientIndex ▸ hi
  have hlt : c.operatorIndex[i] % p.operators.length < p.operators.length :=
    Nat.mod_lt _ (List.length_pos_of_ne_nil hequipped.operators)
  refine ⟨_, p.operators[c.operatorIndex[i] % p.operators.length], _,
    ⟨hp, hactive, ⟨_, List.getElem?_eq_getElem hioperator, rfl⟩, List.getElem?_eq_getElem hlt,
      ⟨_, List.getElem?_eq_getElem hiingredient, rfl⟩⟩, ?_⟩
  exact hequipped.ingredients _ (List.getElem_mem hlt)

/-- The ingredient of gene `i` is replaced where the filter redirects it, and kept elsewhere. -/
structure Chromosome.Settles (c : Chromosome) (points : List Point) (filter : Bool) (i : ℕ)
    (c' : Chromosome) : Prop where
  redirected : ∀ j, c.Redirects points filter i j → c'.ingredientIndex[i]? = some j
  kept : (∀ j, ¬ c.Redirects points filter i j) →
    c'.ingredientIndex[i]? = c.ingredientIndex[i]?

/-- Decoding an active gene gives its proposal, if it has one, settles its ingredient and leaves
the other genes alone. -/
theorem decodeGene_settles (hc : c.Shaped points.length) (hp : points[i]? = some p)
    (hequipped : p.Equipped) (hactive : c.active[i]? = some true) (filter : Bool) :
    ∃ edit c₁, decodeGene filter c i p = .ok (edit, c₁) ∧
      (∀ e, e ∈ edit ↔ c.Proposes points filter e ∧ e.point = i) ∧
      c.Settles points filter i c₁ ∧ c₁.operatorIndex = c.operatorIndex ∧
      (∀ m, m ≠ i → c.SameGene c₁ m) := by
  obtain ⟨n, o, k, hreads, hroom⟩ := hc.exists_reads hp hequipped hactive
  obtain ⟨e, he, rfl⟩ | ⟨hfilter, ho, hall, hdropped⟩ :=
    hreads.proposes_or_dropped hroom filter
  · obtain ⟨p', c₁, hp', hdecoded, heffect⟩ := he.decodeGene_eq
    obtain rfl := Option.some.inj (hp.symm.trans hp')
    refine ⟨some e, c₁, hdecoded, fun e' => ?_, ?_⟩
    · rw [Option.mem_some]
      exact ⟨fun h => h ▸ ⟨he, rfl⟩, fun ⟨he', hpoint⟩ => he.unique he' hpoint.symm⟩
    · obtain ⟨rfl, hnone⟩ | ⟨j, hj, rfl⟩ := heffect
      · exact ⟨⟨fun j hj => absurd hj (hnone j), fun _ => rfl⟩, rfl, fun m _ => ⟨rfl, rfl, rfl⟩⟩
      · obtain ⟨hi, -⟩ := List.getElem?_eq_some_iff.mp hp
        refine ⟨⟨fun j' hj' => ?_, fun hnone => absurd hj (hnone j)⟩, rfl,
          fun m hm => sameGene_setIngredient hm j⟩
        obtain rfl := hj.unique hj'
        exact List.getElem?_set_self (hc.ingredientIndex ▸ hi)
  · refine ⟨none, c.switchOff i, hdropped, fun e => ?_, ⟨fun j hj => ?_, fun _ => rfl⟩, rfl,
      fun m hm => sameGene_switchOff hm⟩
    · refine iff_of_false nofun ?_
      rintro ⟨he, rfl⟩
      obtain ⟨p', c₁, hp', hdecoded, -⟩ := he.decodeGene_eq
      obtain rfl := Option.some.inj (hp.symm.trans hp')
      cases hdropped.symm.trans hdecoded
    · obtain ⟨-, q, n', o', k', x, h, -, -, -, hleast⟩ := hj
      obtain ⟨rfl, -⟩ := hreads.unique h
      obtain ⟨y, hy, hother⟩ := hleast.1
      exact absurd (hall y (List.mem_of_getElem? hy)) hother

end Genes

end Proposals

section Selections

variable {c c' : Chromosome} {points : List Point} {filter : Bool} {i : ℕ}
  {edits kept : List AppliedEdit}

/-- Decoding from gene `i` on gives the proposals from there on and settles their ingredients. -/
structure Chromosome.Decodes (c : Chromosome) (points : List Point) (filter : Bool) (i : ℕ)
    (edits : List AppliedEdit) (c' : Chromosome) : Prop where
  mem : ∀ e, e ∈ edits ↔ i ≤ e.point ∧ c.Proposes points filter e
  operators : c'.operatorIndex = c.operatorIndex
  before : ∀ m, m < i → c'.ingredientIndex[m]? = c.ingredientIndex[m]?
  settled : ∀ m, i ≤ m → c.Settles points filter m c'

theorem Chromosome.settles_of_not_reads (h : ∀ p n o k, ¬ c.Reads points i p n o k)
    (hsame : c'.ingredientIndex[i]? = c.ingredientIndex[i]?) : c.Settles points filter i c' := by
  refine ⟨?_, fun _ => hsame⟩
  rintro j ⟨-, p, n, o, k, x, hreads, -⟩
  exact absurd hreads (h p n o k)

/-- A gene that is switched off is passed over. -/
theorem Chromosome.Decodes.skip (hoff : c.active[i]? = some false)
    (h : c.Decodes points filter (i + 1) edits c') : c.Decodes points filter i edits c' := by
  have hunread (p : Point) (n : ℕ) (o : Operator) (k : ℕ) : ¬ c.Reads points i p n o k := by
    intro hreads
    cases hoff.symm.trans hreads.active
  refine ⟨fun e => ?_, h.operators, fun m hm => h.before m (by omega), fun m hm => ?_⟩
  · rw [h.mem]
    refine ⟨fun ⟨hlt, he⟩ => ⟨by omega, he⟩, fun ⟨hle, he⟩ => ⟨?_, he⟩⟩
    obtain ⟨p, k, hreads⟩ := he.reads
    have hne : e.point ≠ i := by
      rintro rfl
      exact hunread _ _ _ _ hreads
    omega
  · by_cases hmi : m = i
    · subst hmi
      exact settles_of_not_reads hunread (h.before m (Nat.lt_succ_self m))
    · exact h.settled m (by omega)

/-- A gene that is switched on is decoded, and the others from there on. -/
theorem Chromosome.Decodes.step {edit : Option AppliedEdit} {c₁ : Chromosome}
    (hedit : ∀ e, e ∈ edit ↔ c.Proposes points filter e ∧ e.point = i)
    (hsettles : c.Settles points filter i c₁) (hoperators : c₁.operatorIndex = c.operatorIndex)
    (hothers : ∀ m, m ≠ i → c.SameGene c₁ m) (h : c₁.Decodes points filter (i + 1) edits c') :
    c.Decodes points filter i (edit.toList ++ edits) c' := by
  refine ⟨fun e => ?_, h.operators.trans hoperators, fun m hm => ?_, fun m hm => ?_⟩
  · rw [List.mem_append, Option.mem_toList, ← Option.mem_def, hedit, h.mem]
    constructor
    · rintro (⟨he, rfl⟩ | ⟨hlt, he⟩)
      · exact ⟨le_rfl, he⟩
      · exact ⟨by omega, he.congr (hothers _ (by omega)).symm⟩
    · rintro ⟨hle, he⟩
      by_cases hpoint : e.point = i
      · exact Or.inl ⟨he, hpoint⟩
      · exact Or.inr ⟨by omega, he.congr (hothers _ hpoint)⟩
  · rw [h.before m (by omega), (hothers m (by omega)).ingredient]
  · by_cases hmi : m = i
    · subst hmi
      have hsame := h.before m (Nat.lt_succ_self m)
      exact ⟨fun j hj => hsame.trans (hsettles.redirected j hj),
        fun hnone => hsame.trans (hsettles.kept hnone)⟩
    · have hsame := hothers m hmi
      have hlater := h.settled m (by omega)
      refine ⟨fun j hj => hlater.redirected j (hj.congr hsame), fun hnone => ?_⟩
      rw [hlater.kept fun j hj => hnone j (hj.congr hsame.symm), hsame.ingredient]

theorem decodeFrom_decodes {rest : List Point} (hrest : points.drop i = rest)
    (hc : c.Shaped points.length) (hequipped : ∀ p ∈ points, p.Equipped)
    (h : decodeFrom filter i rest c = .ok (edits, c')) : c.Decodes points filter i edits c' := by
  induction rest generalizing i c edits with
  | nil =>
    obtain ⟨rfl, rfl⟩ := Prod.mk.inj (Except.ok.inj h)
    have hunread (m : ℕ) (hm : i ≤ m) (p : Point) (n : ℕ) (o : Operator) (k : ℕ) :
        ¬ c.Reads points m p n o k := by
      intro hreads
      obtain ⟨hlt, -⟩ := List.getElem?_eq_some_iff.mp hreads.point
      have := List.drop_eq_nil_iff.mp hrest
      omega
    refine ⟨fun e => iff_of_false List.not_mem_nil ?_, rfl, fun _ _ => rfl, fun m hm =>
      settles_of_not_reads (hunread m hm) rfl⟩
    rintro ⟨hle, he⟩
    obtain ⟨p, k, hreads⟩ := he.reads
    exact hunread _ hle _ _ _ _ hreads
  | cons p ps ih =>
    have hp : points[i]? = some p := by
      rw [← Nat.add_zero i, ← List.getElem?_drop, hrest, List.getElem?_cons_zero]
    have hps : points.drop (i + 1) = ps := by
      rw [← List.tail_drop, hrest, List.tail_cons]
    obtain ⟨hi, -⟩ := List.getElem?_eq_some_iff.mp hp
    unfold decodeFrom at h
    split at h
    · next hnone =>
      rw [List.getElem?_eq_none_iff, hc.active] at hnone
      omega
    · next hoff => exact (ih hps hc h).skip hoff
    · next hon =>
      obtain ⟨edit, c₁, hgene, hedit, hsettles, hoperators, hothers⟩ :=
        decodeGene_settles hc hp (hequipped p (List.mem_of_getElem? hp)) hon filter
      obtain ⟨⟨edit', c₁'⟩, hgene', h⟩ := bind_eq_ok_iff.mp h
      cases hgene.symm.trans hgene'
      obtain ⟨⟨later, c₂⟩, hlater, h⟩ := bind_eq_ok_iff.mp h
      cases h
      have hc₁ : c₁.Shaped points.length := (yields_decodeGene hc hi filter p).of_eq hgene
      exact .step hedit hsettles hoperators hothers (ih hps hc₁ hlater)

/-- One edit is kept rather than another: its point is more suspicious in the total order, or just
as suspicious and earlier. -/
def AppliedEdit.Preferred (points : List Point) (e e' : AppliedEdit) : Prop :=
  ∃ p p', points[e.point]? = some p ∧ points[e'.point]? = some p' ∧
    (floatPlace p'.suspiciousness < floatPlace p.suspiciousness ∨
      floatPlace p.suspiciousness = floatPlace p'.suspiciousness ∧ e.point < e'.point)

/-- A limit keeps as many edits as it allows, in their order, and prefers those that it keeps. -/
structure Retains (points : List Point) (limit : Option ℕ) (edits kept : List AppliedEdit) :
    Prop where
  sublist : kept.Sublist edits
  length : kept.length = limit.elim edits.length fun most => min most edits.length
  preferred : ∀ e ∈ kept, ∀ e' ∈ edits, e' ∉ kept → e.Preferred points e'

theorem keptBefore_iff {a b : AppliedEdit} : keptBefore points a b = true ↔
    floatPlace (editSuspicion points b) < floatPlace (editSuspicion points a) ∨
      floatPlace (editSuspicion points a) = floatPlace (editSuspicion points b) ∧
        a.point ≤ b.point := by
  have hcompare : Scalar.compareTotal (editSuspicion points b) (editSuspicion points a) =
      compare (floatPlace (editSuspicion points b)) (floatPlace (editSuspicion points a)) := rfl
  unfold keptBefore
  rw [hcompare]
  obtain hlt | heq | hgt := lt_trichotomy (floatPlace (editSuspicion points b))
    (floatPlace (editSuspicion points a))
  · simp [compare_lt_iff_lt.mpr hlt, hlt]
  · simp [heq]
  · simp [compare_gt_iff_gt.mpr hgt, hgt.not_gt, hgt.ne]

theorem AppliedEdit.preferred_of_keptBefore {a b : AppliedEdit} {p q : Point}
    (hp : points[a.point]? = some p) (hq : points[b.point]? = some q) (hne : a.point ≠ b.point)
    (h : keptBefore points a b = true) : a.Preferred points b := by
  rw [keptBefore_iff, editSuspicion, editSuspicion, hp, hq] at h
  dsimp only at h
  exact ⟨p, q, hp, hq, by omega⟩

theorem pairwise_mergeSort_keptBefore (points : List Point) (edits : List AppliedEdit) :
    (edits.mergeSort (keptBefore points)).Pairwise fun a b => keptBefore points a b = true := by
  apply List.pairwise_mergeSort
  · intro a b d hab hbd
    rw [keptBefore_iff] at hab hbd ⊢
    omega
  · intro a b
    rw [Bool.or_eq_true, keptBefore_iff, keptBefore_iff]
    omega

theorem pairwise_mergeSort_point (edits : List AppliedEdit) :
    (edits.mergeSort fun a b => decide (a.point ≤ b.point)).Pairwise
      fun a b => a.point ≤ b.point := by
  refine (List.pairwise_mergeSort ?_ ?_ edits).imp of_decide_eq_true
  · intro a b d hab hbd
    simp only [decide_eq_true_eq] at hab hbd ⊢
    omega
  · intro a b
    simp only [Bool.or_eq_true, decide_eq_true_eq]
    omega

theorem nodup_map_point (h : edits.Pairwise fun a b => a.point < b.point) :
    (edits.map (·.point)).Nodup :=
  List.pairwise_map.mpr (h.imp Nat.ne_of_lt)

/-- Some of the edits that stand in the order of their points, put into that order again. -/
theorem sublist_of_pairwise_point (hedits : edits.Pairwise fun a b => a.point < b.point)
    (hkept : kept.Pairwise fun a b => a.point ≤ b.point) (h : kept.Subperm edits) :
    kept.Sublist edits := by
  have hpoints : (kept.map (·.point)).Nodup := by
    obtain ⟨few, hperm, hsub⟩ := h
    exact (hperm.map _).nodup_iff.mp ((nodup_map_point hedits).sublist (hsub.map _))
  have hstrict : kept.Pairwise fun a b => a.point < b.point := by
    refine (hkept.and (List.pairwise_map.mp hpoints)).imp ?_
    rintro a b ⟨hle, hne⟩
    exact Nat.lt_of_le_of_ne hle hne
  have : Std.Antisymm fun a b : AppliedEdit => a.point < b.point := ⟨fun a b hab hba => by omega⟩
  exact List.sublist_of_subperm_of_pairwise h hstrict hedits

theorem foldl_switchOff_numbers (edits : List AppliedEdit) (c : Chromosome) :
    (edits.foldl (fun c e => c.switchOff e.point) c).operatorIndex = c.operatorIndex ∧
      (edits.foldl (fun c e => c.switchOff e.point) c).ingredientIndex = c.ingredientIndex := by
  induction edits generalizing c with
  | nil => exact ⟨rfl, rfl⟩
  | cons e edits ih => exact ih (c.switchOff e.point)

theorem limitEdits_numbers {limit : ℕ} (h : limitEdits points limit edits c = (kept, c')) :
    c'.operatorIndex = c.operatorIndex ∧ c'.ingredientIndex = c.ingredientIndex := by
  unfold limitEdits at h
  split at h
  · cases h
    exact ⟨rfl, rfl⟩
  · cases h
    exact foldl_switchOff_numbers _ c

/-- A limit keeps the preferred edits. -/
theorem limitEdits_retains {limit : ℕ} (hread : ∀ e ∈ edits, ∃ p, points[e.point]? = some p)
    (hedits : edits.Pairwise fun a b => a.point < b.point)
    (h : limitEdits points limit edits c = (kept, c')) :
    Retains points (some limit) edits kept := by
  unfold limitEdits at h
  split at h
  · next hle =>
    cases h
    exact ⟨List.Sublist.refl edits, (Nat.min_eq_right hle).symm,
      fun _ _ e' he' hnot => absurd he' hnot⟩
  · next hmore =>
    cases h
    have hsorted := pairwise_mergeSort_keptBefore points edits
    have hperm := List.mergeSort_perm edits (keptBefore points)
    generalize edits.mergeSort (keptBefore points) = sorted at hsorted hperm
    have htaken := List.mergeSort_perm (sorted.take limit) fun a b => decide (a.point ≤ b.point)
    have hlength : sorted.length = edits.length := hperm.length_eq
    refine ⟨?_, ?_, fun e he e' he' hnot => ?_⟩
    · apply sublist_of_pairwise_point hedits (pairwise_mergeSort_point _)
      exact htaken.subperm.trans ((List.take_sublist limit sorted).subperm.trans hperm.subperm)
    · rw [List.length_mergeSort, List.length_take, hlength]
      rfl
    · have he : e ∈ sorted.take limit := htaken.mem_iff.mp he
      have hdropped : e' ∈ sorted.drop limit := by
        have hmem : e' ∈ sorted.take limit ++ sorted.drop limit := by
          rw [List.take_append_drop]
          exact hperm.mem_iff.mpr he'
        rcases List.mem_append.mp hmem with htake | hdrop
        · exact absurd (htaken.mem_iff.mpr htake) hnot
        · exact hdrop
      rw [← List.take_append_drop limit sorted] at hsorted
      have hbefore := (List.pairwise_append.mp hsorted).2.2 e he e' hdropped
      have hmember : e ∈ edits := hperm.mem_iff.mp (List.mem_of_mem_take he)
      have hdistinct : e.point ≠ e'.point := by
        intro heq
        have hsame : e = e' := List.inj_on_of_nodup_map (nodup_map_point hedits) hmember he' heq
        exact hnot (htaken.mem_iff.mpr (hsame ▸ he))
      obtain ⟨p, hp⟩ := hread e hmember
      obtain ⟨q, hq⟩ := hread e' he'
      exact AppliedEdit.preferred_of_keptBefore hp hq hdistinct hbefore

/-- What a selection makes of a chromosome: the genes of the kept edits are on and no others, and
the ingredients of redirected genes are replaced. -/
structure Chromosome.Rewritten (c : Chromosome) (points : List Point) (filter : Bool)
    (kept : List AppliedEdit) (c' : Chromosome) : Prop where
  operators : c'.operatorIndex = c.operatorIndex
  ingredients : ∀ i, c.Settles points filter i c'
  active : ∀ i, c'.active[i]? =
    c.active[i]?.map fun on => on && decide (i ∈ kept.map (·.point))

/-- Where some of the active genes stay active, the others are switched off. -/
theorem Chromosome.active_of_activePoints {size : ℕ} {on : List ℕ} (hc : c.Shaped size)
    (hc' : c'.Shaped size) (hon : c'.activePoints = on)
    (hwere : ∀ i ∈ on, c.active[i]? = some true) (i : ℕ) :
    c'.active[i]? = c.active[i]?.map fun was => was && decide (i ∈ on) := by
  have hactive : c'.active[i]? = some true ↔ i ∈ on := by rw [← hon, mem_activePoints]
  by_cases hi : i < size
  · have hthere : i < c.active.length := hc.active ▸ hi
    have hthere' : i < c'.active.length := hc'.active ▸ hi
    rw [List.getElem?_eq_getElem hthere'] at hactive ⊢
    by_cases hmem : i ∈ on
    · rw [hactive.mpr hmem, hwere i hmem]
      simp [hmem]
    · have hoff : c'.active[i] = false := by
        simpa using mt hactive.mp hmem
      rw [hoff, List.getElem?_eq_getElem hthere]
      simp [hmem]
  · rw [List.getElem?_eq_none (by rw [hc'.active]; omega),
      List.getElem?_eq_none (by rw [hc.active]; omega)]
    rfl

/-- A selection retains some of the proposals and rewrites the chromosome accordingly. -/
theorem selectEdits_proposals {limit : Option ℕ} (hequipped : ∀ p ∈ points, p.Equipped)
    (hc : c.Shaped points.length) (h : selectEdits points filter limit c = .ok (kept, c')) :
    ∃ all, (all.map (·.point)).Pairwise (· < ·) ∧ (∀ e, e ∈ all ↔ c.Proposes points filter e) ∧
      Retains points limit all kept ∧ c.Rewritten points filter kept c' := by
  have hc' : c'.Shaped points.length := (yields_selectEdits hc filter limit).of_eq h
  obtain ⟨⟨all, c₁⟩, hdecoded, hlimited⟩ := bind_eq_ok_iff.mp h
  have hdecodes := decodeFrom_decodes List.drop_zero hc hequipped hdecoded
  have hall : (all.map (·.point)).Pairwise (· < ·) := by
    rw [(decodeFrom_spec (by rw [hc.active, Nat.zero_add]) hdecoded).2.2]
    exact pairwise_activeFrom _ _
  have hmem (e : AppliedEdit) : e ∈ all ↔ c.Proposes points filter e := by
    simpa using hdecodes.mem e
  have hretains : Retains points limit all kept ∧ c'.operatorIndex = c₁.operatorIndex ∧
      c'.ingredientIndex = c₁.ingredientIndex := by
    cases limit with
    | none =>
      cases hlimited
      exact ⟨⟨List.Sublist.refl _, rfl, fun _ _ e' he' hnot => absurd he' hnot⟩, rfl, rfl⟩
    | some limit =>
      have hlimited := Except.ok.inj hlimited
      refine ⟨limitEdits_retains ?_ (List.pairwise_map.mp hall) hlimited,
        limitEdits_numbers hlimited⟩
      intro e he
      obtain ⟨p, k, hreads⟩ := ((hmem e).mp he).reads
      exact ⟨p, hreads.point⟩
  obtain ⟨hkept, hoperators, hingredients⟩ := hretains
  refine ⟨all, hall, hmem, hkept, ?_, fun i => ?_, ?_⟩
  · rw [hoperators, hdecodes.operators]
  · have hsettled := hdecodes.settled i (Nat.zero_le i)
    exact ⟨fun j hj => hingredients ▸ hsettled.redirected j hj,
      fun hnone => hingredients ▸ hsettled.kept hnone⟩
  · apply active_of_activePoints hc hc' (selectEdits_spec hc h).1
    intro i hi
    obtain ⟨e, he, rfl⟩ := List.mem_map.mp hi
    obtain ⟨p, k, hreads⟩ := ((hmem e).mp (hkept.sublist.subset he)).reads
    exact hreads.active

/-- After a selection the genes of a proposal stand for it as they are. -/
theorem Chromosome.Proposes.encoded {p : Point} {e : AppliedEdit}
    (h : c.Proposes points filter e) (hp : points[e.point]? = some p)
    (hc' : c.Rewritten points filter kept c') : e.Encoded p c' := by
  have hsettles := hc'.ingredients e.point
  cases h with
  | @deletion i n k q h =>
    obtain rfl := Option.some.inj (h.point.symm.trans hp)
    exact ⟨hc'.operators ▸ h.number, nofun⟩
  | @own i n k q o x h ho hx hother =>
    obtain rfl := Option.some.inj (h.point.symm.trans hp)
    have hkept := hsettles.kept (h.not_redirects fun hfilter _ x' hx' => by
      obtain rfl := Option.some.inj (hx.symm.trans hx')
      exact hother hfilter)
    refine ⟨hc'.operators ▸ h.number, fun m hm => ?_⟩
    obtain rfl := Option.some.inj hm
    obtain ⟨gene, hgene, hmod⟩ := h.ingredient
    exact ⟨gene, hkept.trans hgene, hmod⟩
  | @redirected i n k j q o x y h ho hfilter hx hrepeats hj hy =>
    obtain rfl := Option.some.inj (h.point.symm.trans hp)
    refine ⟨hc'.operators ▸ h.number, fun m hm => ?_⟩
    obtain rfl := Option.some.inj hm
    have hredirects : c.Redirects points filter i j :=
      ⟨hfilter, q, n, o, k, x, h, ho, hx, hrepeats, hj⟩
    obtain ⟨hlt, -⟩ := List.getElem?_eq_some_iff.mp hy
    exact ⟨j, hsettles.redirected j hredirects, Nat.mod_eq_of_lt hlt⟩

/-- Selecting again from the chromosome that a selection left gives the same edits and leaves it as
it is. -/
theorem selectEdits_again {limit : Option ℕ} (hequipped : ∀ p ∈ points, p.Equipped)
    (hc : c.Shaped points.length) (h : selectEdits points filter limit c = .ok (kept, c')) :
    selectEdits points filter limit c' = .ok (kept, c') := by
  have hc' : c'.Shaped points.length := (yields_selectEdits hc filter limit).of_eq h
  obtain ⟨all, -, hmem, hretains, hrewritten⟩ := selectEdits_proposals hequipped hc h
  apply (selected_of_selectEdits hc h).replay hc'.active (selectEdits_spec hc h).1
  intro e he p hp _
  exact ((hmem e).mp (hretains.sublist.subset he)).encoded hp hrewritten

/-- Decoding follows its reference. For the model of a catalog and genes with any numbers, the
edits that the genes stand for are the proposals of the chromosome, in the order of their points; a
selection returns them all, or as many as the limit allows of those that it prefers, in that order.
It changes nothing in the chromosome but the switches of the points that it drops, which it turns
off, and the ingredients of the points that the filter redirects. -/
theorem selection_follows_proposals {catalog : List Point} {maxPoints : ℕ} {g g' : Random}
    {model : ProgramModel}
    (hmodel : ProgramModel.ofCatalog catalog maxPoints g = .ok (model, g'))
    (hc : c.Shaped model.points.length) (filter : Bool) (limit : Option ℕ) :
    ∃ all kept c', (all.map (·.point)).Pairwise (· < ·) ∧
      (∀ e, e ∈ all ↔ c.Proposes model.points filter e) ∧
      selectEdits model.points filter limit c = .ok (kept, c') ∧
      Retains model.points limit all kept ∧ c.Rewritten model.points filter kept c' := by
  obtain ⟨⟨kept, c'⟩, hselected, -⟩ := Chromosome.yields_selectEdits hc filter limit
  obtain ⟨all, hall, hmem, hretains, hrewritten⟩ :=
    selectEdits_proposals (ProgramModel.equipped hmodel) hc hselected
  exact ⟨all, kept, c', hall, hmem, hselected, hretains, hrewritten⟩

/-- Two lines, the first with an ingredient that repeats it, the second of no number as score, which
comes before all others in the total order. -/
def unscoredCatalog : List Point :=
  [⟨⟨"A.java", 1⟩, "x++;", 0.5, [⟨0, " x++; "⟩, ⟨1, "x--;"⟩], [.replace]⟩,
    ⟨⟨"A.java", 2⟩, "y++;", 0.0 / 0.0, [], [.insertBefore]⟩]

/-- With one edit allowed, the first line is redirected to its other ingredient and then dropped. -/
theorem selection_follows_proposals_of_unscored :
    ∃ model, ProgramModel.ofCatalog unscoredCatalog 40 (Random.ofSeed 0) =
        .ok (model, Random.ofSeed 0) ∧
      (⟨[true, true], [6, 5], [2, 9]⟩ : Chromosome).Shaped model.points.length ∧
      ∃ kept c', selectEdits model.points true (some 1) ⟨[true, true], [6, 5], [2, 9]⟩ =
          .ok (kept, c') ∧
        kept.map (·.point) = [1] ∧ c'.active[0]? = some false ∧
          c'.ingredientIndex[0]? = some 1 := by
  let c : Chromosome := ⟨[true, true], [6, 5], [2, 9]⟩
  let model : ProgramModel := ⟨unscoredCatalog.map Point.normalize⟩
  have hmodel : ProgramModel.ofCatalog unscoredCatalog 40 (Random.ofSeed 0) =
      .ok (model, Random.ofSeed 0) := rfl
  have hshaped : c.Shaped model.points.length := ⟨rfl, rfl, rfl⟩
  have hredirects : c.Redirects model.points true 0 1 := by
    refine ⟨rfl, _, 0, .replace, 0, ⟨0, " x++; "⟩, ⟨rfl, rfl, ⟨6, rfl, rfl⟩, rfl, ⟨2, rfl, rfl⟩⟩,
      by decide, rfl, by decide +kernel, ⟨⟨1, "x--;"⟩, rfl, by decide +kernel⟩, ?_⟩
    rintro (_ | j) ⟨y, hy, hother⟩
    · cases hy
      exact absurd (by decide +kernel) hother
    · omega
  have hsecond : c.Reads model.points 1 model.points[1] 0 .delete 9 :=
    ⟨rfl, rfl, ⟨5, rfl, Nat.mod_one 5⟩, rfl, ⟨9, rfl, Nat.mod_zero 9⟩⟩
  have hproposed : c.Proposes model.points true _ := .deletion hsecond
  obtain ⟨all, kept, c', hall, hmem, hselected, hkept, hrewritten⟩ :=
    selection_follows_proposals hmodel hshaped true (some 1)
  have hlast := (hmem _).mpr hproposed
  have hpoints : kept.map (·.point) = [1] := by
    have hone : kept.length = 1 := by
      rw [hkept.length]
      exact Nat.min_eq_left (List.length_pos_of_mem hlast)
    obtain ⟨e, rfl⟩ := List.length_eq_one_iff.mp hone
    by_contra hne
    have hother : e.point ≠ 1 := fun hpoint => hne (by rw [List.map_singleton, hpoint])
    obtain ⟨p, p', hp, hp', hbefore⟩ := hkept.preferred e (List.mem_singleton_self e) _ hlast
      (by
        rw [List.mem_singleton]
        rintro rfl
        exact hother rfl)
    have hfirst : e.point = 0 := by
      obtain ⟨hlt, -⟩ := List.getElem?_eq_some_iff.mp hp
      have hlt : e.point < 2 := hlt
      omega
    rw [hfirst] at hp
    cases hp
    cases hp'
    have hscores : floatPlace 0.5 < floatPlace (0.0 / 0.0) := by decide +kernel
    rcases hbefore with hlt | ⟨heq, -⟩
    · exact hscores.not_gt hlt
    · exact hscores.ne heq
  refine ⟨model, hmodel, hshaped, kept, c', hselected, hpoints, ?_,
    (hrewritten.ingredients 0).redirected 1 hredirects⟩
  rw [hrewritten.active 0, hpoints]
  rfl

end Selections

end PatchSearch
