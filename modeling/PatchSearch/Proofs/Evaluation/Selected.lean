import PatchSearch.Proofs.Evaluation.Simulation
import PatchSearch.Proofs.Genome.Shape
import PatchSearch.Proofs.Pareto.Layers

/-!
The selected edits and the chromosome that says exactly them. Decoding goes through the points in
order and either emits the edit of a point or switches its gene off; an edit limit drops edits and
switches their genes off. So after a selection the active genes are those of the selected edits,
in order, and whatever an evaluation comes to, it has counted these edits and applied no others.
-/
namespace PatchSearch

namespace Chromosome

theorem mem_activeFrom {i j : Nat} {as : List Bool} :
    j ∈ activeFrom i as ↔ i ≤ j ∧ as[j - i]? = some true := by
  induction as generalizing i with
  | nil => simp [activeFrom]
  | cons a as ih =>
    have htail : j ∈ activeFrom (i + 1) as ↔ i < j ∧ (a :: as)[j - i]? = some true := by
      rw [ih]
      refine and_congr_right fun hlt => ?_
      obtain ⟨k, rfl⟩ := Nat.exists_eq_add_of_lt hlt
      have hnext : i + k + 1 - (i + 1) = k := by omega
      have hhere : i + k + 1 - i = k + 1 := by omega
      rw [hnext, hhere, List.getElem?_cons_succ]
    unfold activeFrom
    split
    · next ha =>
      rw [List.mem_cons, htail]
      constructor
      · rintro (rfl | ⟨hlt, hj⟩)
        · exact ⟨le_rfl, by simp [ha]⟩
        · exact ⟨hlt.le, hj⟩
      · rintro ⟨hle, hj⟩
        exact hle.eq_or_lt.imp Eq.symm fun hlt => ⟨hlt, hj⟩
    · next ha =>
      rw [htail]
      refine ⟨fun h => ⟨h.1.le, h.2⟩, fun ⟨hle, hj⟩ => ⟨hle.lt_of_ne ?_, hj⟩⟩
      rintro rfl
      simp [ha] at hj

/-- The active points are those whose switch is on. -/
theorem mem_activePoints {c : Chromosome} {i : Nat} :
    i ∈ c.activePoints ↔ c.active[i]? = some true := by
  simp [activePoints, mem_activeFrom]

theorem pairwise_activeFrom (i : Nat) (as : List Bool) :
    (activeFrom i as).Pairwise (· < ·) := by
  induction as generalizing i with
  | nil => exact List.Pairwise.nil
  | cons a as ih =>
    unfold activeFrom
    split
    · refine List.Pairwise.cons (fun j hj => ?_) (ih (i + 1))
      exact (mem_activeFrom.mp hj).1
    · exact ih (i + 1)

theorem pairwise_activePoints (c : Chromosome) : c.activePoints.Pairwise (· < ·) :=
  pairwise_activeFrom 0 c.active

theorem length_activeFrom (i : Nat) (as : List Bool) :
    (activeFrom i as).length = as.count true := by
  induction as generalizing i with
  | nil => rfl
  | cons a as ih => cases a <;> simp [activeFrom, ih]

theorem length_activePoints (c : Chromosome) : c.activePoints.length = c.activeCount :=
  length_activeFrom 0 c.active

/-- After switching the genes of some edits off, the other active genes are left. -/
theorem mem_activePoints_foldl_switchOff {c : Chromosome} (edits : List AppliedEdit) {i : Nat} :
    i ∈ (edits.foldl (fun c e => c.switchOff e.point) c).activePoints ↔
      i ∈ c.activePoints ∧ i ∉ edits.map (·.point) := by
  induction edits generalizing c with
  | nil => simp
  | cons e es ih =>
    have hoff : i ∈ (c.switchOff e.point).activePoints ↔ i ∈ c.activePoints ∧ i ≠ e.point := by
      rw [mem_activePoints, mem_activePoints]
      unfold switchOff
      by_cases hi : i = e.point
      · subst hi
        simp [List.getElem?_set]
      · simp [hi, Ne.symm hi]
    rw [List.foldl_cons, ih, hoff, List.map_cons, List.mem_cons, not_or, and_assoc]

end Chromosome

open Chromosome

section Decoding

variable {filter : Bool} {c c' : Chromosome} {i : Nat}

/-- Either the edit of a gene is emitted and the switches stay, or the gene is switched off. -/
theorem decodeGene_spec {p : Point} {edit : Option AppliedEdit}
    (h : decodeGene filter c i p = .ok (edit, c')) :
    (∃ e, edit = some e ∧ e.point = i ∧ c'.active = c.active) ∨
      edit = none ∧ c' = c.switchOff i := by
  obtain hoff | ⟨number, o, k, -, -, -, hresult⟩ := decodeGene_cases h
  · exact Or.inr hoff
  · split at hresult
    · unfold filterEdit at hresult
      split at hresult
      · cases hresult
        exact Or.inl ⟨_, rfl, rfl, rfl⟩
      · cases hresult
        exact Or.inl ⟨_, rfl, rfl, rfl⟩
      · cases hresult
        exact Or.inr ⟨rfl, rfl⟩
    · cases hresult
      exact Or.inl ⟨_, rfl, rfl, rfl⟩

/-- Decoding from a gene on leaves the switches before it, and those that are on from there on are
the points of the edits. -/
theorem decodeFrom_spec {points : List Point} {edits : List AppliedEdit}
    (hlength : c.active.length = i + points.length)
    (h : decodeFrom filter i points c = .ok (edits, c')) :
    c'.active.length = c.active.length ∧ c'.active.take i = c.active.take i ∧
      edits.map (·.point) = activeFrom i (c'.active.drop i) := by
  induction points generalizing i c edits with
  | nil =>
    cases h
    have hnone : c'.active.drop i = [] := List.drop_of_length_le hlength.le
    exact ⟨rfl, rfl, by rw [hnone]; rfl⟩
  | cons p ps ih =>
    rw [List.length_cons] at hlength
    have hi : i < c.active.length := by omega
    -- what the rest of the points make of a chromosome whose gene `i` is done
    have hnext {c₁ : Chromosome} {rest : List AppliedEdit}
        (hactive : c₁.active.length = c.active.length)
        (hrest : decodeFrom filter (i + 1) ps c₁ = .ok (rest, c')) :
        c'.active.length = c.active.length ∧ c'.active.take i = c₁.active.take i ∧
          c'.active[i]? = c₁.active[i]? ∧
          rest.map (·.point) = activeFrom (i + 1) (c'.active.drop (i + 1)) := by
      obtain ⟨hsize, htake, hpoints⟩ := ih (by omega) hrest
      refine ⟨hsize.trans hactive, ?_, ?_, hpoints⟩
      · have hprefix := congrArg (List.take i) htake
        rwa [List.take_take, List.take_take, Nat.min_eq_left (Nat.le_succ i)] at hprefix
      · have hentry := congrArg (·[i]?) htake
        simpa [List.getElem?_take_of_lt (Nat.lt_succ_self i)] using hentry
    have hdrop {a : Bool} (ha : c'.active[i]? = some a) :
        c'.active.drop i = a :: c'.active.drop (i + 1) := by
      obtain ⟨hlt, rfl⟩ := List.getElem?_eq_some_iff.mp ha
      exact List.drop_eq_getElem_cons hlt
    unfold decodeFrom at h
    split at h
    · next hnone =>
      rw [List.getElem?_eq_none_iff] at hnone
      omega
    · next hoff =>
      obtain ⟨hsize, htake, hentry, hpoints⟩ := hnext rfl h
      refine ⟨hsize, htake, ?_⟩
      rw [hpoints, hdrop (hentry.trans hoff), activeFrom, if_neg Bool.false_ne_true]
    · next hon =>
      obtain ⟨⟨edit, c₁⟩, hgene, h⟩ := bind_eq_ok_iff.mp h
      obtain ⟨⟨rest, c₂⟩, hrest, h⟩ := bind_eq_ok_iff.mp h
      cases h
      obtain ⟨e, rfl, rfl, hactive⟩ | ⟨rfl, rfl⟩ := decodeGene_spec hgene
      · obtain ⟨hsize, htake, hentry, hpoints⟩ := hnext (by rw [hactive]) hrest
        rw [hactive] at htake hentry
        refine ⟨hsize, htake, ?_⟩
        rw [hdrop (hentry.trans hon), activeFrom, if_pos rfl, ← hpoints]
        rfl
      · obtain ⟨hsize, htake, hentry, hpoints⟩ := hnext (List.length_set ..) hrest
        have hset : (c.switchOff i).active[i]? = some false := by
          simp [switchOff, hi]
        refine ⟨hsize, htake.trans (List.take_set_of_le le_rfl), ?_⟩
        rw [hdrop (hentry.trans hset), activeFrom, if_neg Bool.false_ne_true, ← hpoints]
        rfl

/-- Under a limit the kept edits and the active genes go on to agree, and the limit is kept. -/
theorem limitEdits_spec {points : List Point} {limit : Nat} {edits kept : List AppliedEdit}
    (hpoints : c.activePoints = edits.map (·.point))
    (h : limitEdits points limit edits c = (kept, c')) :
    c'.activePoints = kept.map (·.point) ∧ kept.length ≤ limit := by
  unfold limitEdits at h
  split at h
  · next hle =>
    cases h
    exact ⟨hpoints, hle⟩
  · cases h
    generalize hsorted : edits.mergeSort (keptBefore points) = sorted
    have hperm : (sorted.map (·.point)).Perm c.activePoints := by
      rw [hpoints, ← hsorted]
      exact (List.mergeSort_perm edits _).map _
    have hnodup : (sorted.map (·.point)).Nodup :=
      hperm.nodup_iff.mpr (c.pairwise_activePoints.imp Nat.ne_of_lt)
    rw [← List.take_append_drop limit sorted, List.map_append, List.nodup_append'] at hnodup
    obtain ⟨htaken, -, hdisjoint⟩ := hnodup
    set off := (sorted.drop limit).foldl (fun c e => c.switchOff e.point) c
    have hsame : off.activePoints.Perm ((sorted.take limit).map (·.point)) := by
      rw [List.perm_ext_iff_of_nodup (off.pairwise_activePoints.imp Nat.ne_of_lt) htaken]
      intro i
      rw [mem_activePoints_foldl_switchOff, ← hperm.mem_iff]
      nth_rewrite 1 [← List.take_append_drop limit sorted]
      rw [List.map_append, List.mem_append]
      refine ⟨fun ⟨hmem, hnot⟩ => hmem.resolve_right hnot, fun hmem => ⟨Or.inl hmem, ?_⟩⟩
      exact fun hdropped => hdisjoint hmem hdropped
    have hmerged := List.mergeSort_perm (sorted.take limit) fun a b => decide (a.point ≤ b.point)
    refine ⟨?_, ?_⟩
    · refine (hsame.trans (hmerged.map _).symm).eq_of_pairwise (fun _ _ _ _ => Nat.le_antisymm)
        (off.pairwise_activePoints.imp Nat.le_of_lt) ?_
      refine List.pairwise_map.mpr ?_
      refine (List.pairwise_mergeSort ?_ ?_ _).imp fun h => of_decide_eq_true h
      · intro a b d hab hbd
        simp only [decide_eq_true_eq] at hab hbd ⊢
        omega
      · intro a b
        simp only [Bool.or_eq_true, decide_eq_true_eq]
        omega
    · rw [List.length_mergeSort]
      exact List.length_take_le limit sorted

/-- After a selection the active genes are those of the selected edits, in order, and there are
no more of them than the limit allows. -/
theorem selectEdits_spec {points : List Point} {limit : Option Nat} {edits : List AppliedEdit}
    (hc : c.Shaped points.length) (h : selectEdits points filter limit c = .ok (edits, c')) :
    c'.activePoints = edits.map (·.point) ∧ ∀ most, limit = some most → edits.length ≤ most := by
  obtain ⟨⟨decoded, c₁⟩, hdecoded, h⟩ := bind_eq_ok_iff.mp h
  obtain ⟨-, -, hpoints⟩ := decodeFrom_spec (by rw [hc.active, Nat.zero_add]) hdecoded
  rw [List.drop_zero] at hpoints
  cases limit with
  | none =>
    cases h
    exact ⟨hpoints.symm, nofun⟩
  | some limit =>
    obtain ⟨hkept, hlimit⟩ := limitEdits_spec hpoints.symm (Except.ok.inj h)
    refine ⟨hkept, fun most hmost => ?_⟩
    obtain rfl := Option.some.inj hmost
    exact hlimit

theorem length_decodeFrom_le {points : List Point} {edits : List AppliedEdit}
    (h : decodeFrom filter i points c = .ok (edits, c')) :
    edits.length ≤ points.length := by
  induction points generalizing i c edits with
  | nil =>
    cases h
    exact Nat.le_refl 0
  | cons p points ih =>
    unfold decodeFrom at h
    split at h
    · cases h
      exact Nat.zero_le _
    · exact Nat.le_succ_of_le (ih h)
    · obtain ⟨⟨edit, c₁⟩, -, h⟩ := bind_eq_ok_iff.mp h
      obtain ⟨⟨rest, c₂⟩, hrest, h⟩ := bind_eq_ok_iff.mp h
      cases h
      have hone : edit.toList.length ≤ 1 := by
        cases edit <;> simp
      have htail := ih hrest
      rw [List.length_append, List.length_cons]
      omega

/-- The selected edits are among those that the genes stand for, none more often than there. -/
theorem selectEdits_subperm {points : List Point} {limit : Option Nat} {edits : List AppliedEdit}
    (h : selectEdits points filter limit c = .ok (edits, c')) :
    ∃ decoded c₁, decodeFrom filter 0 points c = .ok (decoded, c₁) ∧ edits.Subperm decoded := by
  obtain ⟨⟨decoded, c₁⟩, hdecoded, h⟩ := bind_eq_ok_iff.mp h
  refine ⟨decoded, c₁, hdecoded, ?_⟩
  cases limit with
  | none =>
    cases h
    exact List.Subperm.refl edits
  | some limit =>
    have hlimited : limitEdits points limit decoded c₁ = (edits, c') := Except.ok.inj h
    unfold limitEdits at hlimited
    split at hlimited
    · cases hlimited
      exact List.Subperm.refl edits
    · cases hlimited
      have htaken := (List.take_sublist limit (decoded.mergeSort (keptBefore points))).subperm
      have hsorted := List.mergeSort_perm decoded (keptBefore points)
      exact (List.mergeSort_perm _ _).subperm.trans (htaken.trans hsorted.subperm)

/-- A point has at most one selected edit. -/
theorem length_selectEdits_le {points : List Point} {limit : Option Nat}
    {edits : List AppliedEdit} (h : selectEdits points filter limit c = .ok (edits, c')) :
    edits.length ≤ points.length := by
  obtain ⟨decoded, c₁, hdecoded, hsubperm⟩ := selectEdits_subperm h
  exact hsubperm.length_le.trans (length_decodeFrom_le hdecoded)

end Decoding

section Evaluation

variable {α σ : Type} [Scalar α] {s : Setup} {tools : Toolchain σ}

/-- The patcher answered a selected edit, at the point and with the operator and the ingredient of
that edit, with an edit of the source. -/
def AppliedEdit.Patched (points : List Point) (tools : Toolchain σ) (e : AppliedEdit)
    (edit : Edit) : Prop :=
  ∃ p world, points[e.point]? = some p ∧
    (tools.patch p e.operator (e.ingredientIndex.bind (p.ingredients[·]?)) world).1 = .ok edit

/-- A script has one edit of the source for every selected edit, in order. -/
theorem patched_scriptOf {points : List Point} {edits : List AppliedEdit} {script : List Edit}
    {world world' : σ} (hpoints : ∀ e ∈ edits, e.point < points.length)
    (h : scriptOf tools points edits world = (.ok script, world')) :
    List.Forall₂ (AppliedEdit.Patched points tools) edits script := by
  induction edits generalizing world script with
  | nil =>
    cases h
    exact .nil
  | cons e es ih =>
    have hpoint := List.getElem?_eq_getElem (hpoints e (by simp))
    unfold scriptOf at h
    rw [hpoint] at h
    dsimp only at h
    split at h
    · cases h
    · next edit world₁ hpatch =>
      split at h
      · cases h
      · next rest world₂ hrest =>
        cases h
        refine .cons ⟨_, world, hpoint, ?_⟩ (ih (fun e he => hpoints e (by simp [he])) hrest)
        rw [hpatch]

/-- How an evaluation of selected edits ends, if it does: without a score and with the vector of
candidates that could not be evaluated, or with some edits and the score of a test outcome. -/
theorem evaluateEdits_cases {id : Nat} {edits : List AppliedEdit} {b : Bench σ}
    {evaluation : Evaluation α} (h : (evaluateEdits s tools id edits b).1 = .ok evaluation) :
    (∃ status, evaluation = unscored s id edits.length status) ∨
      edits ≠ [] ∧ ∃ outcome b',
        (∃ artifact b₀, testArtifact α s tools artifact b₀ = (some outcome, b')) ∧
          evaluation = (conclude s tools id edits outcome b').1 := by
  unfold evaluateEdits at h
  dsimp only at h
  split at h
  · exact Or.inl ⟨_, (Except.ok.inj h).symm⟩
  · next hsome =>
    split at h
    · cases h
    · exact Or.inl ⟨_, (Except.ok.inj h).symm⟩
    · split at h
      · exact Or.inl ⟨_, (Except.ok.inj h).symm⟩
      · exact Or.inl ⟨_, (Except.ok.inj h).symm⟩
      · split at h
        · exact Or.inl ⟨_, (Except.ok.inj h).symm⟩
        · next htested =>
          exact Or.inr ⟨fun hnone => hsome (by rw [hnone]; rfl), _, _, ⟨_, _, htested⟩,
            (Except.ok.inj h).symm⟩

theorem evaluateEdits_edits {id : Nat} {edits : List AppliedEdit} {b : Bench σ}
    {evaluation : Evaluation α} (h : (evaluateEdits s tools id edits b).1 = .ok evaluation) :
    evaluation.edits = edits.length := by
  obtain ⟨status, rfl⟩ | ⟨-, outcome, b', -, rfl⟩ := evaluateEdits_cases h
  · rfl
  · rfl

/-- An evaluation that ends has selected edits and evaluated them. -/
theorem evaluate_eq_ok {c c' : Chromosome} {b : Bench σ} {evaluation : Evaluation α}
    (h : (evaluate s tools c b).1 = .ok (evaluation, c')) :
    ∃ edits, selectEdits s.model.points s.config.filterRules s.config.maxEdits c =
        .ok (edits, c') ∧
      (evaluateEdits s tools b.ledger.evaluations edits b.begun).1 = .ok evaluation := by
  unfold evaluate at h
  dsimp only at h
  split at h
  · cases h
  · next edits c₁ hselected =>
    change Except.map (fun evaluation => (evaluation, c₁))
      (evaluateEdits s tools b.ledger.evaluations edits b.begun).1 = _ at h
    obtain ⟨answer, hanswer, hpair⟩ := map_eq_ok_iff.mp h
    cases hpair
    exact ⟨edits, hselected, hanswer⟩

/-- A chromosome and what its evaluation makes of it agree with the edits that are evaluated: the
active points are those of the edits, within the limit; a script has an edit of the source for
each of them; and whatever the evaluation comes to, it returns that chromosome and has counted its
active points. -/
structure Agreement (α : Type) [Scalar α] (s : Setup) (tools : Toolchain σ) (b : Bench σ)
    (c : Chromosome) (edits : List AppliedEdit) (c' : Chromosome) : Prop where
  selected :
    selectEdits s.model.points s.config.filterRules s.config.maxEdits c = .ok (edits, c')
  points : c'.activePoints = edits.map (·.point)
  limited : ∀ most, s.config.maxEdits = some most → c'.activeCount ≤ most
  patched : ∀ script world world',
    scriptOf tools s.model.points edits world = (.ok script, world') →
    List.Forall₂ (AppliedEdit.Patched s.model.points tools) edits script
  evaluated : (evaluate s tools c b : Except Fault (Evaluation α × Chromosome) × Bench σ) =
    ((evaluateEdits s tools b.ledger.evaluations edits b.begun).1.map (·, c'),
      (evaluateEdits (α := α) s tools b.ledger.evaluations edits b.begun).2)
  counted : ∀ (evaluation : Evaluation α) c'',
    (evaluate s tools c b).1 = .ok (evaluation, c'') →
      c'' = c' ∧ evaluation.edits = c'.activeCount

/-- Every chromosome of the right shape agrees with its evaluation. -/
theorem exists_agreement (tools : Toolchain σ) {c : Chromosome}
    (hc : c.Shaped s.model.points.length) (b : Bench σ) :
    ∃ edits c', Agreement α s tools b c edits c' ∧ c'.Shaped s.model.points.length := by
  obtain ⟨⟨edits, c'⟩, hselected, hc'⟩ : Yields (selectEdits s.model.points s.config.filterRules
      s.config.maxEdits c) fun r => r.2.Shaped s.model.points.length :=
    yields_selectEdits hc s.config.filterRules s.config.maxEdits
  obtain ⟨hpoints, hlimit⟩ := selectEdits_spec hc hselected
  have hcount : c'.activeCount = edits.length := by
    rw [← length_activePoints, hpoints, List.length_map]
  have hevaluate : (evaluate s tools c b : Except Fault (Evaluation α × Chromosome) × Bench σ) =
      ((evaluateEdits s tools b.ledger.evaluations edits b.begun).1.map (·, c'),
        (evaluateEdits (α := α) s tools b.ledger.evaluations edits b.begun).2) := by
    unfold evaluate
    rw [hselected]
    rfl
  refine ⟨edits, c', ⟨hselected, hpoints, ?_, ?_, hevaluate, ?_⟩, hc'⟩
  · intro most hmost
    rw [hcount]
    exact hlimit most hmost
  · intro script world world' hscript
    refine patched_scriptOf (fun e he => ?_) hscript
    have hactive : e.point ∈ c'.activePoints := by
      rw [hpoints]
      exact List.mem_map_of_mem he
    obtain ⟨hlt, -⟩ := List.getElem?_eq_some_iff.mp (mem_activePoints.mp hactive)
    rwa [hc'.active] at hlt
  · intro evaluation c'' hok
    obtain ⟨edits', hselected', hanswer⟩ := evaluate_eq_ok hok
    cases hselected.symm.trans hselected'
    exact ⟨rfl, (evaluateEdits_edits hanswer).trans hcount.symm⟩

end Evaluation

end PatchSearch

/-!
The objectives of an evaluation. All evaluations of a run give vectors of one size, as many
objectives as were asked for, unless none were. Two and three objectives begin with the number of
edits. Without novelty one or two objectives end with the fitness, and a candidate that could not
be scored has no fitness and the vector of those that could not be evaluated.
-/
namespace PatchSearch

variable {α σ : Type} [Scalar α] {s : Setup} {tools : Toolchain σ}

/-- The size of the vectors that scores give, for a number of objectives. -/
def scoredSize : Nat → Nat
  | 1 => 1
  | 2 => 2
  | _ => 3

theorem size_plainObjectives (count edits : Nat) (o : TestOutcome) (fitness : α) :
    (plainObjectives count edits o fitness).size = scoredSize count := by
  match count with
  | 0 => rfl
  | 1 => rfl
  | 2 => rfl
  | _ + 3 => rfl

theorem size_novelObjectives (count edits : Nat) (novelty fitness : α) :
    (novelObjectives count edits novelty fitness).size = scoredSize count := by
  match count with
  | 0 => rfl
  | 1 => rfl
  | 2 => rfl
  | _ + 3 => rfl

theorem uniform_sentinel (count : Nat) :
    (Objectives.sentinel count : Objectives α).Uniform (scoredSize count) := by
  match count with
  | 0 => exact Or.inl rfl
  | 1 => exact Or.inr rfl
  | 2 => exact Or.inr rfl
  | n + 3 => exact Or.inr (Nat.min_eq_right (Nat.le_add_left 3 n))

/-- The vector of a score comes from its objectives, or could not be given. -/
theorem modeObjectives_cases (edits : Nat) (o : TestOutcome) (fitness : α) (novelty : Option α) :
    modeObjectives s edits o fitness novelty = Objectives.sentinel s.objectives ∨
      (∃ f, modeObjectives s edits o fitness novelty = plainObjectives s.objectives edits o f) ∨
      ∃ v, modeObjectives s edits o fitness novelty =
        novelObjectives s.objectives edits v fitness := by
  unfold modeObjectives
  split
  · exact Or.inr (Or.inl ⟨_, rfl⟩)
  · exact Or.inr (Or.inl ⟨_, rfl⟩)
  · exact Or.inr (Or.inl ⟨_, rfl⟩)
  · exact Or.inl rfl
  · exact Or.inr (Or.inr ⟨_, rfl⟩)

/-- The vector of an evaluation comes from its objectives, or could not be given. -/
theorem evaluateEdits_objectives {id : Nat} {edits : List AppliedEdit} {b : Bench σ}
    {evaluation : Evaluation α} (h : (evaluateEdits s tools id edits b).1 = .ok evaluation) :
    evaluation.objectives = Objectives.sentinel s.objectives ∨
      (∃ o f, evaluation.objectives = plainObjectives s.objectives edits.length o f) ∨
      ∃ v f, evaluation.objectives = novelObjectives s.objectives edits.length v f := by
  obtain ⟨status, rfl⟩ | ⟨-, outcome, b', -, rfl⟩ := evaluateEdits_cases h
  · exact Or.inl rfl
  · have hmode (fitness : α) (novelty : Option α) :=
      modeObjectives_cases (s := s) edits.length outcome.1 fitness novelty
    exact (hmode _ _).imp_right (Or.imp (fun ⟨f, hf⟩ => ⟨_, f, hf⟩) fun ⟨v, hv⟩ => ⟨v, _, hv⟩)

/-- Every evaluation gives a vector of the one size. -/
theorem evaluateEdits_uniform {id : Nat} {edits : List AppliedEdit} {b : Bench σ}
    {evaluation : Evaluation α} (h : (evaluateEdits s tools id edits b).1 = .ok evaluation) :
    evaluation.objectives.Uniform (scoredSize s.objectives) := by
  obtain hobjectives | ⟨o, f, hobjectives⟩ | ⟨v, f, hobjectives⟩ := evaluateEdits_objectives h <;>
    rw [hobjectives]
  · exact uniform_sentinel _
  · exact Or.inr (size_plainObjectives ..)
  · exact Or.inr (size_novelObjectives ..)

/-- One to three objectives are as many values. -/
theorem evaluateEdits_size {id : Nat} {edits : List AppliedEdit} {b : Bench σ}
    {evaluation : Evaluation α} (h : (evaluateEdits s tools id edits b).1 = .ok evaluation)
    (hone : 1 ≤ s.objectives) (hthree : s.objectives ≤ 3) :
    evaluation.objectives.size = s.objectives := by
  have hscored : scoredSize s.objectives = s.objectives := by
    obtain hcount | hcount | hcount : s.objectives = 1 ∨ s.objectives = 2 ∨ s.objectives = 3 := by
      omega
    all_goals rw [hcount]; rfl
  obtain hobjectives | ⟨o, f, hobjectives⟩ | ⟨v, f, hobjectives⟩ := evaluateEdits_objectives h <;>
    rw [hobjectives]
  · exact Nat.min_eq_left hthree
  · rw [size_plainObjectives, hscored]
  · rw [size_novelObjectives, hscored]

/-- Without novelty one or two objectives end with the fitness, or there is none. -/
theorem evaluateEdits_fitness {id : Nat} {edits : List AppliedEdit} {b : Bench σ}
    {evaluation : Evaluation α} (h : (evaluateEdits s tools id edits b).1 = .ok evaluation)
    (hmode : s.novelty.mode = .none) (hcount : s.objectives = 1 ∨ s.objectives = 2) :
    evaluation.fitness = none ∧ evaluation.objectives = Objectives.sentinel s.objectives ∨
      ∃ f, evaluation.fitness = some f ∧
        evaluation.objectives.toList[s.objectives - 1]? = some f := by
  obtain ⟨status, rfl⟩ | ⟨-, outcome, b', -, rfl⟩ := evaluateEdits_cases h
  · exact Or.inl ⟨rfl, rfl⟩
  · refine Or.inr ⟨_, rfl, ?_⟩
    change (modeObjectives s edits.length outcome.1 _ _).toList[_]? = _
    unfold modeObjectives
    rw [hmode]
    rcases hcount with hcount | hcount <;> rw [hcount] <;> rfl

/-- Two and three objectives of a scored candidate begin with the number of its edits. -/
theorem head?_objectives_conclude {id : Nat} {edits : List AppliedEdit}
    {outcome : TestOutcome × Bool} {b : Bench σ}
    (hobjectives : s.objectives = 2 ∨ s.objectives = 3) :
    let evaluation : Evaluation α := (conclude s tools id edits outcome b).1
    evaluation.objectives = Objectives.sentinel s.objectives ∨
      evaluation.objectives.toList.head? = some (Arithmetic.ofNat edits.length) := by
  have hmode (fitness : α) (novelty : Option α) :
      modeObjectives s edits.length outcome.1 fitness novelty = Objectives.sentinel s.objectives ∨
        (modeObjectives s edits.length outcome.1 fitness novelty).toList.head? =
          some (Arithmetic.ofNat edits.length) := by
    obtain hscore | ⟨f, hscore⟩ | ⟨v, hscore⟩ :=
      modeObjectives_cases (s := s) edits.length outcome.1 fitness novelty
    · exact Or.inl hscore
    · rw [hscore]
      refine Or.inr ?_
      rcases hobjectives with h | h <;> rw [h] <;> rfl
    · rw [hscore]
      refine Or.inr ?_
      rcases hobjectives with h | h <;> rw [h] <;> rfl
  exact hmode _ _

end PatchSearch
