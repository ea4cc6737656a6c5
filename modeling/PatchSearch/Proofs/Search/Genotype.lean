import PatchSearch.Proofs.Evaluation.Decoding
import PatchSearch.Proofs.Search.Members
import PatchSearch.Proofs.Search.WellFormed

/-!
Genotype and applied edits over a run. An evaluation leaves a chromosome whose active points are
those of the edits it applied, and that chromosome stays with its candidate: through crossing and
mutation, which make new candidates, and through the selections, which change ranks only. So what
the front of a run reports of a candidate agrees with its evaluation.
-/
namespace PatchSearch

variable {α σ : Type} [Scalar α]

/-- A candidate is as its evaluation left it: its chromosome agrees with the edits of that
evaluation, which gave it its objectives and its status. -/
def Search.Evaluated (s : Search α σ) (d : Candidate α) : Prop :=
  ∃ (c : Chromosome) (b : Bench σ) (edits : List AppliedEdit) (evaluation : Evaluation α),
    Agreement α s.setup s.tools b c edits d.chromosome ∧
      (evaluate s.setup s.tools c b).1 = .ok (evaluation, d.chromosome) ∧
      d.objectives = evaluation.objectives ∧ d.status = evaluation.status

/-- A candidate is as an evaluation with these edits left it. -/
def Search.Applied (s : Search α σ) (edits : List AppliedEdit) (d : Candidate α) : Prop :=
  ∃ (c : Chromosome) (b : Bench σ) (evaluation : Evaluation α),
    Agreement α s.setup s.tools b c edits d.chromosome ∧
      (evaluate s.setup s.tools c b).1 = .ok (evaluation, d.chromosome) ∧
      d.objectives = evaluation.objectives ∧ d.status = evaluation.status

/-- Two and three objectives begin with the number of edits of the candidate, unless the candidate
could not be evaluated; and there is an edit then. -/
def Candidate.CountsEdits (count : Nat) (d : Candidate α) : Prop :=
  d.objectives = Objectives.sentinel count ∨
    d.objectives.toList.head? = some (Arithmetic.ofNat d.chromosome.activeCount) ∧
      1 ≤ d.chromosome.activeCount

namespace Search

variable {s : Search α σ}

theorem Evaluated.ranked {d d' : Candidate α} (h : s.Evaluated d)
    (heq : d'.unranked = d.unranked) : s.Evaluated d' := by
  rw [Candidate.eq_of_unranked_eq heq]
  exact h

/-- An evaluation of a candidate applies the edits that its chromosome agrees with. -/
theorem applied_of_agreement {edits : List AppliedEdit} {d d' : Candidate α}
    {e e' : Engine α σ} {c' : Chromosome}
    (hagreement : Agreement α s.setup s.tools e.bench d.chromosome edits c')
    (h : s.evaluateCandidate d e = .ok (d', e')) : s.Applied edits d' ∧ d'.chromosome = c' := by
  obtain ⟨evaluation, chromosome, bench, hevaluate, rfl, -⟩ := evaluateCandidate_engine h
  have hanswer := congrArg Prod.fst hevaluate
  obtain rfl := (hagreement.counted _ _ hanswer).1
  exact ⟨⟨d.chromosome, e.bench, evaluation, hagreement, hanswer, rfl, rfl⟩, rfl⟩

theorem evaluated_of_evaluateCandidate {d d' : Candidate α} {e e' : Engine α σ}
    (hd : d.chromosome.Shaped s.setup.model.points.length)
    (h : s.evaluateCandidate d e = .ok (d', e')) : s.Evaluated d' := by
  obtain ⟨edits, c', hagreement, -⟩ := exists_agreement (α := α) s.tools hd e.bench
  obtain ⟨⟨c, b, evaluation, hrest⟩, -⟩ := applied_of_agreement hagreement h
  exact ⟨c, b, edits, evaluation, hrest⟩

/-- The objectives of an evaluated candidate count its active points. -/
theorem Evaluated.countsEdits {d : Candidate α} (h : s.Evaluated d)
    (hobjectives : s.setup.objectives = 2 ∨ s.setup.objectives = 3) :
    d.CountsEdits s.setup.objectives := by
  obtain ⟨c, b, edits, evaluation, hagreement, hanswer, hd, -⟩ := h
  have hcount : d.chromosome.activeCount = edits.length := by
    rw [← Chromosome.length_activePoints, hagreement.points, List.length_map]
  obtain ⟨edits', hselected, hanswer⟩ := evaluate_eq_ok hanswer
  cases hagreement.selected.symm.trans hselected
  unfold Candidate.CountsEdits
  rw [hd, hcount]
  obtain ⟨status, rfl⟩ | ⟨hsome, outcome, b', -, rfl⟩ := evaluateEdits_cases hanswer
  · exact Or.inl rfl
  · exact (head?_objectives_conclude hobjectives).imp id fun hhead =>
      ⟨hhead, List.length_pos_iff.mpr hsome⟩

/-- What evaluations leave may be carried along with what new candidates have. -/
theorem Carries.and_evaluated {New Evaluated P : Candidate α → Prop}
    (h : s.Carries New Evaluated)
    (hP : ∀ {d d' : Candidate α} {e e' : Engine α σ}, New d →
      s.evaluateCandidate d e = .ok (d', e') → P d')
    (hranked : ∀ {d d' : Candidate α}, P d → d'.unranked = d.unranked → P d') :
    s.Carries New fun d => Evaluated d ∧ P d where
  drawn := h.drawn
  bred hpopulation := h.bred fun d hd => (hpopulation d hd).1
  evaluated hd he := ⟨h.evaluated hd he, hP hd he⟩
  ranked hd heq := ⟨h.ranked hd.1 heq, hranked hd.2 heq⟩

end Search

/-- Genotype and applied edits agree. Every evaluation leaves a chromosome that agrees with the
edits it applied. In every course of a run the candidates that were evaluated are as their own
evaluations left them, told apart by their numbers, and the survivors are among them; so with two
or three objectives every report in the front of a run counts its active points, of which there
is one at least, unless the candidate could not be evaluated. -/
theorem genotype_agrees (catalog : List Point) (maxPoints : Nat) (g g' : Random)
    (s : Search α σ)
    (hmodel : ProgramModel.ofCatalog catalog maxPoints g = .ok (s.setup.model, g')) :
    (∀ c b, c.Shaped s.setup.model.points.length →
      ∃ edits c', Agreement α s.setup s.tools b c edits c') ∧
    (∀ e₀ c, s.Reaches e₀ c →
      (c.seen.map (·.id)).Nodup ∧ (∀ d ∈ c.seen, s.Evaluated d) ∧
      (∀ d ∈ c.parents, ∃ d' ∈ c.seen, d.unranked = d'.unranked) ∧
      (c.engine.population = c.parents ∨ c.parents = [] ∧ c.earlier = [])) ∧
    ∀ e₀ r t, s.run e₀ = .ok (r, t) → s.setup.objectives = 2 ∨ s.setup.objectives = 3 →
      ∀ x ∈ r.front,
        x.objectives = (Objectives.sentinel s.setup.objectives : Objectives α).toList ∨
          x.objectives.head? = some (Arithmetic.ofNat x.activePoints.length) ∧
            1 ≤ x.activePoints.length := by
  have hcarries : s.Carries (fun d => d.chromosome.InBounds s.bounds) fun d =>
      d.chromosome.InBounds s.bounds ∧ s.Evaluated d := by
    refine (s.carries_inBounds (ProgramModel.operators_pos hmodel)).and_evaluated
      (fun hd he => ?_) fun hd heq => hd.ranked heq
    have hshaped := hd.shaped
    rw [Search.bounds, ProgramModel.bounds, List.length_map] at hshaped
    exact Search.evaluated_of_evaluateCandidate hshaped he
  refine ⟨?_, ?_, ?_⟩
  · intro c b hc
    obtain ⟨edits, c', hagreement, -⟩ := exists_agreement (α := α) s.tools hc b
    exact ⟨edits, c', hagreement⟩
  · intro e₀ c hc
    have hnumbered := hc.numbered
    have hdistinct := hnumbered.distinct
    rw [List.map_append] at hdistinct
    exact ⟨(List.nodup_append.mp hdistinct).1, fun d hd => ((hc.carried hcarries).seen d hd).2,
      hnumbered.parents, hnumbered.population⟩
  · intro e₀ r t hrun hobjectives x hx
    obtain ⟨c, hc, hrest, rfl, reason, started, rfl⟩ := Search.reaches_run hrun
    obtain ⟨d, hd, rfl⟩ := List.mem_map.mp hx
    have hmember : d ∈ c.parents := by
      rw [← hrest.population]
      exact List.mem_of_mem_filter hd
    have hcounts := ((hc.carried hcarries).parents d hmember).2.countsEdits hobjectives
    change d.objectives.toList = _ ∨ d.objectives.toList.head? =
      some (Arithmetic.ofNat d.chromosome.activePoints.length) ∧
        1 ≤ d.chromosome.activePoints.length
    rw [Chromosome.length_activePoints]
    exact hcounts.imp (congrArg Objectives.toList) id

/-- The front of a run over the two lines counts active points. -/
theorem genotype_agrees_of_twoLines :
    ProgramModel.ofCatalog twoLineCatalog 40 (Random.ofSeed 0) =
        .ok (twoLineSearch.setup.model, Random.ofSeed 0) ∧
      ∃ r t, twoLineSearch.run twoLineEngine = .ok (r, t) ∧ ∀ x ∈ r.front,
        x.objectives = (Objectives.sentinel 2 : Objectives Float).toList ∨
          x.objectives.head? = some (Arithmetic.ofNat x.activePoints.length) ∧
            1 ≤ x.activePoints.length := by
  obtain ⟨r, t, hrun⟩ := twoLineSearch_run
  have hagrees := genotype_agrees twoLineCatalog 40 (Random.ofSeed 0) (Random.ofSeed 0)
    twoLineSearch twoLineModel_ofCatalog
  exact ⟨twoLineModel_ofCatalog, r, t, hrun, hagrees.2.2 _ r t hrun (Or.inl rfl)⟩

/-- The chromosome that a selection left stands for the same edits, on every bench. -/
theorem Agreement.again {s : Setup} {tools : Toolchain σ} {b : Bench σ} {c c' : Chromosome}
    {edits : List AppliedEdit} (h : Agreement α s tools b c edits c')
    (hequipped : ∀ p ∈ s.model.points, p.Equipped) (hc : c.Shaped s.model.points.length)
    (b' : Bench σ) : Agreement α s tools b' c' edits c' := by
  have hagain := selectEdits_again hequipped hc h.selected
  have hc' : c'.Shaped s.model.points.length :=
    (Chromosome.yields_selectEdits hc _ _).of_eq h.selected
  obtain ⟨edits', c'', hagreement, -⟩ := exists_agreement (α := α) tools hc' b'
  cases hagain.symm.trans hagreement.selected
  exact hagreement

namespace Search

variable {s : Search α σ}

/-- A candidate applied some edits, and its chromosome still stands for them. -/
def Repeatable (s : Search α σ) (d : Candidate α) : Prop :=
  ∃ edits, s.Applied edits d ∧ ∀ b, Agreement α s.setup s.tools b d.chromosome edits d.chromosome

theorem repeatable_of_evaluateCandidate {d d' : Candidate α} {e e' : Engine α σ}
    (hequipped : ∀ p ∈ s.setup.model.points, p.Equipped)
    (hd : d.chromosome.Shaped s.setup.model.points.length)
    (h : s.evaluateCandidate d e = .ok (d', e')) : s.Repeatable d' := by
  obtain ⟨edits, c', hagreement, -⟩ := exists_agreement (α := α) s.tools hd e.bench
  obtain ⟨happlied, rfl⟩ := applied_of_agreement hagreement h
  exact ⟨edits, happlied, hagreement.again hequipped hd⟩

theorem Repeatable.ranked {d d' : Candidate α} (h : s.Repeatable d)
    (heq : d'.unranked = d.unranked) : s.Repeatable d' := by
  rw [Candidate.eq_of_unranked_eq heq]
  exact h

end Search

/-- Decoding is idempotent. A selection from the chromosome that a selection left gives the same
edits and leaves it as it is. So wherever a run has got to, a candidate that has the chromosome of
an evaluated one applies, when it is evaluated, exactly the edits that were applied there, and keeps
the chromosome. -/
theorem selection_idempotent {catalog : List Point} {maxPoints : ℕ} {g g' : Random}
    {model : ProgramModel}
    (hmodel : ProgramModel.ofCatalog catalog maxPoints g = .ok (model, g')) :
    (∀ (filter : Bool) (limit : Option ℕ) (c : Chromosome), c.Shaped model.points.length →
      ∃ edits c', selectEdits model.points filter limit c = .ok (edits, c') ∧
        selectEdits model.points filter limit c' = .ok (edits, c')) ∧
    ∀ s : Search α σ, s.setup.model = model → ∀ e₀ c, s.Reaches e₀ c →
      ∀ d, d ∈ c.seen ∨ d ∈ c.parents → ∃ edits, s.Applied edits d ∧
        ∀ clone : Candidate α, clone.chromosome = d.chromosome →
          (∀ b, Agreement α s.setup s.tools b clone.chromosome edits d.chromosome) ∧
          ∀ e d' e', s.evaluateCandidate clone e = .ok (d', e') →
            s.Applied edits d' ∧ d'.chromosome = d.chromosome := by
  have hequipped := ProgramModel.equipped hmodel
  refine ⟨fun filter limit c hc => ?_, ?_⟩
  · obtain ⟨⟨edits, c'⟩, hselected, -⟩ := Chromosome.yields_selectEdits hc filter limit
    exact ⟨edits, c', hselected, selectEdits_again hequipped hc hselected⟩
  · rintro s rfl e₀ c hreaches d hd
    have hcarries : s.Carries (fun d => d.chromosome.InBounds s.bounds) fun d =>
        d.chromosome.InBounds s.bounds ∧ s.Repeatable d := by
      refine (s.carries_inBounds (ProgramModel.operators_pos hmodel)).and_evaluated
        (fun hd he => ?_) fun hd heq => hd.ranked heq
      have hshaped := hd.shaped
      rw [Search.bounds, ProgramModel.bounds, List.length_map] at hshaped
      exact Search.repeatable_of_evaluateCandidate hequipped hshaped he
    obtain ⟨edits, happlied, hagain⟩ : s.Repeatable d := by
      have hcarried := hreaches.carried hcarries
      rcases hd with hseen | hparent
      · exact (hcarried.seen d hseen).2
      · exact (hcarried.parents d hparent).2
    refine ⟨edits, happlied, fun clone hclone => ⟨fun b => hclone ▸ hagain b, fun e d' e' he => ?_⟩⟩
    exact Search.applied_of_agreement (hclone ▸ hagain e.bench) he

/-- Genes far beyond the operators of the two lines are selected twice, and the survivors of a run
over them stand for the edits that they applied. -/
theorem selection_idempotent_of_twoLines :
    ProgramModel.ofCatalog twoLineCatalog 40 (Random.ofSeed 0) =
        .ok (twoLineModel, Random.ofSeed 0) ∧
      (∃ edits c', selectEdits twoLineModel.points true (some 1) ⟨[true, true], [6, 5], [2, 9]⟩ =
          .ok (edits, c') ∧
        selectEdits twoLineModel.points true (some 1) c' = .ok (edits, c')) ∧
      ∃ r t, twoLineSearch.run twoLineEngine = .ok (r, t) ∧
        ∀ d ∈ t.population, ∃ edits, twoLineSearch.Applied edits d ∧
          ∀ b, Agreement Float twoLineSearch.setup twoLineSearch.tools b d.chromosome edits
            d.chromosome := by
  obtain ⟨r, t, hrun⟩ := twoLineSearch_run
  obtain ⟨hagain, hclones⟩ :=
    selection_idempotent (α := Float) (σ := Unit) twoLineModel_ofCatalog
  refine ⟨twoLineModel_ofCatalog, hagain true (some 1) ⟨[true, true], [6, 5], [2, 9]⟩
    ⟨rfl, rfl, rfl⟩, r, t, hrun, fun d hd => ?_⟩
  obtain ⟨c, hc, hrest, rfl, -⟩ := Search.reaches_run hrun
  have hmember : d ∈ c.parents := by
    rw [← hrest.population]
    exact hd
  obtain ⟨edits, happlied, hclone⟩ := hclones twoLineSearch rfl _ c hc d (Or.inr hmember)
  exact ⟨edits, happlied, (hclone d rfl).1⟩

end PatchSearch
