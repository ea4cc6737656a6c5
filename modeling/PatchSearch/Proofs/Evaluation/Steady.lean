import PatchSearch.Proofs.Genome.Shape
import PatchSearch.Proofs.Toolchain

/-!
Evaluations with a patcher that never breaks down. They all come to an end, with as many
objectives as are asked for, and leave the shape of the chromosome as it was.
-/
namespace PatchSearch

variable {α σ : Type}

/-- The patcher turns choices into edits or refuses them, but never breaks down. -/
def Toolchain.Steady (tools : Toolchain σ) : Prop :=
  ∀ p o i w, (tools.patch p o i w).1 ≠ .error .brokeDown

namespace Toolchain.Steady

variable {tools : Toolchain σ}

theorem of_linePatcher (h : tools.patch = linePatcher) : tools.Steady := by
  intro p o i w
  rw [h]
  exact PatcherError.mapError_refused_ne (lineEdit p o i)

theorem traced (h : tools.Steady) : (tools.traced : Toolchain (Traced α σ)).Steady :=
  fun p o i w => h p o i w.world

theorem scriptOf_ne_brokeDown (h : tools.Steady) (points : List Point)
    (edits : List AppliedEdit) (w : σ) :
    (scriptOf tools points edits w).1 ≠ .error .brokeDown := by
  induction edits generalizing w with
  | nil =>
    intro h
    cases h
  | cons e es ih =>
    unfold scriptOf
    cases points[e.point]? with
    | none => exact ih w
    | some p =>
      have hpatch := h p e.operator (e.ingredientIndex.bind (p.ingredients[·]?)) w
      dsimp only
      generalize tools.patch p e.operator _ w = x at hpatch
      rcases x with ⟨cause | edit, w'⟩
      · exact fun heq => hpatch (congrArg Except.error (Except.error.inj heq))
      · have hrest := ih w'
        dsimp only
        generalize scriptOf tools points es w' = y at hrest
        rcases y with ⟨cause | rest, w''⟩
        · exact fun heq => hrest (congrArg Except.error (Except.error.inj heq))
        · intro heq
          cases heq

theorem editedFiles_ne_brokeDown (h : tools.Steady) (s : Setup) (edits : List AppliedEdit)
    (w : σ) : (editedFiles s tools edits w).1 ≠ .error .brokeDown := by
  have hscript := h.scriptOf_ne_brokeDown s.model.points edits w
  unfold editedFiles
  generalize scriptOf tools s.model.points edits w = x at hscript
  rcases x with ⟨cause | script, w'⟩
  · exact fun heq => hscript (congrArg Except.error (Except.error.inj heq))
  · exact PatcherError.mapError_refused_ne _

end Toolchain.Steady

section Objectives

variable [Scalar α]

theorem size_modeObjectives {s : Setup} (h : 1 ≤ s.objectives ∧ s.objectives ≤ 3) (edits : Nat)
    (o : TestOutcome) (fitness : α) (novelty : Option α) :
    (modeObjectives s edits o fitness novelty).size = s.objectives := by
  have hcount : s.objectives = 1 ∨ s.objectives = 2 ∨ s.objectives = 3 := by omega
  have hplain (f : α) : (plainObjectives s.objectives edits o f).size = s.objectives := by
    rcases hcount with hc | hc | hc <;> rw [hc] <;> rfl
  have hnovel (v f : α) : (novelObjectives s.objectives edits v f).size = s.objectives := by
    rcases hcount with hc | hc | hc <;> rw [hc] <;> rfl
  unfold modeObjectives
  split
  · exact hplain _
  · exact hplain _
  · exact hplain _
  · exact Nat.min_eq_left h.2
  · exact hnovel _ _

/-- The evaluation of selected edits ends, and has as many objectives as are asked for however it
does. -/
theorem yields_evaluateEdits {s : Setup} (h : 1 ≤ s.objectives ∧ s.objectives ≤ 3)
    {tools : Toolchain σ} (hsteady : tools.Steady) (id : Nat) (edits : List AppliedEdit)
    (b : Bench σ) :
    Yields (evaluateEdits s tools id edits b : Except Fault (Evaluation α) × _).1 fun evaluation =>
      evaluation.objectives.size = s.objectives := by
  have hunscored (status : EvaluationStatus) :
      Yields (.ok (unscored s id edits.length status) : Except Fault (Evaluation α))
        fun evaluation => evaluation.objectives.size = s.objectives :=
    Yields.ok (Nat.min_eq_left h.2)
  have hfiles := hsteady.editedFiles_ne_brokeDown s edits b.world
  unfold evaluateEdits
  dsimp only
  split
  · exact hunscored _
  · generalize editedFiles s tools edits b.world = x at hfiles
    rcases x with ⟨(cause | _) | sources, w⟩
    · exact hunscored _
    · exact absurd rfl hfiles
    · dsimp only
      split
      · exact hunscored _
      · exact hunscored _
      · split
        · exact hunscored _
        · exact Yields.ok (size_modeObjectives h _ _ _ _)

/-- The evaluation of a chromosome with the shape of the model ends, and keeps the shape. -/
theorem yields_evaluate {s : Setup} (h : 1 ≤ s.objectives ∧ s.objectives ≤ 3)
    {tools : Toolchain σ} (hsteady : tools.Steady) {n : Nat} {c : Chromosome} (hc : c.Shaped n)
    (b : Bench σ) :
    Yields (evaluate (α := α) s tools c b).1 fun r =>
      r.1.objectives.size = s.objectives ∧ r.2.Shaped n := by
  obtain ⟨⟨edits, c'⟩, hselected, hc'⟩ :
      Yields (selectEdits s.model.points s.config.filterRules s.config.maxEdits c) _ :=
    Chromosome.yields_selectEdits hc _ _
  obtain ⟨evaluation, hanswer, hsize⟩ := yields_evaluateEdits (α := α) h hsteady
    b.ledger.begin.1 edits { b with ledger := b.ledger.begin.2 }
  unfold evaluate
  rw [hselected]
  dsimp only
  rw [hanswer]
  exact Yields.ok ⟨hsize, hc'⟩

end Objectives

end PatchSearch
