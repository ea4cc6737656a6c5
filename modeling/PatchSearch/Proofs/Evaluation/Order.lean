import PatchSearch.Proofs.Evaluation.Mirrors
import PatchSearch.Proofs.Evaluation.Sequence

/-!
Evaluations in any order. Without novelty and without samples nothing that an evaluation leaves
behind matters to another one, as long as the collaborators go by what they are asked and the number
of an evaluation tells them nothing. What a chromosome comes to is then told by the chromosome
alone, and a sequence of evaluations stores the patches of its adequate candidates, whatever their
order.
-/
namespace PatchSearch

variable {α σ : Type}

namespace Toolchain

/-- No test run tells two artifacts apart. -/
def SameTests (tools : Toolchain σ) (a a' : Artifact) : Prop :=
  ∀ tests limit w w', (tools.runTests a tests limit w).1 = (tools.runTests a' tests limit w').1

/-- The answers of the collaborators depend neither on their state nor on the number of the
evaluation: builds of the same sources take the same time and fail alike, or make artifacts that no
test run tells apart. -/
structure Impartial (tools : Toolchain σ) : Prop where
  patch : ∀ p o i w w', (tools.patch p o i w).1 = (tools.patch p o i w').1
  compile : ∀ id id' sources w w',
    BuildsAlike tools.SameTests (tools.compile id sources w).1 (tools.compile id' sources w').1

variable [Scalar α] {tools : Toolchain σ} {s : Setup}

/-- Without novelty and samples any two evaluations are in accord. -/
theorem Impartial.accord (h : tools.Impartial) (hmode : s.novelty.mode = .none)
    (hwhole : ¬ s.config.percentage < 1.0) (id id' : ℕ) :
    Accord (α := α) s s tools tools id id' (fun _ _ => True) tools.SameTests
      Evaluation.SameGist where
  setup := rfl
  patch p o i _ := Matched.alike ⟨h.patch p o i _ _, trivial⟩
  compile sources _ := ⟨h.compile id id' sources _ _, trivial⟩
  runTests tests limit ha _ := Matched.alike ⟨ha tests limit _ _, trivial⟩
  sample _ := by
    rw [samplePositive_of_not_lt _ _ _ _ hwhole, samplePositive_of_not_lt _ _ _ _ hwhole]
    exact Alike.intro _ trivial
  ended edits status := Evaluation.sameGist_unscored rfl id id' edits status
  concluded edits outcome _ := by
    refine conclude_sameGist id id' edits outcome ?_ fun _ => trivial
    unfold score
    simp only [if_pos hmode]
    exact ⟨⟨rfl, rfl, fun _ => rfl⟩, trivial⟩

/-- What a chromosome comes to does not depend on the bench. -/
theorem Impartial.sameGist (h : tools.Impartial) (hmode : s.novelty.mode = .none)
    (hwhole : ¬ s.config.percentage < 1.0) (c : Chromosome) (b b' : Bench σ) :
    SameCourse (fun x y => x.1.SameGist y.1 ∧ x.2 = y.2) (evaluate (α := α) s tools c b).1
      (evaluate (α := α) s tools c b').1 :=
  ((h.accord hmode hwhole _ _).evaluate trivial c).1

end Toolchain

section Sequences

variable [Scalar α] {s : Setup} {tools : Toolchain σ}

/-- A chromosome is evaluated as adequate, for the edits of a patch. -/
def Earns (α : Type) [Scalar α] (s : Setup) (tools : Toolchain σ) (b : Bench σ) (c : Chromosome)
    (p : Patch) : Prop :=
  ∃ (x : Evaluation α) (c' : Chromosome) (edits : List AppliedEdit),
    (evaluate s tools c b).1 = .ok (x, c') ∧ x.status = .evaluated true ∧
      selectEdits s.model.points s.config.filterRules s.config.maxEdits c = .ok (edits, c') ∧
      p = Patch.ofEdits (edits.map AppliedEdit.patchEdit)

theorem Toolchain.Impartial.earns (h : tools.Impartial) (hmode : s.novelty.mode = .none)
    (hwhole : ¬ s.config.percentage < 1.0) {c : Chromosome} {b b' : Bench σ} {p : Patch}
    (hp : Earns α s tools b c p) : Earns α s tools b' c p := by
  obtain ⟨x, c', edits, hanswer, hstatus, hselected, rfl⟩ := hp
  obtain ⟨⟨y, d'⟩, hanswer', hgist, hchromosome⟩ :=
    (h.sameGist hmode hwhole c b b').exists_ok hanswer
  dsimp only at hgist hchromosome
  subst hchromosome
  exact ⟨y, c', edits, hanswer', hgist.status.symm.trans hstatus, hselected, rfl⟩

/-- An evaluation adds to the store what its chromosome earns, and nothing twice. -/
theorem patches_evaluate (c : Chromosome) (b : Bench σ) :
    let after := (evaluate (α := α) s tools c b).2.ledger.patches.patches
    (∀ p, p ∈ after ↔ p ∈ b.ledger.patches.patches ∨ Earns α s tools b c p) ∧
      (b.ledger.patches.patches.Nodup → after.Nodup) := by
  intro after
  have hbooked := evaluate_booked (α := α) s tools c b
  -- the patch of an adequate candidate is the only one that is earned
  have hearned {x : Evaluation α} {c' : Chromosome} {edits : List AppliedEdit}
      (hanswer : (evaluate s tools c b).1 = .ok (x, c'))
      (hselected : selectEdits s.model.points s.config.filterRules s.config.maxEdits c =
        .ok (edits, c')) (hstatus : x.status = .evaluated true) (p : Patch) :
      Earns α s tools b c p ↔ p = Patch.ofEdits (edits.map AppliedEdit.patchEdit) := by
    constructor
    · rintro ⟨y, d', edits', -, -, hselected', rfl⟩
      cases hselected.symm.trans hselected'
      rfl
    · rintro rfl
      exact ⟨x, c', edits, hanswer, hstatus, hselected, rfl⟩
  generalize hanswer : (evaluate (α := α) s tools c b).1 = answer at hbooked hearned
  cases hbooked with
  | @fault fault same =>
    have hnone (p : Patch) : ¬ Earns α s tools b c p := by
      rintro ⟨x, c', edits, hok, -⟩
      cases hanswer.symm.trans hok
    have hafter : after = b.ledger.patches.patches := congrArg PatchStore.patches same
    simp [hafter, hnone]
  | @passed x c' status number same =>
    have hnone (p : Patch) : ¬ Earns α s tools b c p := by
      rintro ⟨y, d', edits, hok, hstatus, -⟩
      cases hanswer.symm.trans hok
      exact status hstatus
    have hafter : after = b.ledger.patches.patches := congrArg PatchStore.patches same
    simp [hafter, hnone]
  | dropped selected status number known same =>
    have hafter : after = b.ledger.patches.patches := congrArg PatchStore.patches same
    rw [hafter]
    refine ⟨fun p => ?_, id⟩
    rw [hearned rfl selected status]
    exact ⟨Or.inl, fun hp => hp.elim id fun heq => heq ▸ known⟩
  | kept selected status number new patches =>
    have hafter : after = _ := patches
    rw [hafter]
    refine ⟨fun p => ?_, fun hnodup => ?_⟩
    · rw [hearned rfl selected status, List.mem_append, List.mem_singleton]
    · rw [← List.concat_eq_append]
      exact hnodup.concat new

theorem nodup_evaluateEach (s : Setup) (tools : Toolchain σ) (cs : List Chromosome) (b : Bench σ)
    (h : b.ledger.patches.patches.Nodup) :
    (evaluateEach (α := α) s tools cs b).2.ledger.patches.patches.Nodup := by
  induction cs generalizing b with
  | nil => exact h
  | cons c cs ih => exact ih _ ((patches_evaluate c b).2 h)

/-- What a sequence of evaluations stores, in terms of evaluations on any bench. -/
theorem mem_patches_evaluateEach (h : tools.Impartial) (hmode : s.novelty.mode = .none)
    (hwhole : ¬ s.config.percentage < 1.0) (cs : List Chromosome) (b b₀ : Bench σ) (p : Patch) :
    p ∈ (evaluateEach (α := α) s tools cs b).2.ledger.patches.patches ↔
      p ∈ b.ledger.patches.patches ∨ ∃ c ∈ cs, Earns α s tools b₀ c p := by
  induction cs generalizing b with
  | nil => simp [evaluateEach]
  | cons c cs ih =>
    have hrest := ih (evaluate (α := α) s tools c b).2
    have hany : Earns α s tools b c p ↔ Earns α s tools b₀ c p :=
      ⟨h.earns hmode hwhole, h.earns hmode hwhole⟩
    rw [(patches_evaluate c b).1, hany, or_assoc] at hrest
    rw [List.exists_mem_cons_iff]
    exact hrest

/-- Each chromosome of a sequence is answered as it is on some bench. -/
theorem answer_evaluateEach (s : Setup) (tools : Toolchain σ) {cs : List Chromosome} (b : Bench σ)
    {i : ℕ} {c : Chromosome} (hc : cs[i]? = some c) :
    ∃ b', (evaluateEach (α := α) s tools cs b).1[i]? = some (evaluate s tools c b').1 := by
  induction cs generalizing b i with
  | nil => cases hc
  | cons d cs ih =>
    cases i with
    | zero =>
      cases hc
      exact ⟨b, rfl⟩
    | succ i => exact ih _ hc

/-- The order of evaluations does not matter without novelty and samples. Whenever the same
chromosomes are evaluated in two orders, each with a store that knows no patch yet, every chromosome
comes to the same fault, or to the same status, number of edits, objectives, fitness and rewritten
chromosome; and the same patches are stored. -/
theorem evaluateEach_perm (s : Setup) (hmode : s.novelty.mode = .none)
    (hwhole : ¬ s.config.percentage < 1.0) (tools : Toolchain σ) (himpartial : tools.Impartial)
    {cs cs' : List Chromosome} (hperm : cs.Perm cs') (b b' : Bench σ)
    (hfresh : b.ledger.patches.patches = []) (hfresh' : b'.ledger.patches.patches = []) :
    (∀ (c : Chromosome) (i j : ℕ), cs[i]? = some c → cs'[j]? = some c →
      ∃ x y, (evaluateEach (α := α) s tools cs b).1[i]? = some x ∧
        (evaluateEach (α := α) s tools cs' b').1[j]? = some y ∧
        SameCourse (fun x y : Evaluation α × Chromosome => x.1.SameGist y.1 ∧ x.2 = y.2) x y) ∧
    (evaluateEach (α := α) s tools cs b).2.ledger.patches.patches.Perm
      (evaluateEach (α := α) s tools cs' b').2.ledger.patches.patches := by
  refine ⟨fun c i j hi hj => ?_, ?_⟩
  · obtain ⟨d, hx⟩ := answer_evaluateEach (α := α) s tools b hi
    obtain ⟨d', hy⟩ := answer_evaluateEach (α := α) s tools b' hj
    exact ⟨_, _, hx, hy, himpartial.sameGist hmode hwhole c d d'⟩
  · have hnodup := nodup_evaluateEach (α := α) s tools cs b (by simp [hfresh])
    have hnodup' := nodup_evaluateEach (α := α) s tools cs' b' (by simp [hfresh'])
    rw [List.perm_ext_iff_of_nodup hnodup hnodup']
    intro p
    rw [mem_patches_evaluateEach himpartial hmode hwhole cs b b,
      mem_patches_evaluateEach himpartial hmode hwhole cs' b' b, hfresh, hfresh']
    simp only [hperm.mem_iff]

end Sequences

/-- The tools that find no failure go by what they are asked. -/
theorem hastyTools_impartial : hastyTools.Impartial where
  patch _ _ _ _ _ := rfl
  compile _ _ _ _ _ := .made _ fun _ _ _ _ => rfl

/-- Two replacements that are the same, in both orders: whichever comes second is dropped, and one
patch is stored. -/
theorem evaluateEach_perm_of_replacements :
    let s := loneLineSearch.setup
    let b : Bench Bool := .start 200 0 (.start .empty 0) false
    s.novelty.mode = .none ∧ ¬ s.config.percentage < 1.0 ∧ hastyTools.Impartial ∧
      repeatedReplacement.Perm repeatedReplacement.reverse ∧ b.ledger.patches.patches = [] ∧
      (evaluateEach (α := Float) s hastyTools repeatedReplacement b).2.ledger.patches.patches.Perm
        (evaluateEach (α := Float) s hastyTools repeatedReplacement.reverse
          b).2.ledger.patches.patches := by
  intro s b
  have hwhole : ¬ s.config.percentage < 1.0 := by decide +kernel
  have hperm : repeatedReplacement.Perm repeatedReplacement.reverse :=
    (List.reverse_perm _).symm
  exact ⟨rfl, hwhole, hastyTools_impartial, hperm, rfl,
    (evaluateEach_perm (α := Float) s rfl hwhole hastyTools hastyTools_impartial hperm b b rfl
      rfl).2⟩

end PatchSearch
