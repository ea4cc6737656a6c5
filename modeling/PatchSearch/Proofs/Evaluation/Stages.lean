import PatchSearch.Proofs.Evaluation.Reachable
import PatchSearch.Proofs.Evaluation.Sampling
import PatchSearch.Proofs.Evaluation.Selected
import PatchSearch.Proofs.Toolchain

/-!
The stages of an evaluation by its log: patches, then at most one build, then one test run or two,
then writes. A second run follows only a sample that leaves tests out and passed. For each way in
which an evaluation may end this says what was called before.
-/
namespace PatchSearch

variable {α σ : Type}

/-- What the test runs of a build were asked for and how they counted. A run that did not complete
ends the evaluation. Whatever else a sample shows counts, except that it passes: then the whole
suite is run, and that run counts. -/
inductive Tested (s : Setup) (artifact : Artifact) (before : List (Event α)) :
    Option (TestOutcome × Bool) → List (Event α) → Prop
  | incomplete {sample work} (part : sample.Subperm s.tests.positive)
      (fails : ¬ ∃ failed, TestOutcome.Completes s.waitTime work failed) :
      Tested s artifact before none
        (.ran artifact (sample ++ s.tests.negative) s.waitTime work :: before)
  | once {sample work failed} (part : sample.Subperm s.tests.positive)
      (completes : TestOutcome.Completes s.waitTime work failed)
      (counts : s.tests.positive.length ≤ sample.length ∨
        (TestOutcome.ofFailed ⟨sample, s.tests.negative⟩ failed).allPassed = false) :
      Tested s artifact before (some (.ofFailed ⟨sample, s.tests.negative⟩ failed, false))
        (.ran artifact (sample ++ s.tests.negative) s.waitTime work :: before)
  | twice {sample work failed work' answer} (part : sample.Subperm s.tests.positive)
      (short : sample.length < s.tests.positive.length)
      (completes : TestOutcome.Completes s.waitTime work failed)
      (passed : ∀ t ∈ sample ++ s.tests.negative, t ∉ failed)
      (counts : answer = none ∧ (¬ ∃ failed', TestOutcome.Completes s.waitTime work' failed') ∨
        ∃ failed', TestOutcome.Completes s.waitTime work' failed' ∧
          answer = some (.ofFailed s.fullRequest failed',
            !(TestOutcome.ofFailed s.fullRequest failed').allPassed)) :
      Tested s artifact before answer
        (.ran artifact s.fullRequest.all s.waitTime work' ::
          .ran artifact (sample ++ s.tests.negative) s.waitTime work :: before)

/-- Nothing but files was written. -/
def OnlyWrites (events : List (Event α)) : Prop :=
  ∀ e ∈ events, ∃ path answer, e = .wrote path answer

section Tests

variable [Scalar α] {s : Setup} {tools : Toolchain σ}

/-- Testing leaves archive and books as they are. -/
theorem testArtifact_tested (artifact : Artifact) {b b' : Bench (Traced α σ)}
    {answer : Option (TestOutcome × Bool)}
    (h : testArtifact α s tools.traced artifact b = (answer, b')) :
    Tested s artifact b.world.events answer b'.world.events ∧
      b'.archive = b.archive ∧ b'.ledger = b.ledger := by
  have hpart := samplePositive_subperm α s.tests.positive s.config.percentage b.random
  unfold testArtifact at h
  generalize samplePositive α s.tests.positive s.config.percentage b.random = sample at h hpart
  obtain ⟨work, world, hrun⟩ := execute_traced tools artifact
    ⟨sample.1, s.tests.negative⟩ s.waitTime b.world
  obtain ⟨work', world', hrun'⟩ := execute_traced tools artifact s.fullRequest
    s.waitTime ⟨world, .ran artifact (TestRequest.all ⟨sample.1, s.tests.negative⟩) s.waitTime
      work :: b.world.events⟩
  simp only [hrun, hrun'] at h
  by_cases hcomplete : ∃ failed, TestOutcome.Completes s.waitTime work failed
  · obtain ⟨failed, hfailed⟩ := hcomplete
    rw [TestOutcome.ofRun_of_completes _ hfailed, if_neg (by simp)] at h
    split at h
    · next hagain =>
      rw [Bool.and_eq_true, decide_eq_true_eq, TestOutcome.allPassed_ofFailed_iff] at hagain
      by_cases hcomplete' : ∃ failed, TestOutcome.Completes s.waitTime work' failed
      · obtain ⟨failed', hfailed'⟩ := hcomplete'
        rw [TestOutcome.ofRun_of_completes _ hfailed', if_neg (by simp)] at h
        obtain ⟨rfl, rfl⟩ := Prod.mk.inj h
        exact ⟨.twice hpart hagain.1 hfailed hagain.2 (Or.inr ⟨failed', hfailed', rfl⟩), rfl, rfl⟩
      · rw [TestOutcome.ofRun_of_not_completes _ hcomplete', if_pos (by simp)] at h
        obtain ⟨rfl, rfl⟩ := Prod.mk.inj h
        exact ⟨.twice hpart hagain.1 hfailed hagain.2 (Or.inl ⟨rfl, hcomplete'⟩), rfl, rfl⟩
    · next hagain =>
      obtain ⟨rfl, rfl⟩ := Prod.mk.inj h
      refine ⟨.once hpart hfailed ?_, rfl, rfl⟩
      rw [Bool.and_eq_true, decide_eq_true_eq, not_and_or, Nat.not_lt] at hagain
      exact hagain.imp_right (Bool.not_eq_true _).mp
  · rw [TestOutcome.ofRun_of_not_completes _ hcomplete, if_pos (by simp)] at h
    obtain ⟨rfl, rfl⟩ := Prod.mk.inj h
    exact ⟨.incomplete hpart hcomplete, rfl, rfl⟩

/-- What a score is made of. Scoring touches neither books nor collaborators. -/
theorem score_spec {τ : Type} {b b' : Bench τ} {edits : Nat} {o : TestOutcome}
    {sc : Score α} (h : score s edits o b = (sc, b')) :
    sc.fitness = o.fitness s.config.weight ∧
      sc.objectives = modeObjectives s edits o sc.fitness sc.novelty ∧
      (∀ v ∈ sc.novelty, b.archive.novelty (Descriptor.ofOutcomes s.tests.ordered o.failed)
        s.novelty.neighbors = .ok v) ∧
      b'.ledger = b.ledger ∧ b'.world = b.world := by
  unfold score at h
  by_cases hmode : s.novelty.mode = .none
  · simp only [if_pos hmode] at h
    obtain ⟨rfl, rfl⟩ := Prod.mk.inj h
    exact ⟨rfl, rfl, nofun, rfl, rfl⟩
  · simp only [if_neg hmode] at h
    unfold scoreBehavior at h
    cases hn : b.archive.novelty (α := α) (Descriptor.ofOutcomes s.tests.ordered o.failed)
      s.novelty.neighbors with
    | error e =>
      simp only [hn] at h
      obtain ⟨rfl, rfl⟩ := Prod.mk.inj h
      exact ⟨rfl, rfl, nofun, rfl, rfl⟩
    | ok v =>
      simp only [hn] at h
      obtain ⟨rfl, rfl⟩ := Prod.mk.inj h
      refine ⟨rfl, rfl, fun v' hv => ?_, rfl, rfl⟩
      rw [Option.mem_some.mp hv]

/-- What a scored evaluation is made of. Accepting its patch begins no evaluation. -/
theorem conclude_spec {τ : Type} {tools : Toolchain τ} {b b' : Bench τ} {id : Nat}
    {edits : List AppliedEdit} {outcome : TestOutcome × Bool} {evaluation : Evaluation α}
    (h : conclude s tools id edits outcome b = (evaluation, b')) :
    ∃ sc c, score s edits.length outcome.1 b = (sc, c) ∧
      evaluation.objectives = sc.objectives ∧ evaluation.fitness = some sc.fitness ∧
      evaluation.status = scoredStatus s outcome.1 outcome.2 sc.novelty ∧
      b'.ledger.evaluations = b.ledger.evaluations := by
  rcases hscore : score (α := α) s edits.length outcome.1 b with ⟨sc, c⟩
  obtain ⟨-, -, -, hledger, -⟩ := score_spec hscore
  unfold conclude acceptIf at h
  simp only [hscore] at h
  split at h
  · obtain ⟨rfl, rfl⟩ := Prod.mk.inj h
    have hcounts := (c.ledger.accept_counts tools.files edits (tools.clock c.world) c.world).1
    exact ⟨sc, c, rfl, rfl, rfl, rfl, hcounts.trans (congrArg Ledger.evaluations hledger)⟩
  · obtain ⟨rfl, rfl⟩ := Prod.mk.inj h
    exact ⟨sc, c, rfl, rfl, rfl, rfl, congrArg Ledger.evaluations hledger⟩

/-- An adequate evaluation accepts its patch; no other touches the books or gets a number. -/
theorem conclude_ledger {τ : Type} {tools : Toolchain τ} {b b' : Bench τ} {id : Nat}
    {edits : List AppliedEdit} {outcome : TestOutcome × Bool} {evaluation : Evaluation α}
    (h : conclude s tools id edits outcome b = (evaluation, b')) :
    (evaluation.status = .evaluated true → ∃ now world,
      b'.ledger = (b.ledger.accept tools.files edits now world).2.1 ∧
        evaluation.patchId = (b.ledger.accept tools.files edits now world).1) ∧
    (evaluation.status ≠ .evaluated true →
      b'.ledger = b.ledger ∧ evaluation.patchId = none) := by
  rcases hscore : score (α := α) s edits.length outcome.1 b with ⟨sc, c⟩
  obtain ⟨-, -, -, hledger, -⟩ := score_spec hscore
  unfold conclude acceptIf at h
  simp only [hscore, EvaluationStatus.isAdequate, beq_iff_eq] at h
  split at h
  · next hadequate =>
    obtain ⟨rfl, rfl⟩ := Prod.mk.inj h
    refine ⟨fun _ => ⟨tools.clock c.world, c.world, ?_⟩, absurd hadequate⟩
    rw [← hledger]
    exact ⟨rfl, rfl⟩
  · next hadequate =>
    obtain ⟨rfl, rfl⟩ := Prod.mk.inj h
    exact ⟨fun h => absurd h hadequate, fun _ => ⟨hledger, rfl⟩⟩

omit [Scalar α] in
/-- An outcome that was scored comes from a run that completed, and it is rejected only if
something failed. -/
theorem Tested.outcome {artifact : Artifact} {before events : List (Event α)}
    {o : TestOutcome} {rejected : Bool}
    (h : Tested s artifact before (some (o, rejected)) events) :
    (∃ r failed, o = .ofFailed r failed) ∧ (rejected = true → o.allPassed = false) := by
  cases h with
  | once => exact ⟨⟨_, _, rfl⟩, nofun⟩
  | twice _ _ _ _ counts =>
    obtain ⟨hnone, -⟩ | ⟨failed, -, hsome⟩ := counts
    · cases hnone
    · obtain ⟨rfl, rfl⟩ := Prod.mk.inj (Option.some.inj hsome)
      exact ⟨⟨_, _, rfl⟩, fun hrejected => by simpa using hrejected⟩

/-- Scoring and accepting write files at most. -/
theorem conclude_writes {b b' : Bench (Traced α σ)} {evaluation : Evaluation α} (id : Nat)
    (edits : List AppliedEdit) (outcome : TestOutcome × Bool)
    (h : conclude s tools.traced id edits outcome b = (evaluation, b')) :
    ∃ writes, OnlyWrites writes ∧ b'.world.events = writes ++ b.world.events := by
  let Grown (w : Traced α σ) : Prop :=
    ∃ writes, OnlyWrites writes ∧ w.events = writes ++ b.world.events
  have hwrite (path : String) (bytes : ByteArray) (w : Traced α σ) (hw : Grown w) :
      Grown (tools.traced.files.write path bytes w).2 := by
    obtain ⟨writes, honly, hevents⟩ := hw
    refine ⟨.wrote path (tools.files.write path bytes w.world).1 :: writes, ?_, ?_⟩
    · exact List.forall_mem_cons.mpr ⟨⟨_, _, rfl⟩, honly⟩
    · exact congrArg (List.cons _) hevents
  rcases hscore : score (α := α) s edits.length outcome.1 b with ⟨sc, c⟩
  obtain ⟨-, -, -, -, hworld⟩ := score_spec hscore
  have hstart : Grown c.world := ⟨[], nofun, congrArg Traced.events hworld⟩
  unfold conclude acceptIf at h
  rw [hscore] at h
  dsimp only at h
  split at h
  · obtain ⟨rfl, rfl⟩ := Prod.mk.inj h
    exact Ledger.accept_keeps hwrite _ edits _ hstart
  · obtain ⟨rfl, rfl⟩ := Prod.mk.inj h
    exact hstart

end Tests

/-- A build was asked for once some edits were selected and their script rendered. -/
def BuildAsked (s : Setup) (tools : Toolchain σ) (id : Nat) (edits : List AppliedEdit) (world : σ)
    (work : Work (Except CompileFailure Artifact)) (events : List (Event α)) : Prop :=
  ∃ sources patches, edits ≠ [] ∧ (editedFiles s tools edits world).1 = .ok sources ∧
    OnlyPatches patches ∧ ¬ PatcherBroke patches ∧ events = .built id sources work :: patches

/-- The ways in which the evaluation of selected edits may go, with what was called on the way. -/
inductive Stages [Scalar α] (s : Setup) (tools : Toolchain σ) (id : Nat)
    (edits : List AppliedEdit) (b : Bench σ) :
    Except Fault (Evaluation α) → Bench (Traced α σ) → Prop
  | broken {w : Traced α σ} (only : OnlyPatches w.events) (broke : PatcherBroke w.events) :
      Stages s tools id edits b (.error .breakdown)
        ⟨b.archive, b.random, b.ledger, w⟩
  | unpatched {w : Traced α σ} {status} (only : OnlyPatches w.events)
      (steady : ¬ PatcherBroke w.events)
      (ends : status = .noActiveEdits ∨ status = .patchFailed) :
      Stages s tools id edits b (.ok (unscored s id edits.length status))
        ⟨b.archive, b.random, b.ledger, w⟩
  | unbuilt {w : Traced α σ} {status work}
      (asked : BuildAsked s tools id edits b.world work w.events)
      (ends : status = .compileFailed ∨ status = .exceptional) :
      Stages s tools id edits b (.ok (unscored s id edits.length status))
        ⟨b.archive, b.random, b.ledger, w⟩
  | untested {w : Traced α σ} {work artifact c}
      (asked : BuildAsked s tools id edits b.world work w.events)
      (built : buildResult s.compileTimeout work = .ok artifact)
      (tested : Tested s artifact w.events none c.world.events)
      (archive : c.archive = b.archive) (ledger : c.ledger = b.ledger) :
      Stages s tools id edits b (.ok (unscored s id edits.length .exceptional)) c
  | scored {w : Traced α σ} {work artifact outcome c evaluation d}
      (asked : BuildAsked s tools id edits b.world work w.events)
      (built : buildResult s.compileTimeout work = .ok artifact)
      (tested : Tested s artifact w.events (some outcome) c.world.events)
      (archive : c.archive = b.archive) (ledger : c.ledger = b.ledger)
      (concluded : conclude s tools.traced id edits outcome c = (evaluation, d)) :
      Stages s tools id edits b (.ok evaluation) d

/-- The evaluation of selected edits goes one of these ways. -/
theorem evaluateEdits_stages [Scalar α] {s : Setup} {tools : Toolchain σ} {b : Bench σ}
    {b' : Bench (Traced α σ)} {answer : Except Fault (Evaluation α)} (id : Nat)
    (edits : List AppliedEdit)
    (h : evaluateEdits s tools.traced id edits b.traced = (answer, b')) :
    Stages s tools id edits b answer b' := by
  unfold evaluateEdits at h
  dsimp only at h
  by_cases hempty : edits = []
  · rw [if_pos (by simp [hempty])] at h
    obtain ⟨rfl, rfl⟩ := Prod.mk.inj h
    have honly : OnlyPatches ([] : List (Event α)) := nofun
    have hsteady : ¬ PatcherBroke ([] : List (Event α)) := by simp [PatcherBroke]
    exact .unpatched (w := .start b.world) honly hsteady (Or.inl rfl)
  rw [if_neg (by simp [hempty])] at h
  rcases hfiles : editedFiles s tools.traced edits b.traced.world with ⟨rendered, w⟩
  obtain ⟨hrendered, honly, hbroke⟩ := editedFiles_traced edits b.world hfiles
  rw [hfiles] at h
  rcases rendered with (cause | _) | sources
  · obtain ⟨rfl, rfl⟩ := Prod.mk.inj h
    exact .unpatched honly (mt hbroke.mpr (by simp)) (Or.inr rfl)
  · obtain ⟨rfl, rfl⟩ := Prod.mk.inj h
    exact .broken honly (hbroke.mp rfl)
  have hsteady : ¬ PatcherBroke w.events := mt hbroke.mpr (by simp)
  obtain ⟨work, world, hbuild⟩ := build_traced tools id sources s.compileTimeout w
  have hasked : BuildAsked s tools id edits b.world work (.built id sources work :: w.events) :=
    ⟨sources, w.events, hempty, hrendered, honly, hsteady, rfl⟩
  simp only [hbuild] at h
  rcases hresult : buildResult s.compileTimeout work with (failure | cause) | artifact
  · rw [hresult] at h
    obtain ⟨rfl, rfl⟩ := Prod.mk.inj h
    exact .unbuilt hasked (Or.inl rfl)
  · rw [hresult] at h
    obtain ⟨rfl, rfl⟩ := Prod.mk.inj h
    exact .unbuilt hasked (Or.inr rfl)
  · rw [hresult] at h
    dsimp only at h
    rcases htested : testArtifact α s tools.traced artifact
      { b.traced with world := ⟨world, .built id sources work :: w.events⟩ } with ⟨tested, c⟩
    obtain ⟨hlog, harchive, hledger⟩ := testArtifact_tested artifact htested
    rw [htested] at h
    rcases tested with _ | outcome
    · obtain ⟨rfl, rfl⟩ := Prod.mk.inj h
      exact .untested hasked hresult hlog harchive hledger
    · rcases hend : conclude (α := α) s tools.traced id edits outcome c with ⟨evaluation, d⟩
      dsimp only at h
      rw [hend] at h
      obtain ⟨rfl, rfl⟩ := Prod.mk.inj h
      exact .scored hasked hresult hlog harchive hledger hend

section Evaluations

variable [Scalar α] {s : Setup} {b : Bench σ}

/-- The evaluation of a chromosome goes one of these ways once its edits are selected. -/
theorem evaluate_stages (tools : Toolchain σ) (b : Bench σ) {c c' : Chromosome}
    {edits : List AppliedEdit}
    (hselected : selectEdits s.model.points s.config.filterRules s.config.maxEdits c =
      .ok (edits, c')) :
    ∃ (answer : Except Fault (Evaluation α)) (b' : Bench (Traced α σ)),
      evaluate s tools.traced c b.traced = (answer.map (·, c'), b') ∧
      evaluate s tools c b = (answer.map (·, c'), b'.erase) ∧
      Stages s tools b.ledger.evaluations edits b.begun answer b' := by
  let begun : Bench (Traced α σ) := b.begun.traced
  rcases hrun : evaluateEdits (α := α) s tools.traced b.ledger.evaluations edits begun
    with ⟨answer, b'⟩
  have htraced : evaluate s tools.traced c b.traced = (answer.map (·, c'), b') := by
    unfold evaluate
    rw [hselected]
    change ((evaluateEdits s tools.traced b.ledger.evaluations edits begun).1.map (·, c'),
      (evaluateEdits s tools.traced b.ledger.evaluations edits begun).2) = _
    rw [hrun]
  refine ⟨answer, b', htraced, ?_, evaluateEdits_stages _ edits hrun⟩
  rw [show b = (b.traced : Bench (Traced α σ)).erase from rfl, evaluate_erase, htraced]

/-- An evaluation that ended went one of these ways. -/
theorem stages_of_evaluate {tools : Toolchain σ} {b' : Bench σ} {c c' : Chromosome}
    {evaluation : Evaluation α} (h : evaluate s tools c b = (.ok (evaluation, c'), b')) :
    ∃ (edits : List AppliedEdit) (t : Bench (Traced α σ)),
      selectEdits s.model.points s.config.filterRules s.config.maxEdits c = .ok (edits, c') ∧
      t.erase = b' ∧ Stages s tools b.ledger.evaluations edits b.begun (.ok evaluation) t := by
  obtain ⟨edits, hselected, -⟩ := evaluate_eq_ok (congrArg Prod.fst h)
  obtain ⟨answer, t, -, herased, hstages⟩ := evaluate_stages (α := α) tools b hselected
  obtain ⟨hanswer, hbench⟩ := Prod.mk.inj (h.symm.trans herased)
  obtain ⟨ended, rfl, hpair⟩ := map_eq_ok_iff.mp hanswer.symm
  cases hpair
  exact ⟨edits, t, hselected, hbench.symm, hstages⟩

/-- Only an adequate evaluation changes the books, by accepting its patch, and gets a number if the
patch does. -/
theorem Stages.accepted {tools : Toolchain σ} {id : Nat} {edits : List AppliedEdit}
    {b' : Bench (Traced α σ)} {evaluation : Evaluation α}
    (h : Stages s tools id edits b (.ok evaluation) b') :
    (evaluation.status = .evaluated true → edits ≠ [] ∧
      ∃ (now : Nat) (world : Traced α σ),
        b'.ledger = (b.ledger.accept tools.traced.files edits now world).2.1 ∧
          evaluation.patchId = (b.ledger.accept tools.traced.files edits now world).1) ∧
    (evaluation.status ≠ .evaluated true →
      b'.ledger = b.ledger ∧ evaluation.patchId = none) := by
  cases h with
  | unpatched _ _ ends =>
    constructor
    · intro hadequate
      rcases ends with rfl | rfl <;> cases hadequate
    · exact fun _ => ⟨rfl, rfl⟩
  | unbuilt _ ends =>
    constructor
    · intro hadequate
      rcases ends with rfl | rfl <;> cases hadequate
    · exact fun _ => ⟨rfl, rfl⟩
  | untested _ _ _ _ ledger => exact ⟨nofun, fun _ => ⟨ledger, rfl⟩⟩
  | scored asked _ _ _ ledger concluded =>
    obtain ⟨_, _, hnonempty, -⟩ := asked
    obtain ⟨haccepted, hsame⟩ := conclude_ledger concluded
    rw [ledger] at haccepted hsame
    exact ⟨fun h => ⟨hnonempty, haccepted h⟩, hsame⟩

theorem Stages.ledger {tools : Toolchain σ} {id : Nat} {edits : List AppliedEdit}
    {b' : Bench (Traced α σ)} {evaluation : Evaluation α}
    (h : Stages s tools id edits b (.ok evaluation) b') :
    (evaluation.status = .evaluated true → edits ≠ [] ∧
      ∃ (now : Nat) (world : Traced α σ),
        b'.ledger = (b.ledger.accept tools.traced.files edits now world).2.1) ∧
    (evaluation.status ≠ .evaluated true → b'.ledger = b.ledger) := by
  obtain ⟨haccepted, hsame⟩ := h.accepted
  refine ⟨fun hadequate => ?_, fun hnot => (hsame hnot).1⟩
  obtain ⟨hsome, now, world, hledger, -⟩ := haccepted hadequate
  exact ⟨hsome, now, world, hledger⟩

end Evaluations

end PatchSearch
