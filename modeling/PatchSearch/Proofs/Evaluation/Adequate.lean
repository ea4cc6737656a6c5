import PatchSearch.Proofs.Evaluation.Reachable
import PatchSearch.Proofs.Evaluation.Sampling
import PatchSearch.Proofs.Genome.Shape
import PatchSearch.Proofs.Toolchain

/-!
When an evaluation ends as adequate. What the collaborators answered during one evaluation is read
off its log. The evaluation counts as adequate exactly when some edit was selected, the edit
script rendered, the build was made in time, every test run completed, the last run asked for the
whole suite and nothing of the suite failed in it, and, when only novelty is rewarded, there is a
suite at all. Only then the store of patches changes. Nothing but a patcher that breaks down keeps
an evaluation from its end.
-/
namespace PatchSearch

variable {α σ : Type}

/-- An evaluation came to its end, and as adequate. -/
def EndsAdequate (answer : Except Fault (Evaluation α)) : Prop :=
  ∃ evaluation, answer = .ok evaluation ∧ evaluation.status = .evaluated true

/-- What makes an evaluation adequate, read off the selected edits, the state it began with and
its log. -/
structure Adequate (s : Setup) (tools : Toolchain σ) (edits : List AppliedEdit) (world : σ)
    (events : List (Event α)) : Prop where
  selected : edits ≠ []
  rendered : ∃ sources, (editedFiles s tools edits world).1 = .ok sources
  built : Built s events
  passed : SuitePassed s (testRuns events)
  suite : s.novelty.mode = .full → s.tests.positive ++ s.tests.negative ≠ []

/-- What an evaluation of selected edits makes of the store: it ends unless the patcher broke down,
ends as adequate exactly when its log says so, changes the store in no other case, and then gives
the patch a number exactly when the store did not have it. -/
structure Acceptance (s : Setup) (tools : Toolchain σ) (edits : List AppliedEdit) (b : Bench σ)
    (answer : Except Fault (Evaluation α)) (b' : Bench (Traced α σ)) : Prop where
  ended : (∃ evaluation, answer = .ok evaluation) ↔ ¬ PatcherBroke b'.world.events
  adequate : EndsAdequate answer ↔ Adequate s tools edits b.world b'.world.events
  unchanged : ¬ EndsAdequate answer → b'.ledger.patches = b.ledger.patches ∧
    ∀ evaluation, answer = .ok evaluation → evaluation.patchId = none
  numbered : ∀ evaluation, answer = .ok evaluation → evaluation.status = .evaluated true →
    (evaluation.patchId.isSome ↔
      b.ledger.patches.contains (Patch.ofEdits (edits.map AppliedEdit.patchEdit)) = false)

@[simp] theorem endsAdequate_ok (evaluation : Evaluation α) :
    EndsAdequate (.ok evaluation) ↔ evaluation.status = .evaluated true := by
  simp [EndsAdequate]

@[simp] theorem not_endsAdequate_error (fault : Fault) :
    ¬ EndsAdequate (.error fault : Except Fault (Evaluation α)) := by
  simp [EndsAdequate]

section Stages

variable {s : Setup} {tools : Toolchain σ}

variable [Scalar α]

/-- The tests pass exactly when the log of the test runs says so, and testing leaves archive,
books and builds as they are. -/
theorem testArtifact_passed (artifact : Artifact) {b b' : Bench (Traced α σ)}
    {answer : Option (TestOutcome × Bool)} (hb : testRuns b.world.events = [])
    (h : testArtifact α s tools.traced artifact b = (answer, b')) :
    ((∃ o, answer = some (o, false) ∧ o.allPassed = true) ↔
        SuitePassed s (testRuns b'.world.events)) ∧
      (Built s b'.world.events ↔ Built s b.world.events) ∧
      (PatcherBroke b'.world.events ↔ PatcherBroke b.world.events) ∧
      b'.archive = b.archive ∧ b'.ledger = b.ledger := by
  have hpart (t : String)
      (ht : t ∈ (samplePositive α s.tests.positive s.config.percentage b.random).1) :
      t ∈ s.tests.positive :=
    mem_samplePositive α ht
  have hwhole (t : String)
      (hlength : s.tests.positive.length ≤
        (samplePositive α s.tests.positive s.config.percentage b.random).1.length)
      (ht : t ∈ s.tests.positive) :
      t ∈ (samplePositive α s.tests.positive s.config.percentage b.random).1 :=
    mem_samplePositive_of_length_le α hlength ht
  unfold testArtifact at h
  generalize samplePositive α s.tests.positive s.config.percentage b.random = sample
    at h hpart hwhole
  obtain ⟨work, world, hrun⟩ := execute_traced tools artifact
    ⟨sample.1, s.tests.negative⟩ s.waitTime b.world
  obtain ⟨work', world', hrun'⟩ := execute_traced tools artifact s.fullRequest
    s.waitTime ⟨world, .ran artifact (TestRequest.all ⟨sample.1, s.tests.negative⟩) s.waitTime
      work :: b.world.events⟩
  simp only [hrun, hrun'] at h
  by_cases hcomplete : ∃ failed, TestOutcome.Completes s.waitTime work failed
  · obtain ⟨failed, hfailed⟩ := hcomplete
    rw [TestOutcome.ofRun_of_completes _ hfailed, if_neg (by simp)] at h
    split at h
    · by_cases hcomplete' : ∃ failed, TestOutcome.Completes s.waitTime work' failed
      · obtain ⟨failed', hfailed'⟩ := hcomplete'
        rw [TestOutcome.ofRun_of_completes _ hfailed', if_neg (by simp)] at h
        obtain ⟨rfl, rfl⟩ := Prod.mk.inj h
        refine ⟨?_, by simp [built_cons], by simp [patcherBroke_cons], rfl, rfl⟩
        rw [testRuns_ran, testRuns_ran, hb, suitePassed_cons hfailed']
        simp only [Option.some.injEq, Prod.mk.injEq]
        constructor
        · rintro ⟨o, ⟨rfl, -⟩, hpassed⟩
          rw [TestOutcome.allPassed_ofFailed_iff] at hpassed
          exact ⟨by simpa using ⟨failed, hfailed⟩, fun t ht => ⟨ht, hpassed t ht⟩⟩
        · rintro ⟨-, htests⟩
          have hpassed : (TestOutcome.ofFailed s.fullRequest failed').allPassed = true :=
            (TestOutcome.allPassed_ofFailed_iff _ _).mpr fun t ht => (htests t ht).2
          exact ⟨_, ⟨rfl, by rw [hpassed]; rfl⟩, hpassed⟩
      · rw [TestOutcome.ofRun_of_not_completes _ hcomplete', if_pos (by simp)] at h
        obtain ⟨rfl, rfl⟩ := Prod.mk.inj h
        refine ⟨?_, by simp [built_cons], by simp [patcherBroke_cons], rfl, rfl⟩
        rw [testRuns_ran, testRuns_ran]
        simp [not_suitePassed_cons hcomplete']
    · next hsampled =>
      obtain ⟨rfl, rfl⟩ := Prod.mk.inj h
      refine ⟨?_, by simp [built_cons], by simp [patcherBroke_cons], rfl, rfl⟩
      rw [testRuns_ran, hb, suitePassed_cons hfailed]
      simp only [Option.some.injEq, Prod.mk.injEq]
      constructor
      · rintro ⟨o, ⟨rfl, -⟩, hpassed⟩
        have hlength : s.tests.positive.length ≤ sample.1.length := by
          simpa [hpassed] using hsampled
        rw [TestOutcome.allPassed_ofFailed_iff] at hpassed
        refine ⟨by simp, fun t ht => ?_⟩
        have hasked : t ∈ TestRequest.all ⟨sample.1, s.tests.negative⟩ := by
          rcases List.mem_append.mp ht with ht | ht
          · exact List.mem_append_left _ (hwhole t hlength ht)
          · exact List.mem_append_right _ ht
        exact ⟨hasked, hpassed t hasked⟩
      · rintro ⟨-, htests⟩
        refine ⟨_, ⟨rfl, trivial⟩, (TestOutcome.allPassed_ofFailed_iff _ _).mpr fun t ht => ?_⟩
        refine (htests t ?_).2
        rcases List.mem_append.mp ht with ht | ht
        · exact List.mem_append_left _ (hpart t ht)
        · exact List.mem_append_right _ ht
  · rw [TestOutcome.ofRun_of_not_completes _ hcomplete, if_pos (by simp)] at h
    obtain ⟨rfl, rfl⟩ := Prod.mk.inj h
    refine ⟨?_, by simp [built_cons], by simp [patcherBroke_cons], rfl, rfl⟩
    rw [testRuns_ran]
    simp [not_suitePassed_cons hcomplete]

omit [Scalar α] in
theorem ordered_eq_nil_iff (tests : TestSuite) :
    tests.ordered = [] ↔ tests.positive ++ tests.negative = [] := by
  simp only [List.eq_nil_iff_forall_not_mem, TestSuite.mem_ordered, List.mem_append]

/-- Scoring touches neither books nor collaborators, and when novelty is asked for it is found
unless the suite is empty. -/
theorem score_facts {τ : Type} {b b' : Bench τ} {sc : Score α} (edits : Nat) (o : TestOutcome)
    (hb : b.archive.Fits s.tests.ordered.length) (h : score s edits o b = (sc, b')) :
    (s.novelty.mode ≠ .none → (sc.novelty.isNone ↔ s.tests.ordered = [])) ∧
      b'.ledger = b.ledger ∧ b'.world = b.world := by
  unfold score at h
  by_cases hmode : s.novelty.mode = .none
  · simp only [if_pos hmode] at h
    obtain ⟨rfl, rfl⟩ := Prod.mk.inj h
    exact ⟨fun hne => absurd hmode hne, rfl, rfl⟩
  · simp only [if_neg hmode] at h
    have havailable := Archive.novelty_isOk_iff (α := α) hb
      (Descriptor.length_ofOutcomes s.tests.ordered o.failed) s.novelty.neighbors
    unfold scoreBehavior at h
    cases hn : b.archive.novelty (α := α) (Descriptor.ofOutcomes s.tests.ordered o.failed)
      s.novelty.neighbors with
    | error e =>
      simp only [hn] at h havailable
      obtain ⟨rfl, rfl⟩ := Prod.mk.inj h
      refine ⟨fun _ => ?_, rfl, rfl⟩
      simpa using havailable
    | ok v =>
      simp only [hn] at h havailable
      obtain ⟨rfl, rfl⟩ := Prod.mk.inj h
      refine ⟨fun _ => ?_, rfl, rfl⟩
      simpa using havailable

omit [Scalar α] in
theorem scoredStatus_eq_evaluated_true_iff (o : TestOutcome) (rejected : Bool)
    (novelty : Option α) :
    scoredStatus s o rejected novelty = .evaluated true ↔
      ¬ (s.novelty.mode = .full ∧ novelty.isNone) ∧ rejected = false ∧ o.allPassed = true := by
  unfold scoredStatus
  split
  · next h => simp [h]
  · next h =>
    cases rejected
    · simp only [Bool.false_eq_true, if_false, EvaluationStatus.evaluated.injEq]
      exact ⟨fun ho => ⟨h, trivial, ho⟩, fun hx => hx.2.2⟩
    · simp

/-- A scored outcome ends as adequate when it was not rejected, nothing failed, and a suite is
there if only novelty is rewarded. Nothing but an adequate end touches the books, and the log
grows by writes at most. -/
theorem conclude_facts {b b' : Bench (Traced α σ)} {evaluation : Evaluation α} (id : Nat)
    (edits : List AppliedEdit) (o : TestOutcome) (rejected : Bool)
    (hb : b.archive.Fits s.tests.ordered.length)
    (h : conclude s tools.traced id edits (o, rejected) b = (evaluation, b')) :
    (evaluation.status = .evaluated true ↔ (rejected = false ∧ o.allPassed = true) ∧
        (s.novelty.mode = .full → s.tests.positive ++ s.tests.negative ≠ [])) ∧
      testRuns b'.world.events = testRuns b.world.events ∧
      (Built s b'.world.events ↔ Built s b.world.events) ∧
      (PatcherBroke b'.world.events ↔ PatcherBroke b.world.events) ∧
      (evaluation.status ≠ .evaluated true →
        b'.ledger = b.ledger ∧ evaluation.patchId = none) ∧
      (evaluation.status = .evaluated true → (evaluation.patchId.isSome ↔
        b.ledger.patches.contains (Patch.ofEdits (edits.map AppliedEdit.patchEdit)) = false)) := by
  unfold conclude at h
  rcases hscore : score (α := α) s edits.length o b with ⟨sc, c⟩
  obtain ⟨hnovelty, hledger, hworld⟩ := score_facts edits.length o hb hscore
  simp only [hscore] at h
  have hstatus := scoredStatus_eq_evaluated_true_iff (s := s) o rejected sc.novelty
  generalize scoredStatus s o rejected sc.novelty = status at h hstatus
  have hadequate : status = .evaluated true ↔ (rejected = false ∧ o.allPassed = true) ∧
      (s.novelty.mode = .full → s.tests.positive ++ s.tests.negative ≠ []) := by
    rw [hstatus, Ne, ← ordered_eq_nil_iff]
    by_cases hfull : s.novelty.mode = .full
    · have hnone := hnovelty (by simp [hfull])
      simp only [hfull, true_and, hnone, forall_const]
      tauto
    · simp [hfull]
  let SameLog (w : Traced α σ) : Prop := testRuns w.events = testRuns b.world.events ∧
    (Built s w.events ↔ Built s b.world.events) ∧
    (PatcherBroke w.events ↔ PatcherBroke b.world.events)
  have hsame : SameLog c.world := by
    rw [hworld]
    exact ⟨rfl, Iff.rfl, Iff.rfl⟩
  have hwrite (path : String) (bytes : ByteArray) (w : Traced α σ) (hw : SameLog w) :
      SameLog (tools.traced.files.write path bytes w).2 :=
    ⟨hw.1, (built_cons (by simp)).trans hw.2.1, (patcherBroke_cons (by simp)).trans hw.2.2⟩
  unfold acceptIf at h
  by_cases heq : status = .evaluated true
  · have hkept : SameLog _ :=
      Ledger.accept_keeps hwrite c.ledger edits (tools.traced.clock c.world) hsame
    have hsome := Ledger.accept_isSome_iff c.ledger tools.traced.files edits
      (tools.traced.clock c.world) c.world
    rw [if_pos (by simp [EvaluationStatus.isAdequate, heq])] at h
    obtain ⟨rfl, rfl⟩ := Prod.mk.inj h
    rw [← hledger]
    exact ⟨hadequate, hkept.1, hkept.2.1, hkept.2.2, fun hne => absurd heq hne, fun _ => hsome⟩
  · rw [if_neg (by simp [EvaluationStatus.isAdequate, heq])] at h
    obtain ⟨rfl, rfl⟩ := Prod.mk.inj h
    exact ⟨hadequate, hsame.1, hsame.2.1, hsame.2.2, fun _ => ⟨hledger, rfl⟩,
      fun he => absurd he heq⟩

omit [Scalar α] in
/-- An evaluation that ends early accepts nothing, which is right if its log lacks something. -/
theorem acceptance_unscored {b : Bench σ} {b' : Bench (Traced α σ)} {edits : List AppliedEdit}
    {evaluation : Evaluation α} (hbroke : ¬ PatcherBroke b'.world.events)
    (hstatus : evaluation.status ≠ .evaluated true) (hpatch : evaluation.patchId = none)
    (hledger : b'.ledger = b.ledger)
    (hlog : ¬ Adequate s tools edits b.world b'.world.events) :
    Acceptance s tools edits b (.ok evaluation) b' where
  ended := iff_of_true ⟨evaluation, rfl⟩ hbroke
  adequate := iff_of_false (by simpa using hstatus) hlog
  unchanged _ := ⟨congrArg Ledger.patches hledger, fun _ h => Except.ok.inj h ▸ hpatch⟩
  numbered _ h he := absurd he (Except.ok.inj h ▸ hstatus)

omit [Scalar α] in
/-- An evaluation whose patcher broke down comes to no end and accepts nothing. -/
theorem acceptance_broken {b : Bench σ} {b' : Bench (Traced α σ)} {edits : List AppliedEdit}
    (fault : Fault) (hbroke : PatcherBroke b'.world.events) (hledger : b'.ledger = b.ledger)
    (hlog : ¬ Adequate s tools edits b.world b'.world.events) :
    Acceptance s tools edits b (.error fault) b' where
  ended := iff_of_false nofun fun h => h hbroke
  adequate := iff_of_false (not_endsAdequate_error fault) hlog
  unchanged _ := ⟨congrArg Ledger.patches hledger, nofun⟩
  numbered := nofun

/-- Selected edits are accepted exactly when the log of their evaluation says so. -/
theorem acceptance_evaluateEdits {b : Bench σ} {b' : Bench (Traced α σ)}
    {answer : Except Fault (Evaluation α)} (id : Nat) (edits : List AppliedEdit)
    (hb : b.archive.Fits s.tests.ordered.length)
    (h : evaluateEdits s tools.traced id edits b.traced = (answer, b')) :
    Acceptance s tools edits b answer b' := by
  unfold evaluateEdits at h
  dsimp only at h
  by_cases hempty : edits = []
  · rw [if_pos (by simp [hempty])] at h
    obtain ⟨rfl, rfl⟩ := Prod.mk.inj h
    exact acceptance_unscored (by simp [PatcherBroke, Bench.traced, Traced.start])
      (by simp [unscored]) rfl rfl fun ha => ha.selected hempty
  rw [if_neg (by simp [hempty])] at h
  rcases hfiles : editedFiles s tools.traced edits b.traced.world with ⟨rendered, w⟩
  obtain ⟨hrendered, honly, hbroke⟩ := editedFiles_traced edits b.world hfiles
  rw [hfiles] at h
  rcases rendered with (cause | _) | sources
  · obtain ⟨rfl, rfl⟩ := Prod.mk.inj h
    refine acceptance_unscored (mt hbroke.mpr (by simp)) (by simp [unscored]) rfl rfl fun ha => ?_
    obtain ⟨sources, hsources⟩ := ha.rendered
    rw [hrendered] at hsources
    cases hsources
  · obtain ⟨rfl, rfl⟩ := Prod.mk.inj h
    refine acceptance_broken _ (hbroke.mp rfl) rfl fun ha => ?_
    obtain ⟨sources, hsources⟩ := ha.rendered
    rw [hrendered] at hsources
    cases hsources
  have hsteady : ¬ PatcherBroke w.events := mt hbroke.mpr (by simp)
  obtain ⟨work, world, hbuild⟩ := build_traced tools id sources s.compileTimeout w
  have hbuilt := honly.built_cons_iff s id sources work
  have hsteady' : ¬ PatcherBroke (.built id sources work :: w.events) :=
    mt (patcherBroke_cons (by simp)).mp hsteady
  simp only [hbuild] at h
  rcases hresult : buildResult s.compileTimeout work with (failure | cause) | artifact
  · rw [hresult] at h
    obtain ⟨rfl, rfl⟩ := Prod.mk.inj h
    refine acceptance_unscored hsteady' (by simp [unscored]) rfl rfl fun ha => ?_
    simpa [hresult] using hbuilt.mp ha.built
  · rw [hresult] at h
    obtain ⟨rfl, rfl⟩ := Prod.mk.inj h
    refine acceptance_unscored hsteady' (by simp [unscored]) rfl rfl fun ha => ?_
    simpa [hresult] using hbuilt.mp ha.built
  · rw [hresult] at h
    dsimp only at h
    rcases htested : testArtifact α s tools.traced artifact
      { b.traced with world := ⟨world, .built id sources work :: w.events⟩ } with ⟨tested, c⟩
    obtain ⟨hpassed, hlog, hpatcher, harchive, hledger⟩ :=
      testArtifact_passed artifact honly.testRuns_eq_nil htested
    rw [htested] at h
    rcases tested with _ | ⟨o, rejected⟩
    · obtain ⟨rfl, rfl⟩ := Prod.mk.inj h
      refine acceptance_unscored (mt hpatcher.mp hsteady') (by simp [unscored]) rfl hledger
        fun ha => ?_
      simpa using hpassed.mpr ha.passed
    · rcases hend : conclude (α := α) s tools.traced id edits (o, rejected) c with ⟨evaluation, d⟩
      dsimp only at h
      rw [hend] at h
      obtain ⟨rfl, rfl⟩ := Prod.mk.inj h
      have hfits : c.archive.Fits s.tests.ordered.length := harchive ▸ hb
      obtain ⟨hstatus, hruns', hlog', hpatcher', hunchanged, hnumbered⟩ :=
        conclude_facts id edits o rejected hfits hend
      rw [hledger] at hunchanged hnumbered
      have hartifact : Built s d.world.events :=
        hlog'.mpr (hlog.mpr (hbuilt.mpr ⟨artifact, hresult⟩))
      have hsuite : (rejected = false ∧ o.allPassed = true) ↔
          SuitePassed s (testRuns d.world.events) := by
        rw [hruns', ← hpassed]
        constructor
        · rintro ⟨rfl, ho⟩
          exact ⟨o, rfl, ho⟩
        · rintro ⟨o', heq, ho⟩
          cases heq
          exact ⟨rfl, ho⟩
      refine ⟨iff_of_true ⟨evaluation, rfl⟩ (mt (hpatcher'.trans hpatcher).mp hsteady'), ?_,
        fun hne => ?_, fun e he => Except.ok.inj he ▸ hnumbered⟩
      · rw [endsAdequate_ok, hstatus, hsuite]
        constructor
        · rintro ⟨hp, hs⟩
          exact ⟨hempty, ⟨sources, hrendered⟩, hartifact, hp, hs⟩
        · intro ha
          exact ⟨ha.passed, ha.suite⟩
      · obtain ⟨hsame, hnone⟩ := hunchanged (mt (endsAdequate_ok evaluation).mpr hne)
        exact ⟨congrArg Ledger.patches hsame, fun e he => Except.ok.inj he ▸ hnone⟩

end Stages

/-- Acceptance is sound and complete. On every bench that evaluations come to, the evaluation of
every chromosome with the shape of the model ends, whatever the collaborators do, unless the
patcher breaks down. It ends as adequate exactly when the log of what they answered shows a build
in time and runs that all completed, the last of them over the whole suite and without a failure
in it. The store of patches changes only then, and the patch gets a number exactly when the store
did not have it. -/
theorem acceptance_evaluate [Scalar α] (s : Setup) (tools : Toolchain σ) (b : Bench σ)
    (c : Chromosome) (hb : b.Reachable α s) (hc : c.Shaped s.model.points.length) :
    ∃ (answer : Except Fault (Evaluation α)) (edits : List AppliedEdit) (c' : Chromosome)
      (b' : Bench (Traced α σ)),
      selectEdits s.model.points s.config.filterRules s.config.maxEdits c = .ok (edits, c') ∧
      evaluate s tools.traced c b.traced = (answer.map (·, c'), b') ∧
      evaluate s tools c b = (answer.map (·, c'), b'.erase) ∧
      Acceptance s tools edits b answer b' := by
  obtain ⟨⟨edits, c'⟩, hselected, -⟩ :
      Yields (selectEdits s.model.points s.config.filterRules s.config.maxEdits c) _ :=
    Chromosome.yields_selectEdits hc _ _
  let begun : Bench σ := { b with ledger := b.ledger.begin.2 }
  rcases hrun : evaluateEdits (α := α) s tools.traced b.ledger.evaluations edits begun.traced
    with ⟨answer, b'⟩
  have hfits : begun.archive.Fits s.tests.ordered.length := hb.archive_fits
  have haccept := acceptance_evaluateEdits _ edits hfits hrun
  have htraced : evaluate s tools.traced c b.traced = (answer.map (·, c'), b') := by
    unfold evaluate
    rw [hselected]
    change ((evaluateEdits s tools.traced b.ledger.evaluations edits begun.traced).1.map (·, c'),
      (evaluateEdits s tools.traced b.ledger.evaluations edits begun.traced).2) = _
    rw [hrun]
  refine ⟨answer, edits, c', b', hselected, htraced, ?_, haccept.ended, haccept.adequate,
    haccept.unchanged, haccept.numbered⟩
  rw [show b = (b.traced : Bench (Traced α σ)).erase from rfl, evaluate_erase, htraced]

/-- Tools that build anything, find no failure and keep no files. -/
def idleTools : Toolchain Unit where
  patch := linePatcher
  compile id _ w := (Work.done (.ok ⟨id, "out"⟩), w)
  runTests _ _ _ w := (Work.done (.ok []), w)
  files := {
    read := fun _ _ => .ok ByteArray.empty
    write := fun _ _ w => (.ok (), w)
    makeDirs := fun _ w => (.ok (), w)
    list := fun _ _ => .ok [] }
  clock _ := 0
  cancelled w := (false, w)

/-- A program of one line that may be deleted, with one test of either kind. -/
def oneLineSetup : Setup where
  model := ⟨[⟨⟨"A.java", 1⟩, "x++;", 1.0, [], [.delete]⟩]⟩
  tests := ⟨["T#kept"], ["T#broken"]⟩
  config := {}
  novelty := {}
  objectives := 2
  sources := SourceTree.ofFiles [("A.java", "x++;")]

/-- The deletion of the line is evaluated from the start of a run, and ends as adequate. -/
theorem acceptance_of_deleted_line :
    (Bench.start 1 0 default () : Bench Unit).Reachable Float oneLineSetup ∧
      Chromosome.Shaped oneLineSetup.model.points.length ⟨[true], [0], [0]⟩ ∧
      ∃ (answer : Except Fault (Evaluation Float)) (edits : List AppliedEdit) (c' : Chromosome)
        (b' : Bench (Traced Float Unit)),
        evaluate oneLineSetup idleTools ⟨[true], [0], [0]⟩ (.start 1 0 default ()) =
          (answer.map (·, c'), b'.erase) ∧
        Acceptance oneLineSetup idleTools edits (.start 1 0 default ()) answer b' ∧
        EndsAdequate answer := by
  have hreachable : (Bench.start 1 0 default () : Bench Unit).Reachable Float oneLineSetup :=
    Bench.Reachable.start 1 0 default ()
  have hshaped : Chromosome.Shaped oneLineSetup.model.points.length ⟨[true], [0], [0]⟩ :=
    ⟨rfl, rfl, rfl⟩
  obtain ⟨answer, edits, c', b', -, -, herased, haccept⟩ :=
    acceptance_evaluate oneLineSetup idleTools (.start 1 0 default ()) ⟨[true], [0], [0]⟩
      hreachable hshaped
  refine ⟨hreachable, hshaped, answer, edits, c', b', herased, haccept, ?_⟩
  have hstatus : (evaluate (α := Float) oneLineSetup idleTools ⟨[true], [0], [0]⟩
      (.start 1 0 default ())).1.toOption.map (fun r => r.1.status) = some (.evaluated true) := by
    decide +kernel
  rw [herased] at hstatus
  cases answer with
  | error fault => cases hstatus
  | ok evaluation => exact ⟨evaluation, rfl, Option.some.inj hstatus⟩

end PatchSearch
