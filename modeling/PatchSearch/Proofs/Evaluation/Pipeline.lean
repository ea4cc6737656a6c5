import PatchSearch.Proofs.Evaluation.Adequate
import PatchSearch.Proofs.Evaluation.Scores
import PatchSearch.Proofs.Evaluation.Selected
import PatchSearch.Proofs.Evaluation.Stages

/-!
The order of an evaluation and what is left of one that fails. The collaborators are called stage
by stage: at most one build, of the rendered sources of selected edits, and at most two test runs
of its artifact, the second only over the whole suite and only after a sample passed that left
tests out. An evaluation that ends before its tests have an outcome leaves archive, patches and
numbers as they were and reports no scores; its vector is the sentinel vector, which no outcome
gives as long as novelty is available.
-/
namespace PatchSearch

open FloatOrder

variable {α σ : Type}

/-- The stage of an evaluation that an event belongs to. -/
def Event.stage : Event α → Nat
  | .patched .. => 0
  | .built .. => 1
  | .ran .. => 2
  | _ => 3

/-- The builds of a log, with the work they took. -/
def builds (events : List (Event α)) : List (Work (Except CompileFailure Artifact)) :=
  events.filterMap fun
    | .built _ _ work => some work
    | _ => none

/-- How the collaborators were called during the evaluation of selected edits, read off its log,
which has the latest event first. -/
structure Pipeline (s : Setup) (tools : Toolchain σ) (edits : List AppliedEdit) (world : σ)
    (events : List (Event α)) : Prop where
  inOrder : events.Pairwise fun later earlier => earlier.stage ≤ later.stage
  builds_length : (builds events).length ≤ 1
  built : ∀ id sources work, .built id sources work ∈ events →
    edits ≠ [] ∧ (editedFiles s tools edits world).1 = .ok sources
  runs_length : (testRuns events).length ≤ 2
  ran : ∀ artifact tests limit work, .ran artifact tests limit work ∈ events →
    ∃ build ∈ builds events, buildResult s.compileTimeout build = .ok artifact
  rerun : ∀ first second, testRuns events = [second, first] →
    second.1 = s.fullRequest.all ∧ ∃ sample failed, first.1 = sample ++ s.tests.negative ∧
      sample.Subperm s.tests.positive ∧ sample.length < s.tests.positive.length ∧
      TestOutcome.Completes s.waitTime first.2 failed ∧ ∀ t ∈ first.1, t ∉ failed

/-- What an evaluation answers and what it leaves behind. -/
structure Settled (s : Setup) (b : Bench σ) (answer : Except Fault (Evaluation Float))
    (b' : Bench (Traced Float σ)) : Prop where
  ended : (∃ evaluation, answer = .ok evaluation) ↔ ¬ PatcherBroke b'.world.events
  counted : b'.ledger.evaluations = b.ledger.evaluations + 1
  size : ∀ evaluation, answer = .ok evaluation → evaluation.objectives.size = s.objectives
  sentinel : ∀ evaluation, answer = .ok evaluation →
    (evaluation.objectives.isSentinel = true ↔ evaluation.status ∈
      [.noActiveEdits, .patchFailed, .compileFailed, .exceptional, .noveltyUnavailable])
  untouched : (∀ evaluation, answer = .ok evaluation →
      evaluation.status ∈ [.noActiveEdits, .patchFailed, .compileFailed, .exceptional]) →
    b'.archive = b.archive ∧ b'.ledger.patches = b.ledger.patches ∧
      b'.ledger.nextPatchId = b.ledger.nextPatchId
  unreported : ∀ evaluation, answer = .ok evaluation →
    evaluation.status ∈ [.noActiveEdits, .patchFailed, .compileFailed, .exceptional] →
      evaluation.fitness = none ∧ evaluation.novelty = none ∧ evaluation.patchId = none

section Logs

variable {events : List (Event α)}

theorem OnlyPatches.stage (h : OnlyPatches events) : ∀ e ∈ events, e.stage = 0 := by
  intro e he
  obtain ⟨point, operator, answer, rfl⟩ := h e he
  rfl

theorem OnlyPatches.builds_eq_nil (h : OnlyPatches events) : builds events = [] := by
  refine List.filterMap_eq_nil_iff.mpr fun e he => ?_
  obtain ⟨point, operator, answer, rfl⟩ := h e he
  rfl

theorem OnlyWrites.testRuns_append {writes : List (Event α)} (h : OnlyWrites writes) :
    testRuns (writes ++ events) = testRuns events := by
  have hnone : testRuns writes = [] := by
    refine List.filterMap_eq_nil_iff.mpr fun e he => ?_
    obtain ⟨path, answer, rfl⟩ := h e he
    rfl
  unfold testRuns at hnone ⊢
  rw [List.filterMap_append, hnone, List.nil_append]

theorem OnlyWrites.builds_append {writes : List (Event α)} (h : OnlyWrites writes) :
    builds (writes ++ events) = builds events := by
  have hnone : builds writes = [] := by
    refine List.filterMap_eq_nil_iff.mpr fun e he => ?_
    obtain ⟨path, answer, rfl⟩ := h e he
    rfl
  unfold builds at hnone ⊢
  rw [List.filterMap_append, hnone, List.nil_append]

variable {s : Setup} {tools : Toolchain σ} {id : Nat} {edits : List AppliedEdit} {world : σ}
  {work : Work (Except CompileFailure Artifact)}

theorem OnlyPatches.pipeline (h : OnlyPatches events) : Pipeline s tools edits world events where
  inOrder := List.pairwise_of_forall_mem_list fun later hlater earlier hearlier => by
    rw [h.stage later hlater, h.stage earlier hearlier]
  builds_length := by simp [h.builds_eq_nil]
  built id sources work hmem := absurd hmem (h.built_notMem id sources work)
  runs_length := by simp [h.testRuns_eq_nil]
  ran artifact tests limit work hmem := by
    obtain ⟨point, operator, answer, heq⟩ := h _ hmem
    cases heq
  rerun first second heq := by
    rw [h.testRuns_eq_nil] at heq
    cases heq

/-- A build comes after the patches, and is the only one. -/
theorem BuildAsked.pipeline (h : BuildAsked s tools id edits world work events) :
    Pipeline s tools edits world events ∧ builds events = [work] ∧ testRuns events = [] ∧
      ∀ e ∈ events, e.stage ≤ 1 := by
  obtain ⟨sources, patches, hselected, hrendered, honly, -, rfl⟩ := h
  have hpatches : Pipeline s tools edits world patches := honly.pipeline
  have hbuilds : builds (.built id sources work :: patches) = [work] := by
    change work :: builds patches = [work]
    rw [honly.builds_eq_nil]
  have hruns : testRuns (.built id sources work :: patches) = [] := honly.testRuns_eq_nil
  refine ⟨⟨?_, ?_, ?_, ?_, ?_, ?_⟩, hbuilds, hruns, ?_⟩
  · refine List.pairwise_cons.mpr ⟨fun e he => ?_, hpatches.inOrder⟩
    rw [honly.stage e he]
    exact Nat.zero_le _
  · simp [hbuilds]
  · intro id' sources' work' hmem
    rcases List.mem_cons.mp hmem with heq | hmem
    · cases heq
      exact ⟨hselected, hrendered⟩
    · exact absurd hmem (honly.built_notMem id' sources' work')
  · simp [hruns]
  · intro artifact tests limit work' hmem
    rcases List.mem_cons.mp hmem with heq | hmem
    · cases heq
    · obtain ⟨point, operator, answer, heq⟩ := honly _ hmem
      cases heq
  · intro first second heq
    rw [hruns] at heq
    cases heq
  · intro e he
    rcases List.mem_cons.mp he with rfl | he
    · exact le_rfl
    · rw [honly.stage e he]
      exact Nat.zero_le _

/-- One more test run of an artifact that was built. -/
theorem Pipeline.cons_ran (h : Pipeline s tools edits world events)
    (hstage : ∀ e ∈ events, e.stage ≤ 2) {artifact : Artifact} {tests : List String}
    {run : Work (Except HarnessError (List String))}
    (hbuilt : ∃ build ∈ builds events, buildResult s.compileTimeout build = .ok artifact)
    (hlength : (testRuns events).length ≤ 1)
    (hagain : ∀ first, testRuns events = [first] → tests = s.fullRequest.all ∧
      ∃ sample failed, first.1 = sample ++ s.tests.negative ∧ sample.Subperm s.tests.positive ∧
        sample.length < s.tests.positive.length ∧
        TestOutcome.Completes s.waitTime first.2 failed ∧ ∀ t ∈ first.1, t ∉ failed) :
    Pipeline s tools edits world (.ran artifact tests s.waitTime run :: events) where
  inOrder := List.pairwise_cons.mpr ⟨fun e he => hstage e he, h.inOrder⟩
  builds_length := h.builds_length
  built id sources work hmem := by
    rcases List.mem_cons.mp hmem with heq | hmem
    · cases heq
    · exact h.built id sources work hmem
  runs_length := Nat.succ_le_succ hlength
  ran artifact' tests' limit work hmem := by
    rcases List.mem_cons.mp hmem with heq | hmem
    · cases heq
      exact hbuilt
    · exact h.ran artifact' tests' limit work hmem
  rerun first second heq := by
    obtain ⟨rfl, hfirst⟩ := List.cons.inj heq
    exact hagain first hfirst

theorem Tested.pipeline {artifact : Artifact} {before : List (Event α)}
    {answer : Option (TestOutcome × Bool)} (h : Tested s artifact before answer events)
    (hasked : BuildAsked s tools id edits world work before)
    (hbuilt : buildResult s.compileTimeout work = .ok artifact) :
    Pipeline s tools edits world events ∧ ∀ e ∈ events, e.stage ≤ 2 := by
  obtain ⟨hbefore, hbuilds, hruns, hstage⟩ := hasked.pipeline
  have hartifact : ∃ build ∈ builds before, buildResult s.compileTimeout build = .ok artifact := by
    rw [hbuilds]
    exact ⟨work, List.mem_singleton_self work, hbuilt⟩
  have hfirst (tests : List String) (run : Work (Except HarnessError (List String))) :
      Pipeline s tools edits world (.ran artifact tests s.waitTime run :: before) ∧
        ∀ e ∈ Event.ran artifact tests s.waitTime run :: before, e.stage ≤ 2 := by
    constructor
    · refine hbefore.cons_ran (fun e he => (hstage e he).trans one_le_two) hartifact ?_ ?_
      · simp [hruns]
      · intro first heq
        rw [hruns] at heq
        cases heq
    · exact List.forall_mem_cons.mpr ⟨le_rfl, fun e he => (hstage e he).trans one_le_two⟩
  cases h with
  | incomplete => exact hfirst _ _
  | once => exact hfirst _ _
  | @twice sample run failed run' _ hpart hshort hcompletes hpassed _ =>
    obtain ⟨hpipeline, hbound⟩ := hfirst (sample ++ s.tests.negative) run
    have hone : testRuns (.ran artifact (sample ++ s.tests.negative) s.waitTime run :: before) =
        [(sample ++ s.tests.negative, run)] := by
      rw [testRuns_ran, hruns]
    constructor
    · refine hpipeline.cons_ran hbound hartifact ?_ ?_
      · simp [hone]
      · intro first heq
        rw [hone] at heq
        obtain ⟨rfl, -⟩ := List.cons.inj heq
        exact ⟨rfl, sample, failed, rfl, hpart, hshort, hcompletes, hpassed⟩
    · exact List.forall_mem_cons.mpr ⟨le_rfl, hbound⟩

theorem Pipeline.append_writes (h : Pipeline s tools edits world events)
    (hstage : ∀ e ∈ events, e.stage ≤ 2) {writes : List (Event α)} (hwrites : OnlyWrites writes) :
    Pipeline s tools edits world (writes ++ events) where
  inOrder := by
    have hlast (e : Event α) (he : e ∈ writes) : e.stage = 3 := by
      obtain ⟨path, answer, rfl⟩ := hwrites e he
      rfl
    refine List.pairwise_append.mpr ⟨?_, h.inOrder, fun later hlater earlier hearlier => ?_⟩
    · refine List.pairwise_of_forall_mem_list fun later hlater earlier hearlier => ?_
      rw [hlast later hlater, hlast earlier hearlier]
    · rw [hlast later hlater]
      exact (hstage earlier hearlier).trans (Nat.le_succ 2)
  builds_length := by
    rw [hwrites.builds_append]
    exact h.builds_length
  built id sources work hmem := by
    refine h.built id sources work ((List.mem_append.mp hmem).resolve_left fun hmem => ?_)
    obtain ⟨path, answer, heq⟩ := hwrites _ hmem
    cases heq
  runs_length := by
    rw [hwrites.testRuns_append]
    exact h.runs_length
  ran artifact tests limit work hmem := by
    rw [hwrites.builds_append]
    refine h.ran artifact tests limit work ((List.mem_append.mp hmem).resolve_left fun hmem => ?_)
    obtain ⟨path, answer, heq⟩ := hwrites _ hmem
    cases heq
  rerun first second heq := by
    rw [hwrites.testRuns_append] at heq
    exact h.rerun first second heq

/-- However the evaluation of selected edits goes, its collaborators are called in order. -/
theorem Stages.pipeline [Scalar α] {b : Bench σ} {b' : Bench (Traced α σ)}
    {answer : Except Fault (Evaluation α)} (h : Stages s tools id edits b answer b') :
    Pipeline s tools edits b.world b'.world.events := by
  cases h with
  | broken only => exact only.pipeline
  | unpatched only => exact only.pipeline
  | unbuilt asked => exact asked.pipeline.1
  | untested asked built tested => exact (tested.pipeline asked built).1
  | scored asked built tested _ _ concluded =>
    obtain ⟨hpipeline, hstage⟩ := tested.pipeline asked built
    obtain ⟨writes, hwrites, hevents⟩ := conclude_writes _ _ _ concluded
    rw [hevents]
    exact hpipeline.append_writes hstage hwrites

/-- Testing and writing call no patcher. -/
theorem Tested.patcherBroke_iff {artifact : Artifact} {before : List (Event α)}
    {answer : Option (TestOutcome × Bool)} (h : Tested s artifact before answer events) :
    PatcherBroke events ↔ PatcherBroke before := by
  cases h <;> simp [patcherBroke_cons]

theorem OnlyWrites.patcherBroke_append {writes : List (Event α)} (h : OnlyWrites writes) :
    PatcherBroke (writes ++ events) ↔ PatcherBroke events := by
  have hwrite (point : Point) (operator : Operator) :
      Event.patched point operator (.error .brokeDown) ∉ writes := by
    intro hmem
    obtain ⟨path, answer, heq⟩ := h _ hmem
    cases heq
  simp [PatcherBroke, hwrite]

theorem BuildAsked.steady (h : BuildAsked s tools id edits world work events) :
    ¬ PatcherBroke events := by
  obtain ⟨sources, patches, -, -, -, hsteady, rfl⟩ := h
  exact mt (patcherBroke_cons (by simp)).mp hsteady

end Logs

section Statuses

variable {s : Setup}

theorem scoredStatus_notMem (o : TestOutcome) (rejected : Bool) (novelty : Option α) :
    scoredStatus s o rejected novelty ∉
      [.noActiveEdits, .patchFailed, .compileFailed, .exceptional] := by
  unfold scoredStatus
  split
  · decide
  · split <;> simp

theorem scoredStatus_eq_noveltyUnavailable_iff (o : TestOutcome) (rejected : Bool)
    (novelty : Option α) :
    scoredStatus s o rejected novelty = .noveltyUnavailable ↔
      s.novelty.mode = .full ∧ novelty = none := by
  unfold scoredStatus
  rw [← Option.isNone_iff_eq_none]
  split
  · next h => simp [h]
  · next h =>
    refine iff_of_false ?_ h
    split <;> simp

end Statuses

namespace Stages

variable {s : Setup} {tools : Toolchain σ} {id : Nat} {edits : List AppliedEdit} {b : Bench σ}

section Ends

variable [Scalar α] {b' : Bench (Traced α σ)} {answer : Except Fault (Evaluation α)}

theorem ended (h : Stages s tools id edits b answer b') :
    (∃ evaluation, answer = .ok evaluation) ↔ ¬ PatcherBroke b'.world.events := by
  cases h with
  | broken _ broke => exact iff_of_false nofun fun hsteady => hsteady broke
  | unpatched _ steady => exact iff_of_true ⟨_, rfl⟩ steady
  | unbuilt asked => exact iff_of_true ⟨_, rfl⟩ asked.steady
  | untested asked _ tested =>
    exact iff_of_true ⟨_, rfl⟩ (mt tested.patcherBroke_iff.mp asked.steady)
  | scored asked _ tested _ _ concluded =>
    obtain ⟨writes, hwrites, hevents⟩ := conclude_writes _ _ _ concluded
    refine iff_of_true ⟨_, rfl⟩ ?_
    rw [hevents, hwrites.patcherBroke_append, tested.patcherBroke_iff]
    exact asked.steady

theorem counted (h : Stages s tools id edits b answer b') :
    b'.ledger.evaluations = b.ledger.evaluations := by
  cases h with
  | broken => rfl
  | unpatched => rfl
  | unbuilt => rfl
  | untested _ _ _ _ ledger => exact congrArg Ledger.evaluations ledger
  | scored _ _ _ _ ledger concluded =>
    obtain ⟨sc, c, -, -, -, -, hevaluations⟩ := conclude_spec concluded
    exact hevaluations.trans (congrArg Ledger.evaluations ledger)

/-- Nothing but an outcome that is scored touches archive and books. -/
theorem untouched (h : Stages s tools id edits b answer b')
    (hstatus : ∀ evaluation, answer = .ok evaluation →
      evaluation.status ∈ [.noActiveEdits, .patchFailed, .compileFailed, .exceptional]) :
    b'.archive = b.archive ∧ b'.ledger = b.ledger := by
  cases h with
  | broken => exact ⟨rfl, rfl⟩
  | unpatched => exact ⟨rfl, rfl⟩
  | unbuilt => exact ⟨rfl, rfl⟩
  | untested _ _ _ archive ledger => exact ⟨archive, ledger⟩
  | scored _ _ _ _ _ concluded =>
    obtain ⟨sc, c, -, -, -, hscored, -⟩ := conclude_spec concluded
    have hearly := hstatus _ rfl
    rw [hscored] at hearly
    exact absurd hearly (scoredStatus_notMem _ _ _)

theorem unreported {evaluation : Evaluation α} (h : Stages s tools id edits b (.ok evaluation) b')
    (hstatus : evaluation.status ∈ [.noActiveEdits, .patchFailed, .compileFailed, .exceptional]) :
    evaluation.fitness = none ∧ evaluation.novelty = none ∧ evaluation.patchId = none := by
  cases h with
  | unpatched => exact ⟨rfl, rfl, rfl⟩
  | unbuilt => exact ⟨rfl, rfl, rfl⟩
  | untested => exact ⟨rfl, rfl, rfl⟩
  | scored _ _ _ _ _ concluded =>
    obtain ⟨sc, c, -, -, -, hscored, -⟩ := conclude_spec concluded
    rw [hscored] at hstatus
    exact absurd hstatus (scoredStatus_notMem _ _ _)

end Ends

/-- The sentinel vector stands for the evaluations without a score, and for no other. -/
theorem sentinel {b' : Bench (Traced Float σ)} {evaluation : Evaluation Float} (hs : s.Weighted)
    (hb : b.archive.Describes s.tests.ordered)
    (h : Stages s tools id edits b (.ok evaluation) b') :
    evaluation.objectives.isSentinel = true ↔ evaluation.status ∈
      [.noActiveEdits, .patchFailed, .compileFailed, .exceptional, .noveltyUnavailable] := by
  have hunscored := Objectives.isSentinel_sentinel s.objectives
  cases h with
  | unpatched _ _ ends =>
    exact iff_of_true hunscored (by rcases ends with h | h <;> simp [unscored, h])
  | unbuilt _ ends => exact iff_of_true hunscored (by rcases ends with h | h <;> simp [unscored, h])
  | untested => exact iff_of_true hunscored (by simp [unscored])
  | @scored _ _ _ outcome c _ _ _ _ tested archive _ concluded =>
    obtain ⟨o, rejected⟩ := outcome
    obtain ⟨⟨r, failed, rfl⟩, -⟩ := tested.outcome
    obtain ⟨sc, c', hscore, hobjectives, -, hstatus, -⟩ := conclude_spec concluded
    obtain ⟨hfitness, hvector, hnovelty, -⟩ := score_spec hscore
    rw [archive] at hnovelty
    have hwithin : ∀ v ∈ sc.novelty, v.isNaN = false → Within 1 v := fun v hv hnumber =>
      hb.within_novelty ⟨_, rfl⟩ (hnovelty v hv) (Or.inr hnumber)
    rw [hobjectives, hvector, hfitness, hstatus,
      hs.isSentinel_modeObjectives (TestOutcome.sound_ofFailed r failed) hwithin,
      ← scoredStatus_eq_noveltyUnavailable_iff (TestOutcome.ofFailed r failed) rejected]
    have hlate := scoredStatus_notMem (s := s) (TestOutcome.ofFailed r failed) rejected sc.novelty
    generalize scoredStatus s (TestOutcome.ofFailed r failed) rejected sc.novelty = status at *
    constructor
    · rintro rfl
      simp
    · intro hmem
      simp only [List.mem_cons, List.not_mem_nil, or_false] at hmem hlate
      tauto

end Stages

namespace Bench

theorem keeps_describes (s : Setup) (tools : Toolchain σ) :
    Keeps s tools fun b => b.archive.Describes s.tests.ordered where
  patch _ _ _ h := h
  compile _ _ h := h
  runTests _ _ _ h := h
  draw _ h := h
  insert failed h := h.insert ⟨failed, rfl⟩ _
  accept _ _ h := h

theorem Reachable.archive_describes [Scalar α] {s : Setup} {b : Bench σ} (h : b.Reachable α s) :
    b.archive.Describes s.tests.ordered := by
  induction h with
  | start archiveSize seed ledger world => intro d hd; cases hd
  | evaluate tools c h ih => exact (keeps_describes s tools).evaluate ih c
  | between ledger world h ih => exact ih

end Bench

/-- Evaluation calls its collaborators in order and fails without a trace. On every bench that
evaluations come to, and with every valid configuration whose weight and one more lie below the
sentinel, the evaluation of every chromosome with the shape of the model asks for at most one build
and at most two test runs of its artifact, stage by stage, and gives a vector of the configured
size. The vector is the sentinel vector exactly when the evaluation could not be scored, one
evaluation more is counted however it ends, and an evaluation that ends before its tests have an
outcome changes neither archive nor patches nor numbers and reports nothing. -/
theorem pipeline_evaluate (config : RepairConfig) (model : ProgramModel) (tests : TestSuite)
    (sources : SourceTree) (hvalid : config.validate = .ok ())
    (hweight : config.evaluation.weight + 1.0 < Scalar.sentinel) (tools : Toolchain σ)
    (b : Bench σ) (c : Chromosome)
    (hb : b.Reachable Float (Setup.ofConfig model tests config sources))
    (hc : c.Shaped model.points.length) :
    let s := Setup.ofConfig model tests config sources
    ∃ (answer : Except Fault (Evaluation Float)) (edits : List AppliedEdit) (c' : Chromosome)
      (b' : Bench (Traced Float σ)),
      selectEdits s.model.points s.config.filterRules s.config.maxEdits c = .ok (edits, c') ∧
      evaluate s tools.traced c b.traced = (answer.map (·, c'), b') ∧
      evaluate s tools c b = (answer.map (·, c'), b'.erase) ∧
      Pipeline s tools edits b.world b'.world.events ∧ Settled s b answer b' := by
  intro s
  obtain ⟨-, -, hone, hthree⟩ := RepairConfig.search_of_validate hvalid
  have hs : s.Weighted := Setup.weighted_ofConfig hvalid hweight model tests sources
  obtain ⟨⟨edits, c'⟩, hselected, -⟩ :
      Yields (selectEdits s.model.points s.config.filterRules s.config.maxEdits c) _ :=
    Chromosome.yields_selectEdits hc _ _
  obtain ⟨answer, b', htraced, herased, hstages⟩ := evaluate_stages (α := Float) tools b hselected
  refine ⟨answer, edits, c', b', hselected, htraced, herased, hstages.pipeline, hstages.ended,
    hstages.counted, ?_, ?_, ?_, ?_⟩
  · rintro evaluation rfl
    obtain ⟨edits', -, hanswer⟩ := evaluate_eq_ok (congrArg Prod.fst herased)
    exact evaluateEdits_size hanswer hone hthree
  · rintro evaluation rfl
    have hdescribes : b.begun.archive.Describes s.tests.ordered := hb.archive_describes
    exact hstages.sentinel hs hdescribes
  · intro hearly
    obtain ⟨harchive, hledger⟩ := hstages.untouched hearly
    rw [hledger]
    exact ⟨harchive, rfl, rfl⟩
  · rintro evaluation rfl hearly
    exact hstages.unreported hearly

/-- With the default configuration the deletion of the only line is built once and tested once. -/
theorem pipeline_of_deleted_line :
    ({} : RepairConfig).validate = .ok () ∧
      ({} : RepairConfig).evaluation.weight + 1.0 < Scalar.sentinel ∧
      (Bench.start 1 0 default () : Bench Unit).Reachable Float oneLineSetup ∧
      Chromosome.Shaped oneLineSetup.model.points.length ⟨[true], [0], [0]⟩ ∧
      ∃ (answer : Except Fault (Evaluation Float)) (edits : List AppliedEdit) (c' : Chromosome)
        (b' : Bench (Traced Float Unit)),
        evaluate oneLineSetup idleTools ⟨[true], [0], [0]⟩ (.start 1 0 default ()) =
          (answer.map (·, c'), b'.erase) ∧
        Pipeline oneLineSetup idleTools edits () b'.world.events ∧
        Settled oneLineSetup (.start 1 0 default ()) answer b' ∧
        (builds b'.world.events).length = 1 ∧ (testRuns b'.world.events).length = 1 := by
  have hvalid : ({} : RepairConfig).validate = .ok () := rfl
  have hweight : ({} : RepairConfig).evaluation.weight + 1.0 < Scalar.sentinel := by
    decide +kernel
  have hreachable : (Bench.start 1 0 default () : Bench Unit).Reachable Float oneLineSetup :=
    Bench.Reachable.start 1 0 default ()
  have hshaped : Chromosome.Shaped oneLineSetup.model.points.length ⟨[true], [0], [0]⟩ :=
    ⟨rfl, rfl, rfl⟩
  obtain ⟨answer, edits, c', b', -, htraced, herased, hpipeline, hsettled⟩ :=
    pipeline_evaluate {} oneLineSetup.model oneLineSetup.tests oneLineSetup.sources hvalid hweight
      idleTools (.start 1 0 default ()) ⟨[true], [0], [0]⟩ hreachable hshaped
  let start : Bench (Traced Float Unit) := (Bench.start 1 0 default ()).traced
  have hcalls :
      let events := (evaluate (α := Float) oneLineSetup idleTools.traced ⟨[true], [0], [0]⟩
        start).2.world.events
      (builds events).length = 1 ∧ (testRuns events).length = 1 := by
    decide +kernel
  rw [show evaluate (α := Float) oneLineSetup idleTools.traced ⟨[true], [0], [0]⟩ start = _ from
    htraced] at hcalls
  exact ⟨hvalid, hweight, hreachable, hshaped, answer, edits, c', b', herased, hpipeline, hsettled,
    hcalls⟩

end PatchSearch
