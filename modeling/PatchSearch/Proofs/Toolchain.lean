import PatchSearch.Proofs.Evaluation.Simulation
import PatchSearch.Search.Report
import PatchSearch.Toolchain

/-!
What the outcome of a build or a test run tells about the work behind it. A run completes when its
work ends within the deadline with a list of failed tests, and only such a run can be one in which
all tests passed.
-/
namespace PatchSearch

theorem buildResult_eq_ok_iff (limit : Duration) (w : Work (Except CompileFailure Artifact))
    (artifact : Artifact) :
    buildResult limit w = .ok artifact ↔
      w.duration ≤ limit ∧ w.result = some (.ok artifact) := by
  rw [← Work.within_eq_ok_iff]
  unfold buildResult
  rcases w.within limit with cause | failure | built <;> simp

namespace TestOutcome

@[simp] theorem exceptional_ofFailed (r : TestRequest) (failed : List String) :
    (ofFailed r failed).exceptional = false := rfl

@[simp] theorem exceptional_incomplete (r : TestRequest) :
    (incomplete r).exceptional = true := rfl

/-- A run ended within its deadline with a list of failed tests. -/
def Completes (limit : Duration) (w : Work (Except HarnessError (List String)))
    (failed : List String) : Prop :=
  w.duration ≤ limit ∧ w.result = some (.ok failed)

theorem ofRun_of_completes (r : TestRequest) {limit : Duration}
    {w : Work (Except HarnessError (List String))} {failed : List String}
    (h : Completes limit w failed) : ofRun r limit w = ofFailed r failed := by
  unfold ofRun
  rw [(Work.within_eq_ok_iff limit w (.ok failed)).mpr h]

theorem ofRun_of_not_completes (r : TestRequest) {limit : Duration}
    {w : Work (Except HarnessError (List String))} (h : ¬ ∃ failed, Completes limit w failed) :
    ofRun r limit w = incomplete r := by
  unfold ofRun
  split
  · next failed hw => exact absurd ⟨failed, (Work.within_eq_ok_iff limit w _).mp hw⟩ h
  · rfl

theorem allPassed_ofRun_iff (r : TestRequest) (limit : Duration)
    (w : Work (Except HarnessError (List String))) :
    (ofRun r limit w).allPassed = true ↔
      ∃ failed, Completes limit w failed ∧ ∀ t ∈ r.all, t ∉ failed := by
  by_cases h : ∃ failed, Completes limit w failed
  · obtain ⟨failed, hf⟩ := h
    rw [ofRun_of_completes r hf, allPassed_ofFailed_iff]
    constructor
    · exact fun hall => ⟨failed, hf, hall⟩
    · rintro ⟨failed', hf', hall⟩
      have hsame := hf.2.symm.trans hf'.2
      simp only [Option.some.injEq, Except.ok.injEq] at hsame
      rwa [hsame]
  · rw [ofRun_of_not_completes r h, allPassed_incomplete]
    constructor
    · intro hf
      cases hf
    · rintro ⟨failed, hf, -⟩
      exact absurd ⟨failed, hf⟩ h

end TestOutcome

/-!
The log of a toolchain. A traced toolchain does what the toolchain does and notes every patch,
build, test run, write and look together with its answer, and every report, the latest first. The
log is invisible to whoever uses the toolchain.
-/

inductive Event (α : Type) where
  | patched (point : Point) (operator : Operator) (answer : Except PatcherError Edit)
  | built (id : Nat) (sources : TextMap String) (work : Work (Except CompileFailure Artifact))
  | ran (artifact : Artifact) (tests : List String) (limit : Duration)
      (work : Work (Except HarnessError (List String)))
  | wrote (path : String) (answer : Except FileError Unit)
  | looked (stopped : Bool)
  | told (progress : SearchProgress α)

/-- A state with a log of what was done to it, the latest event first. -/
structure Traced (α σ : Type) where
  world : σ
  events : List (Event α)

namespace Traced

variable {α σ : Type}

/-- A state with an empty log. -/
def start (world : σ) : Traced α σ :=
  ⟨world, []⟩

/-- The answer of an operation, the state it left, and the log with one more event. -/
def note {β : Type} (w : Traced α σ) (event : β → Event α) (x : β × σ) : β × Traced α σ :=
  (x.1, ⟨x.2, event x.1 :: w.events⟩)

end Traced

section Tracing

variable {α σ : Type}

def Storage.traced (files : Storage σ) : Storage (Traced α σ) where
  read path w := files.read path w.world
  write path content w := w.note (.wrote path) (files.write path content w.world)
  makeDirs path w :=
    let (made, world) := files.makeDirs path w.world
    (made, { w with world })
  list path w := files.list path w.world

def Toolchain.traced (tools : Toolchain σ) : Toolchain (Traced α σ) where
  patch p o i w := w.note (.patched p o) (tools.patch p o i w.world)
  compile id sources w := w.note (.built id sources) (tools.compile id sources w.world)
  runTests artifact tests limit w :=
    w.note (.ran artifact tests limit) (tools.runTests artifact tests limit w.world)
  files := tools.files.traced
  clock w := tools.clock w.world
  cancelled w := w.note .looked (tools.cancelled w.world)

/-- The bench with an empty log. -/
def Bench.traced (b : Bench σ) : Bench (Traced α σ) :=
  { b with world := .start b.world }

/-- The bench without its log. -/
def Bench.erase (b : Bench (Traced α σ)) : Bench σ :=
  { b with world := b.world.world }

/-- Forgetting the log commutes with every operation. -/
theorem Toolchain.traced_simulates (tools : Toolchain σ) :
    (tools.traced : Toolchain (Traced α σ)).Simulates tools fun w v => w.world = v where
  clock hw := congrArg tools.clock hw
  patch _ _ _ hw := hw ▸ ⟨_, _, _, rfl, rfl, rfl⟩
  compile _ _ hw := hw ▸ ⟨_, _, _, rfl, rfl, rfl⟩
  runTests _ _ _ hw := hw ▸ ⟨_, _, _, rfl, rfl, rfl⟩
  write _ _ hw := hw ▸ ⟨_, _, _, rfl, rfl, rfl⟩

theorem evaluate_erase [Scalar α] (s : Setup) (tools : Toolchain σ) (c : Chromosome)
    (b : Bench (Traced α σ)) :
    evaluate (α := α) s tools c b.erase =
      ((evaluate s tools.traced c b).1, (evaluate (α := α) s tools.traced c b).2.erase) := by
  obtain ⟨answer, d, d', hx, hy, hd⟩ :=
    (tools.traced_simulates.simulation s).evaluate (α := α)
      (show b.begun.Agree _ b.erase.begun from ⟨rfl, rfl, rfl, rfl⟩) c
  rw [hx, hy]
  obtain ⟨a, g, l, w⟩ := d
  obtain ⟨a', g', l', v⟩ := d'
  obtain ⟨rfl, rfl, rfl, rfl⟩ := hd
  rfl

end Tracing

end PatchSearch

/-!
What the log of one evaluation shows: whether the patcher broke down, what was built in time, and
which test runs were made and how they ended.
-/
namespace PatchSearch

variable {α σ : Type}

/-- The tests that were asked for in each test run of a log, with the work it took, the latest run
first. -/
def testRuns (events : List (Event α)) :
    List (List String × Work (Except HarnessError (List String))) :=
  events.filterMap fun
    | .ran _ tests _ work => some (tests, work)
    | _ => none

/-- Every one of some runs completed, and the first listed asked for the whole suite and found no
failure in it. -/
def SuitePassed (s : Setup)
    (runs : List (List String × Work (Except HarnessError (List String)))) : Prop :=
  (∀ run ∈ runs, ∃ failed, TestOutcome.Completes s.waitTime run.2 failed) ∧
    ∃ run failed, runs.head? = some run ∧ TestOutcome.Completes s.waitTime run.2 failed ∧
      ∀ t ∈ s.tests.positive ++ s.tests.negative, t ∈ run.1 ∧ t ∉ failed

/-- Some build of a log left an artifact in time. -/
def Built (s : Setup) (events : List (Event α)) : Prop :=
  ∃ id sources work artifact, Event.built id sources work ∈ events ∧
    work.duration ≤ s.compileTimeout ∧ work.result = some (.ok artifact)

/-- Some call of the patcher broke down. -/
def PatcherBroke (events : List (Event α)) : Prop :=
  ∃ point operator, Event.patched point operator (.error .brokeDown) ∈ events

/-- Nothing but the patcher was called. -/
def OnlyPatches (events : List (Event α)) : Prop :=
  ∀ e ∈ events, ∃ point operator answer, e = .patched point operator answer

section Logs

variable {events : List (Event α)}

theorem testRuns_ran (artifact : Artifact) (tests : List String) (limit : Duration)
    (work : Work (Except HarnessError (List String))) :
    testRuns (.ran artifact tests limit work :: events) = (tests, work) :: testRuns events := rfl

theorem built_cons {s : Setup} {e : Event α} (h : ∀ id sources work, e ≠ .built id sources work) :
    Built s (e :: events) ↔ Built s events := by
  have hne (id sources work) : Event.built id sources work ≠ e := (h id sources work).symm
  simp [Built, hne]

theorem patcherBroke_cons {e : Event α}
    (h : ∀ point operator, e ≠ .patched point operator (.error .brokeDown)) :
    PatcherBroke (e :: events) ↔ PatcherBroke events := by
  have hne (point : Point) (operator : Operator) :
      Event.patched point operator (.error .brokeDown) ≠ e := (h point operator).symm
  simp [PatcherBroke, hne]

variable {s : Setup} {tests : List String} {work : Work (Except HarnessError (List String))}
  {runs : List (List String × Work (Except HarnessError (List String)))}

theorem suitePassed_cons {failed : List String}
    (h : TestOutcome.Completes s.waitTime work failed) :
    SuitePassed s ((tests, work) :: runs) ↔
      (∀ run ∈ runs, ∃ failed, TestOutcome.Completes s.waitTime run.2 failed) ∧
        ∀ t ∈ s.tests.positive ++ s.tests.negative, t ∈ tests ∧ t ∉ failed := by
  constructor
  · rintro ⟨hall, run, failed', hhead, hcomplete, htests⟩
    obtain rfl : (tests, work) = run := by simpa using hhead
    have hsame := h.2.symm.trans hcomplete.2
    simp only [Option.some.injEq, Except.ok.injEq] at hsame
    subst hsame
    exact ⟨fun r hr => hall r (List.mem_cons_of_mem _ hr), htests⟩
  · rintro ⟨hall, htests⟩
    refine ⟨?_, _, failed, rfl, h, htests⟩
    intro r hr
    rcases List.mem_cons.mp hr with rfl | hr
    · exact ⟨failed, h⟩
    · exact hall r hr

theorem not_suitePassed_cons (h : ¬ ∃ failed, TestOutcome.Completes s.waitTime work failed) :
    ¬ SuitePassed s ((tests, work) :: runs) := by
  rintro ⟨hall, -⟩
  exact h (hall (tests, work) (by simp))

end Logs

namespace OnlyPatches

variable {events : List (Event α)}

theorem testRuns_eq_nil (h : OnlyPatches events) : testRuns events = [] := by
  refine List.filterMap_eq_nil_iff.mpr fun e he => ?_
  obtain ⟨point, operator, answer, rfl⟩ := h e he
  rfl

theorem built_notMem (h : OnlyPatches events) (id : Nat) (sources : TextMap String)
    (work : Work (Except CompileFailure Artifact)) : .built id sources work ∉ events := by
  intro hmem
  obtain ⟨point, operator, answer, heq⟩ := h _ hmem
  cases heq

/-- A build that follows patches is the only one there is. -/
theorem built_cons_iff (h : OnlyPatches events) (s : Setup) (id : Nat)
    (sources : TextMap String) (work : Work (Except CompileFailure Artifact)) :
    Built s (.built id sources work :: events) ↔
      ∃ artifact, buildResult s.compileTimeout work = .ok artifact := by
  simp only [buildResult_eq_ok_iff]
  constructor
  · rintro ⟨id', sources', work', artifact, hmem, hresult⟩
    rcases List.mem_cons.mp hmem with heq | hmem
    · cases heq
      exact ⟨artifact, hresult⟩
    · exact absurd hmem (h.built_notMem id' sources' work')
  · rintro ⟨artifact, hresult⟩
    exact ⟨id, sources, work, artifact, by simp, hresult⟩

theorem cons (h : OnlyPatches events) (point : Point) (operator : Operator)
    (answer : Except PatcherError Edit) :
    OnlyPatches (.patched point operator answer :: events) := by
  intro e he
  rcases List.mem_cons.mp he with rfl | he
  · exact ⟨point, operator, answer, rfl⟩
  · exact h e he

end OnlyPatches

section Calls

/-- Turning edits into a script calls nothing but the patcher, and ends in a breakdown exactly when
one of these calls does. -/
theorem scriptOf_traced (tools : Toolchain σ) (points : List Point) (edits : List AppliedEdit)
    {w : Traced α σ} (hw : OnlyPatches w.events) (hbroke : ¬ PatcherBroke w.events)
    {answer : Except PatcherError (List Edit)} {w' : Traced α σ}
    (h : scriptOf tools.traced points edits w = (answer, w')) :
    OnlyPatches w'.events ∧ (answer = .error .brokeDown ↔ PatcherBroke w'.events) := by
  induction edits generalizing w answer w' with
  | nil =>
    obtain ⟨rfl, rfl⟩ := Prod.mk.inj h
    exact ⟨hw, by simp [hbroke]⟩
  | cons e es ih =>
    unfold scriptOf at h
    cases hpoint : points[e.point]? with
    | none =>
      rw [hpoint] at h
      exact ih hw hbroke h
    | some p =>
      rw [hpoint] at h
      obtain ⟨patched, world, hpatch⟩ : ∃ patched world,
          tools.traced.patch p e.operator (e.ingredientIndex.bind (p.ingredients[·]?)) w =
            (patched, ⟨world, .patched p e.operator patched :: w.events⟩) := ⟨_, _, rfl⟩
      have honly := hw.cons p e.operator patched
      simp only [hpatch] at h
      rcases patched with (cause | _) | edit
      · obtain ⟨rfl, rfl⟩ := Prod.mk.inj h
        exact ⟨honly, by simp [patcherBroke_cons, hbroke]⟩
      · obtain ⟨rfl, rfl⟩ := Prod.mk.inj h
        exact ⟨honly, iff_of_true rfl ⟨p, e.operator, by simp⟩⟩
      · rcases hrest : scriptOf tools.traced points es
          ⟨world, .patched p e.operator (.ok edit) :: w.events⟩ with ⟨rest, w''⟩
        obtain ⟨honly', hbroke'⟩ := ih honly (by simp [patcherBroke_cons, hbroke]) hrest
        simp only [hrest] at h
        cases rest <;> obtain ⟨rfl, rfl⟩ := Prod.mk.inj h
        · exact ⟨honly', by simpa using hbroke'⟩
        · exact ⟨honly', by simpa using hbroke'⟩

/-- The log does not change what the edited files are, and it tells whether the patcher broke
down. -/
theorem editedFiles_traced {s : Setup} {tools : Toolchain σ} (edits : List AppliedEdit) (world : σ)
    {rendered : Except PatcherError (TextMap String)} {w : Traced α σ}
    (h : editedFiles s tools.traced edits (.start world) = (rendered, w)) :
    (editedFiles s tools edits world).1 = rendered ∧ OnlyPatches w.events ∧
      (rendered = .error .brokeDown ↔ PatcherBroke w.events) := by
  constructor
  · let b : Bench (Traced α σ) := Bench.start 0 0 default (.start world)
    have hw : Bench.Worlds (Bench.Agree fun w v => w.world = v) b (Bench.start 0 0 default world)
        b.world world := ⟨rfl, rfl, rfl, rfl⟩
    obtain ⟨answer, w', v', hx, hy, -⟩ :=
      ((tools.traced_simulates.simulation s).accord (α := Float) (Eq.refl 0)).editedFiles hw edits
    rw [hy]
    exact congrArg Prod.fst (hx.symm.trans h)
  · unfold editedFiles at h
    rcases hscript : scriptOf tools.traced s.model.points edits (.start world) with ⟨answer, w'⟩
    obtain ⟨honly, hbroke⟩ := scriptOf_traced tools s.model.points edits
      (by simp [OnlyPatches, Traced.start]) (by simp [PatcherBroke, Traced.start]) hscript
    rw [hscript] at h
    cases answer with
    | error cause =>
      obtain ⟨rfl, rfl⟩ := Prod.mk.inj h
      exact ⟨honly, by simpa using hbroke⟩
    | ok script =>
      obtain ⟨rfl, rfl⟩ := Prod.mk.inj h
      refine ⟨honly, ?_⟩
      rw [← hbroke]
      exact iff_of_false (PatcherError.mapError_refused_ne _) nofun

theorem build_traced (tools : Toolchain σ) (id : Nat) (sources : TextMap String) (limit : Duration)
    (w : Traced α σ) :
    ∃ work world, tools.traced.build id sources limit w =
      (buildResult limit work, ⟨world, .built id sources work :: w.events⟩) :=
  ⟨_, _, rfl⟩

theorem execute_traced (tools : Toolchain σ) (artifact : Artifact) (r : TestRequest)
    (limit : Duration) (w : Traced α σ) :
    ∃ work world, tools.traced.execute artifact r limit w =
      (TestOutcome.ofRun r limit work, ⟨world, .ran artifact r.all limit work :: w.events⟩) :=
  ⟨_, _, rfl⟩

end Calls

end PatchSearch
