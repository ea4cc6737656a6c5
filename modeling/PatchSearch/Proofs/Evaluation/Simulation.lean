import PatchSearch.Evaluation.Evaluate
import PatchSearch.Proofs.Yields

/-!
Evaluations side by side. Two evaluations are in accord under a relation of benches if each
operation that they may use gives the same answer on related benches and leaves them related;
artifacts, and what is concluded from an outcome, need only be related as well. Then whole
evaluations are in accord.

Two toolchains simulate each other if whatever they do is the same. With one toolchain and a
relation of each bench to itself this says that a property of benches is kept; with a toolchain that
keeps a log and the projection that forgets the log it says that the log changes nothing.
-/
namespace PatchSearch

variable {σ τ : Type}

/-- Two operations give the same answer and leave related states. -/
def Alike {β : Type} (R : τ → σ → Prop) (x : β × τ) (y : β × σ) : Prop :=
  ∃ answer w v, x = (answer, w) ∧ y = (answer, v) ∧ R w v

theorem Alike.intro {β : Type} {R : τ → σ → Prop} (answer : β) {w : τ} {v : σ} (h : R w v) :
    Alike R (answer, w) (answer, v) :=
  ⟨answer, w, v, rfl, rfl, h⟩

/-- Two operations give related answers and leave related states. -/
def Matched {β γ : Type} (P : β → γ → Prop) (R : τ → σ → Prop) (x : β × τ) (y : γ × σ) : Prop :=
  P x.1 y.1 ∧ R x.2 y.2

theorem Alike.matched {β : Type} {P : β → β → Prop} {R : τ → σ → Prop} {x : β × τ} {y : β × σ}
    (h : Alike R x y) (hp : ∀ answer, P answer answer) : Matched P R x y := by
  obtain ⟨answer, w, v, rfl, rfl, hw⟩ := h
  exact ⟨hp answer, hw⟩

theorem Matched.alike {β : Type} {R : τ → σ → Prop} {x : β × τ} {y : β × σ}
    (h : Matched (· = ·) R x y) : Alike R x y := by
  obtain ⟨answer, w⟩ := x
  obtain ⟨answer', v⟩ := y
  obtain ⟨heq, hw⟩ := h
  dsimp only at heq hw
  exact heq ▸ Alike.intro answer hw

/-- The relation of the states of two benches that only differ in their states. -/
def Bench.Worlds (Q : Bench τ → Bench σ → Prop) (b : Bench τ) (b' : Bench σ) (w : τ) (v : σ) :
    Prop :=
  Q { b with world := w } { b' with world := v }

/-- The bench once the next evaluation has begun. -/
def Bench.begun (b : Bench σ) : Bench σ :=
  { b with ledger := b.ledger.begin.2 }

section Builds

/-- Two builds take the same time and fail alike or make related artifacts. -/
inductive BuildsAlike (K : Artifact → Artifact → Prop) :
    Work (Except CompileFailure Artifact) → Work (Except CompileFailure Artifact) → Prop
  | made (duration : Duration) {a a' : Artifact} (h : K a a') :
      BuildsAlike K ⟨duration, some (.ok a)⟩ ⟨duration, some (.ok a')⟩
  | failed (duration : Duration) (failure : CompileFailure) :
      BuildsAlike K ⟨duration, some (.error failure)⟩ ⟨duration, some (.error failure)⟩
  | broken (duration : Duration) : BuildsAlike K ⟨duration, none⟩ ⟨duration, none⟩

theorem BuildsAlike.refl (w : Work (Except CompileFailure Artifact)) :
    BuildsAlike (· = ·) w w := by
  obtain ⟨duration, _ | failure | artifact⟩ := w
  · exact .broken duration
  · exact .failed duration failure
  · exact .made duration rfl

theorem BuildsAlike.buildResult {K : Artifact → Artifact → Prop}
    {w w' : Work (Except CompileFailure Artifact)} (h : BuildsAlike K w w') (limit : Duration) :
    SameCourse K (buildResult limit w) (buildResult limit w') := by
  unfold PatchSearch.buildResult Work.within
  cases h with
  | made duration ha =>
    by_cases htime : duration ≤ limit
    · simpa only [if_pos htime] using SameCourse.ok ha
    · simpa only [if_neg htime] using SameCourse.error _
  | failed duration failure =>
    by_cases htime : duration ≤ limit
    · simpa only [if_pos htime] using SameCourse.error _
    · simpa only [if_neg htime] using SameCourse.error _
  | broken duration =>
    by_cases htime : duration ≤ limit
    · simpa only [if_pos htime] using SameCourse.error _
    · simpa only [if_neg htime] using SameCourse.error _

end Builds

/-- What two evaluations with given numbers have in common under a relation of benches, up to a
relation of artifacts and one of evaluations. Their setups differ in their novelty at most. -/
structure Accord {α : Type} [Scalar α] (s s' : Setup) (fine : Toolchain τ) (coarse : Toolchain σ)
    (id id' : Nat) (Q : Bench τ → Bench σ → Prop) (K : Artifact → Artifact → Prop)
    (E : Evaluation α → Evaluation α → Prop) : Prop where
  setup : s' = { s with novelty := s'.novelty }
  patch : ∀ {b b'} p o i, Q b b' →
    Alike (Bench.Worlds Q b b') (fine.patch p o i b.world) (coarse.patch p o i b'.world)
  compile : ∀ {b b'} sources, Q b b' →
    Matched (BuildsAlike K) (Bench.Worlds Q b b') (fine.compile id sources b.world)
      (coarse.compile id' sources b'.world)
  runTests : ∀ {b b' a a'} tests limit, K a a' → Q b b' →
    Alike (Bench.Worlds Q b b') (fine.runTests a tests limit b.world)
      (coarse.runTests a' tests limit b'.world)
  sample : ∀ {b b'}, Q b b' →
    Alike (fun g g' => Q { b with random := g } { b' with random := g' })
      (samplePositive α s.tests.positive s.config.percentage b.random)
      (samplePositive α s.tests.positive s.config.percentage b'.random)
  ended : ∀ edits status, E (unscored s id edits status) (unscored s' id' edits status)
  concluded : ∀ {b b'} edits outcome, Q b b' →
    Matched E Q (conclude s fine id edits outcome b) (conclude s' coarse id' edits outcome b')

namespace Accord

variable {α : Type} [Scalar α] {s s' : Setup} {fine : Toolchain τ} {coarse : Toolchain σ}
  {id id' : Nat} {Q : Bench τ → Bench σ → Prop} {K : Artifact → Artifact → Prop}
  {E : Evaluation α → Evaluation α → Prop} {b : Bench τ} {b' : Bench σ}

section Stages

variable {w : τ} {v : σ}

theorem scriptOf (h : Accord s s' fine coarse id id' Q K E) (hw : Bench.Worlds Q b b' w v)
    (points : List Point) (edits : List AppliedEdit) :
    Alike (Bench.Worlds Q b b') (PatchSearch.scriptOf fine points edits w)
      (PatchSearch.scriptOf coarse points edits v) := by
  induction edits generalizing w v with
  | nil => exact Alike.intro _ hw
  | cons e es ih =>
    unfold PatchSearch.scriptOf
    cases points[e.point]? with
    | none => exact ih hw
    | some p =>
      obtain ⟨answer, w', v', hx, hy, hw'⟩ :
        Alike (Bench.Worlds Q b b') (fine.patch p _ _ w) (coarse.patch p _ _ v) :=
        h.patch p e.operator (e.ingredientIndex.bind (p.ingredients[·]?)) hw
      simp only [hx, hy]
      cases answer with
      | error err => exact Alike.intro _ hw'
      | ok edit =>
        obtain ⟨answer, w', v', hx, hy, hw'⟩ := ih hw'
        simp only [hx, hy]
        cases answer <;> exact Alike.intro _ hw'

theorem editedFiles (h : Accord s s' fine coarse id id' Q K E) (hw : Bench.Worlds Q b b' w v)
    (edits : List AppliedEdit) :
    Alike (Bench.Worlds Q b b') (PatchSearch.editedFiles s fine edits w)
      (PatchSearch.editedFiles s coarse edits v) := by
  obtain ⟨answer, w', v', hx, hy, hw'⟩ := h.scriptOf hw s.model.points edits
  unfold PatchSearch.editedFiles
  simp only [hx, hy]
  cases answer <;> exact Alike.intro _ hw'

theorem build (h : Accord s s' fine coarse id id' Q K E) (hw : Bench.Worlds Q b b' w v)
    (sources : TextMap String) (limit : Duration) :
    Matched (SameCourse K) (Bench.Worlds Q b b') (fine.build id sources limit w)
      (coarse.build id' sources limit v) := by
  obtain ⟨hwork, hw'⟩ :
    Matched (BuildsAlike K) (Bench.Worlds Q b b') (fine.compile id sources w)
      (coarse.compile id' sources v) :=
    h.compile sources hw
  exact ⟨hwork.buildResult limit, hw'⟩

theorem execute (h : Accord s s' fine coarse id id' Q K E) (hw : Bench.Worlds Q b b' w v)
    {a a' : Artifact} (ha : K a a') (r : TestRequest) (limit : Duration) :
    Alike (Bench.Worlds Q b b') (fine.execute a r limit w) (coarse.execute a' r limit v) := by
  obtain ⟨answer, w', v', hx, hy, hw'⟩ :
    Alike (Bench.Worlds Q b b') (fine.runTests a _ _ w) (coarse.runTests a' _ _ v) :=
    h.runTests r.all limit ha hw
  simp only [Toolchain.execute, hx, hy]
  exact Alike.intro _ hw'

end Stages

theorem testArtifact (h : Accord s s' fine coarse id id' Q K E) (hb : Q b b') {a a' : Artifact}
    (ha : K a a') :
    Alike Q (PatchSearch.testArtifact α s fine a b)
      (PatchSearch.testArtifact α s coarse a' b') := by
  obtain ⟨sample, g, g', hg, hg', hdrawn⟩ := h.sample hb
  change Bench.Worlds Q { b with random := g } { b' with random := g' } _ _ at hdrawn
  obtain ⟨outcome, w, v, hx, hy, hw⟩ := h.execute hdrawn ha ⟨sample, s.tests.negative⟩ s.waitTime
  unfold PatchSearch.testArtifact
  simp only [hg, hg', hx, hy]
  split
  · exact Alike.intro _ hw
  · split
    · obtain ⟨full, w', v', hx', hy', hw'⟩ := h.execute hw ha s.fullRequest s.waitTime
      simp only [hx', hy']
      split <;> exact Alike.intro _ hw'
    · exact Alike.intro _ hw

theorem evaluateEdits (h : Accord s s' fine coarse id id' Q K E) (hb : Q b b')
    (edits : List AppliedEdit) :
    Matched (SameCourse E) Q (PatchSearch.evaluateEdits s fine id edits b)
      (PatchSearch.evaluateEdits s' coarse id' edits b') := by
  obtain ⟨novelty, hs⟩ : ∃ novelty, s' = { s with novelty } := ⟨_, h.setup⟩
  have hunscored (status : EvaluationStatus) :
      SameCourse E (.ok (unscored s id edits.length status) : Except Fault _)
        (.ok (unscored s' id' edits.length status)) :=
    SameCourse.ok (h.ended edits.length status)
  have hconclude (outcome : TestOutcome × Bool) {d : Bench τ} {d' : Bench σ} (hd : Q d d') :=
    h.concluded edits outcome hd
  subst hs
  unfold PatchSearch.evaluateEdits
  split
  · exact ⟨hunscored _, hb⟩
  · obtain ⟨rendered, w, v, hx, hy, hw⟩ :=
      h.editedFiles (w := b.world) (v := b'.world) hb edits
    change PatchSearch.editedFiles { s with novelty } coarse edits b'.world = _ at hy
    simp only [hx, hy]
    rcases rendered with (cause | _) | sources
    · exact ⟨hunscored _, hw⟩
    · exact ⟨SameCourse.error _, hw⟩
    · have hbuild := h.build hw sources s.compileTimeout
      change Matched _ _ _ (coarse.build id' sources
        (Setup.compileTimeout { s with novelty }) v) at hbuild
      dsimp only
      generalize fine.build id sources s.compileTimeout w = x at hbuild
      generalize coarse.build id' sources (Setup.compileTimeout { s with novelty }) v = y at hbuild
      obtain ⟨built, w⟩ := x
      obtain ⟨built', v⟩ := y
      obtain ⟨⟨error, rfl, rfl⟩ | ⟨artifact, artifact', rfl, rfl, ha⟩, hw⟩ := hbuild
      · cases error with
        | failed failure => exact ⟨hunscored _, hw⟩
        | interrupted cause => exact ⟨hunscored _, hw⟩
      · obtain ⟨outcome, c, c', hx, hy, hc⟩ := h.testArtifact hw ha
        change PatchSearch.testArtifact α { s with novelty } coarse artifact' _ = _ at hy
        dsimp only
        rw [hx, hy]
        cases outcome with
        | none => exact ⟨hunscored _, hc⟩
        | some outcome =>
          obtain ⟨hconcluded, hd⟩ := hconclude outcome hc
          exact ⟨SameCourse.ok hconcluded, hd⟩

/-- Whole evaluations take the same course, if the benches are related once they have begun. -/
theorem evaluate (h : Accord s s' fine coarse b.ledger.evaluations b'.ledger.evaluations Q K E)
    (hb : Q b.begun b'.begun) (c : Chromosome) :
    Matched (SameCourse fun x y => E x.1 y.1 ∧ x.2 = y.2) Q (PatchSearch.evaluate s fine c b)
      (PatchSearch.evaluate s' coarse c b') := by
  have hedits := h.evaluateEdits hb
  obtain ⟨novelty, hs⟩ : ∃ novelty, s' = { s with novelty } := ⟨_, h.setup⟩
  subst hs
  unfold PatchSearch.evaluate
  dsimp only
  cases selectEdits s.model.points s.config.filterRules s.config.maxEdits c with
  | error fault => exact ⟨SameCourse.error fault, hb⟩
  | ok selected =>
    obtain ⟨hanswer, hd⟩ := hedits selected.1
    exact ⟨hanswer.map fun _ _ he => ⟨he, rfl⟩, hd⟩

end Accord

structure Simulation (s : Setup) (fine : Toolchain τ) (coarse : Toolchain σ)
    (Q : Bench τ → Bench σ → Prop) : Prop where
  archive : ∀ {b b'}, Q b b' → b.archive = b'.archive
  random : ∀ {b b'}, Q b b' → b.random = b'.random
  ledger : ∀ {b b'}, Q b b' → b.ledger = b'.ledger
  clock : ∀ {b b'}, Q b b' → fine.clock b.world = coarse.clock b'.world
  patch : ∀ {b b'} p o i, Q b b' →
    Alike (Bench.Worlds Q b b') (fine.patch p o i b.world) (coarse.patch p o i b'.world)
  compile : ∀ {b b'} id sources, Q b b' →
    Alike (Bench.Worlds Q b b') (fine.compile id sources b.world)
      (coarse.compile id sources b'.world)
  runTests : ∀ {b b'} artifact tests limit, Q b b' →
    Alike (Bench.Worlds Q b b') (fine.runTests artifact tests limit b.world)
      (coarse.runTests artifact tests limit b'.world)
  draw : ∀ {b b'} g, Q b b' → Q { b with random := g } { b' with random := g }
  insert : ∀ {b b'} failed, Q b b' →
    let inserted := b.archive.insert (Descriptor.ofOutcomes s.tests.ordered failed) b.random
    Q { b with archive := inserted.1, random := inserted.2 }
      { b' with archive := inserted.1, random := inserted.2 }
  accept : ∀ {b b'} edits now, Q b b' →
    Alike (fun l l' => Q { b with ledger := l.1, world := l.2 }
        { b' with ledger := l'.1, world := l'.2 })
      (b.ledger.accept fine.files edits now b.world)
      (b'.ledger.accept coarse.files edits now b'.world)

namespace Simulation

variable {α : Type} [Scalar α] {s : Setup} {fine : Toolchain τ} {coarse : Toolchain σ}
  {Q : Bench τ → Bench σ → Prop} {b : Bench τ} {b' : Bench σ}

variable (α) in
theorem scoreBehavior (h : Simulation s fine coarse Q) (hb : Q b b') (o : TestOutcome) :
    Alike Q (PatchSearch.scoreBehavior (α := α) s o b)
      (PatchSearch.scoreBehavior s o b') := by
  unfold PatchSearch.scoreBehavior
  rw [← h.archive hb, ← h.random hb]
  dsimp only
  cases b.archive.novelty (α := α) (Descriptor.ofOutcomes s.tests.ordered o.failed)
    s.novelty.neighbors with
  | error err => exact Alike.intro _ hb
  | ok novelty => exact Alike.intro _ (h.insert o.failed hb)

theorem score (h : Simulation s fine coarse Q) (hb : Q b b') (edits : Nat) (o : TestOutcome) :
    Alike Q (PatchSearch.score s edits o b : Score α × _) (PatchSearch.score s edits o b') := by
  unfold PatchSearch.score
  by_cases hmode : s.novelty.mode = .none
  · simp only [if_pos hmode]
    exact Alike.intro _ hb
  · obtain ⟨novelty, d, d', hx, hy, hd⟩ := h.scoreBehavior α hb o
    simp only [if_neg hmode, hx, hy]
    exact Alike.intro _ hd

theorem acceptIf (h : Simulation s fine coarse Q) (hb : Q b b') (adequate : Bool)
    (edits : List AppliedEdit) :
    Alike Q (PatchSearch.acceptIf adequate fine edits b)
      (PatchSearch.acceptIf adequate coarse edits b') := by
  unfold PatchSearch.acceptIf
  split
  · rw [← h.clock hb]
    obtain ⟨patchId, l, l', hx, hy, hl⟩ := h.accept edits (fine.clock b.world) hb
    simp only [hx, hy]
    exact Alike.intro _ hl
  · exact Alike.intro _ hb

theorem conclude (h : Simulation s fine coarse Q) (hb : Q b b') (id : Nat)
    (edits : List AppliedEdit) (outcome : TestOutcome × Bool) :
    Alike Q (PatchSearch.conclude s fine id edits outcome b : Evaluation α × _)
      (PatchSearch.conclude s coarse id edits outcome b') := by
  unfold PatchSearch.conclude
  obtain ⟨sc, c, c', hx, hy, hc⟩ := h.score (α := α) hb edits.length outcome.1
  simp only [hx, hy]
  obtain ⟨patchId, d, d', hx', hy', hd⟩ :=
    h.acceptIf hc (scoredStatus s outcome.1 outcome.2 sc.novelty).isAdequate edits
  simp only [hx', hy']
  exact Alike.intro _ hd

/-- Evaluations with the same number are in accord. -/
theorem accord (h : Simulation s fine coarse Q) {id id' : Nat} (hid : id = id') :
    Accord (α := α) s s fine coarse id id' Q (· = ·) (· = ·) where
  setup := rfl
  patch := h.patch
  compile sources hb := hid ▸ (h.compile id sources hb).matched BuildsAlike.refl
  runTests tests limit ha hb := ha ▸ h.runTests _ tests limit hb
  sample hb := h.random hb ▸ Alike.intro _ (h.draw _ hb)
  ended _ _ := hid ▸ rfl
  concluded edits outcome hb := hid ▸ (h.conclude hb id edits outcome).matched fun _ => rfl

/-- Whole evaluations give the same answer and leave related benches, if the benches are related
once the evaluations have begun. -/
theorem evaluate (h : Simulation s fine coarse Q) (hb : Q b.begun b'.begun) (c : Chromosome) :
    Alike Q (PatchSearch.evaluate s fine c b : Except Fault (Evaluation α × _) × _)
      (PatchSearch.evaluate s coarse c b') := by
  have hid : b.ledger.evaluations = b'.ledger.evaluations :=
    Nat.succ.inj (congrArg Ledger.evaluations (h.ledger hb))
  obtain ⟨hanswer, hd⟩ := (h.accord (α := α) hid).evaluate hb c
  exact Matched.alike ⟨(hanswer.mono fun _ _ heq => Prod.ext heq.1 heq.2).eq, hd⟩

end Simulation

/-- Every operation that an evaluation may use keeps a property of benches. -/
structure Keeps (s : Setup) (tools : Toolchain σ) (I : Bench σ → Prop) : Prop where
  patch : ∀ {b} p o i, I b → I { b with world := (tools.patch p o i b.world).2 }
  compile : ∀ {b} id sources, I b → I { b with world := (tools.compile id sources b.world).2 }
  runTests : ∀ {b} artifact tests limit, I b →
    I { b with world := (tools.runTests artifact tests limit b.world).2 }
  draw : ∀ {b} g, I b → I { b with random := g }
  insert : ∀ {b} failed, I b →
    let inserted := b.archive.insert (Descriptor.ofOutcomes s.tests.ordered failed) b.random
    I { b with archive := inserted.1, random := inserted.2 }
  accept : ∀ {b} edits now, I b →
    let accepted := b.ledger.accept tools.files edits now b.world
    I { b with ledger := accepted.2.1, world := accepted.2.2 }

namespace Keeps

variable {s : Setup} {tools : Toolchain σ} {I : Bench σ → Prop}

theorem simulation (h : Keeps s tools I) :
    Simulation s tools tools fun b b' => b = b' ∧ I b where
  archive hb := congrArg Bench.archive hb.1
  random hb := congrArg Bench.random hb.1
  ledger hb := congrArg Bench.ledger hb.1
  clock hb := congrArg (fun b => tools.clock b.world) hb.1
  patch p o i hb := hb.1 ▸ ⟨_, _, _, rfl, rfl, rfl, h.patch p o i hb.2⟩
  compile id sources hb := hb.1 ▸ ⟨_, _, _, rfl, rfl, rfl, h.compile id sources hb.2⟩
  runTests artifact tests limit hb :=
    hb.1 ▸ ⟨_, _, _, rfl, rfl, rfl, h.runTests artifact tests limit hb.2⟩
  draw g hb := hb.1 ▸ ⟨rfl, h.draw g hb.2⟩
  insert failed hb := hb.1 ▸ ⟨rfl, h.insert failed hb.2⟩
  accept edits now hb := hb.1 ▸ ⟨_, _, _, rfl, rfl, rfl, h.accept edits now hb.2⟩

/-- Whole evaluations keep what their operations keep. -/
theorem evaluate {α : Type} [Scalar α] (h : Keeps s tools I) {b : Bench σ} (hb : I b.begun)
    (c : Chromosome) : I (PatchSearch.evaluate (α := α) s tools c b).2 := by
  obtain ⟨answer, d, d', hx, -, -, hd⟩ := h.simulation.evaluate (α := α) ⟨rfl, hb⟩ c
  rw [hx]
  exact hd

end Keeps

/-- Every operation that an evaluation may use gives the same answer on related states and leaves
them related. -/
structure Toolchain.Simulates (fine : Toolchain τ) (coarse : Toolchain σ) (R : τ → σ → Prop) :
    Prop where
  clock : ∀ {w v}, R w v → fine.clock w = coarse.clock v
  patch : ∀ {w v} p o i, R w v → Alike R (fine.patch p o i w) (coarse.patch p o i v)
  compile : ∀ {w v} id sources, R w v →
    Alike R (fine.compile id sources w) (coarse.compile id sources v)
  runTests : ∀ {w v} artifact tests limit, R w v →
    Alike R (fine.runTests artifact tests limit w) (coarse.runTests artifact tests limit v)
  write : ∀ {w v} path bytes, R w v →
    Alike R (fine.files.write path bytes w) (coarse.files.write path bytes v)

/-- Two benches agree up to their states, which stand in a relation. -/
structure Bench.Agree (R : τ → σ → Prop) (b : Bench τ) (b' : Bench σ) : Prop where
  archive : b.archive = b'.archive
  random : b.random = b'.random
  ledger : b.ledger = b'.ledger
  world : R b.world b'.world

namespace Toolchain.Simulates

variable {fine : Toolchain τ} {coarse : Toolchain σ} {R : τ → σ → Prop} {w : τ} {v : σ}

theorem record (h : fine.Simulates coarse R) (hw : R w v) (store : PatchStore)
    (r : PatchRecord) :
    Alike (fun x y => x.1 = y.1 ∧ R x.2 y.2) (store.record fine.files r w)
      (store.record coarse.files r v) := by
  unfold PatchStore.record
  cases store.outputDir with
  | none => exact Alike.intro _ ⟨rfl, hw⟩
  | some dir =>
    obtain ⟨answer, w', v', hx, hy, hw'⟩ :=
      h.write (joinPath dir (PatchRecord.fileName r.id)) (Text.encode r.encode.pretty) hw
    simp only [hx, hy]
    cases answer <;> exact Alike.intro _ ⟨rfl, hw'⟩

theorem accept (h : fine.Simulates coarse R) (hw : R w v) (l : Ledger)
    (edits : List AppliedEdit) (now : Nat) :
    Alike (fun x y => x.1 = y.1 ∧ R x.2 y.2) (l.accept fine.files edits now w)
      (l.accept coarse.files edits now v) := by
  unfold Ledger.accept
  rcases l.patches.add (Patch.ofEdits (edits.map AppliedEdit.patchEdit)) with ⟨_ | _, patches⟩
  · exact Alike.intro _ ⟨rfl, hw⟩
  · obtain ⟨answer, x, y, hx, hy, hpatches, hw'⟩ :=
      h.record hw patches (l.recordOf edits now)
    simp only [hx, hy, hpatches]
    exact Alike.intro _ ⟨rfl, hw'⟩

theorem alike_agree {β : Type} {x : β × τ} {y : β × σ} (h : Alike R x y) {b : Bench τ}
    {b' : Bench σ} (hb : b.Agree R b') : Alike (Bench.Worlds (Bench.Agree R) b b') x y := by
  obtain ⟨answer, w', v', hx, hy, hw⟩ := h
  exact ⟨answer, w', v', hx, hy, hb.archive, hb.random, hb.ledger, hw⟩

theorem simulation (h : fine.Simulates coarse R) (s : Setup) :
    Simulation s fine coarse (Bench.Agree R) where
  archive hb := hb.archive
  random hb := hb.random
  ledger hb := hb.ledger
  clock hb := h.clock hb.world
  patch p o i hb := alike_agree (h.patch p o i hb.world) hb
  compile id sources hb := alike_agree (h.compile id sources hb.world) hb
  runTests artifact tests limit hb := alike_agree (h.runTests artifact tests limit hb.world) hb
  draw g hb := { hb with random := rfl }
  insert failed hb := { hb with archive := rfl, random := rfl }
  accept edits now hb := by
    rw [← hb.ledger]
    obtain ⟨answer, x, y, hx, hy, hl, hw⟩ := h.accept hb.world _ edits now
    exact ⟨answer, x, y, hx, hy, hb.archive, hb.random, hl, hw⟩

end Toolchain.Simulates

end PatchSearch
