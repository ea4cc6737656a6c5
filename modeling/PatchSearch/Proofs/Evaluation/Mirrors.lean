import PatchSearch.Proofs.Evaluation.Reachable

/-!
Evaluations that agree in all but time. Two toolchains mirror each other under a relation of their
states if they give the same answers on related states, whatever their clocks show; whether a record
gets written must not depend on the time it states. Then an evaluation changes the books in the same
way on both sides, elapsed times aside, and whatever else differs between the benches: its gist,
which is all that a search goes by, is the same if the scores are.
-/
namespace PatchSearch

variable {σ τ : Type}

section Times

/-- The record without its time. -/
def PatchRecord.untimed (r : PatchRecord) : PatchRecord :=
  { r with elapsedMs := 0 }

def PatchStore.untimed (s : PatchStore) : PatchStore :=
  { s with records := s.records.map PatchRecord.untimed }

/-- The books without their times. -/
def Ledger.untimed (l : Ledger) : Ledger :=
  { l with startedAt := 0, patches := l.patches.untimed }

/-- Tries to write the document of a record. -/
def Storage.writeRecord (files : Storage σ) (dir : String) (r : PatchRecord) (world : σ) :
    Except FileError Unit × σ :=
  files.write (joinPath dir (PatchRecord.fileName r.id)) (Text.encode r.encode.pretty) world

/-- What books that agree in all but time have in common. -/
theorem Ledger.untimed_eq_iff {l l' : Ledger} :
    l.untimed = l'.untimed ↔ l.evaluations = l'.evaluations ∧ l.nextPatchId = l'.nextPatchId ∧
      l.patches.patches = l'.patches.patches ∧
      l.patches.records.map PatchRecord.untimed = l'.patches.records.map PatchRecord.untimed ∧
      l.patches.outputDir = l'.patches.outputDir := by
  simp [Ledger.untimed, PatchStore.untimed]

theorem Ledger.begin_untimed {l l' : Ledger} (h : l.untimed = l'.untimed) :
    l.begin.2.untimed = l'.begin.2.untimed := by
  rw [untimed_eq_iff] at h ⊢
  exact ⟨congrArg (· + 1) h.1, h.2⟩

theorem Ledger.untimed_recordOf {l l' : Ledger} (h : l.untimed = l'.untimed)
    (edits : List AppliedEdit) (now now' : Nat) :
    (l.recordOf edits now).untimed = (l'.recordOf edits now').untimed := by
  obtain ⟨hevaluations, hnext, -⟩ := untimed_eq_iff.mp h
  simp only [recordOf, PatchRecord.untimed, hevaluations, hnext]

end Times

/-- On related states every operation that an evaluation may use gives the same answer and leaves
the states related, whatever the clocks show. -/
structure Toolchain.Mirrors (fine : Toolchain τ) (coarse : Toolchain σ) (R : τ → σ → Prop) :
    Prop where
  patch : ∀ {w v} p o i, R w v → Alike R (fine.patch p o i w) (coarse.patch p o i v)
  compile : ∀ {w v} id sources, R w v →
    Alike R (fine.compile id sources w) (coarse.compile id sources v)
  runTests : ∀ {w v} artifact tests limit, R w v →
    Alike R (fine.runTests artifact tests limit w) (coarse.runTests artifact tests limit v)
  write : ∀ {w v} dir {r r' : PatchRecord}, r.untimed = r'.untimed → R w v →
    Alike R (fine.files.writeRecord dir r w) (coarse.files.writeRecord dir r' v)

namespace Toolchain.Mirrors

variable {fine : Toolchain τ} {coarse : Toolchain σ} {R : τ → σ → Prop} {w : τ} {v : σ}

theorem writeNext (h : fine.Mirrors coarse R) (hw : R w v) {l l' : Ledger}
    (hl : l.untimed = l'.untimed) (edits : List AppliedEdit) (now now' : Nat) :
    Alike R (l.writeNext fine.files edits now w) (l'.writeNext coarse.files edits now' v) := by
  obtain ⟨-, -, -, -, hdir⟩ := Ledger.untimed_eq_iff.mp hl
  unfold Ledger.writeNext
  rw [hdir]
  cases l'.patches.outputDir with
  | none => exact Alike.intro true hw
  | some dir =>
    obtain ⟨answer, w', v', hx, hy, hw'⟩ :=
      h.write dir (Ledger.untimed_recordOf hl edits now now') hw
    unfold Storage.writeRecord Ledger.recordOf at hx hy
    unfold Ledger.recordOf
    simp only [hx, hy]
    exact Alike.intro _ hw'

/-- Accepting a patch has the same outcome and leaves books that agree in all but time. -/
theorem accept (h : fine.Mirrors coarse R) (hw : R w v) {l l' : Ledger}
    (hl : l.untimed = l'.untimed) (edits : List AppliedEdit) (now now' : Nat) :
    Matched (· = ·) (fun x y => x.1.untimed = y.1.untimed ∧ R x.2 y.2)
      (l.accept fine.files edits now w) (l'.accept coarse.files edits now' v) := by
  obtain ⟨hevaluations, hnext, hpatches, hrecords, hdir⟩ := Ledger.untimed_eq_iff.mp hl
  have hsame (p : Patch) : l'.patches.contains p = l.patches.contains p := by
    rw [PatchStore.contains, PatchStore.contains, hpatches]
  cases hknown : l.patches.contains (Patch.ofEdits (edits.map AppliedEdit.patchEdit)) with
  | true =>
    rw [Ledger.accept_known _ _ _ _ _ hknown,
      Ledger.accept_known _ _ _ _ _ ((hsame _).trans hknown)]
    exact ⟨rfl, hl, hw⟩
  | false =>
    rw [Ledger.accept_new _ _ _ _ _ hknown,
      Ledger.accept_new _ _ _ _ _ ((hsame _).trans hknown)]
    obtain ⟨written, w', v', hx, hy, hw'⟩ := h.writeNext hw hl edits now now'
    simp only [hx, hy]
    refine ⟨congrArg some hnext, ?_, hw'⟩
    have hrecord := Ledger.untimed_recordOf hl edits now now'
    rw [Ledger.untimed_eq_iff]
    refine ⟨hevaluations, congrArg (· + 1) hnext, congrArg (· ++ _) hpatches, ?_, hdir⟩
    dsimp only
    rw [List.map_append, List.map_append, hrecords]
    cases written with
    | true => simp [hrecord]
    | false => rfl

end Toolchain.Mirrors

section Gists

variable {α : Type}

/-- What a search goes by: how an evaluation ended, how many edits it counted, and its scores. -/
structure Evaluation.SameGist (x y : Evaluation α) : Prop where
  status : x.status = y.status
  edits : x.edits = y.edits
  objectives : x.objectives = y.objectives
  fitness : x.fitness = y.fitness

variable [Scalar α]

/-- Two scores of an outcome differ in novelty at most, and give the same status. -/
structure Score.SameGist (s s' : Setup) (o : TestOutcome) (x y : Score α) : Prop where
  objectives : x.objectives = y.objectives
  fitness : x.fitness = y.fitness
  status : ∀ rejected, scoredStatus s o rejected x.novelty = scoredStatus s' o rejected y.novelty

theorem Evaluation.sameGist_unscored {s s' : Setup} (h : s' = { s with novelty := s'.novelty })
    (id id' edits : Nat) (status : EvaluationStatus) :
    (unscored s id edits status : Evaluation α).SameGist (unscored s' id' edits status) := by
  rw [h]
  exact ⟨rfl, rfl, rfl, rfl⟩

/-- Conclusions have the same gist if the scores have, and leave related benches if accepting the
patch does. -/
theorem conclude_sameGist {s s' : Setup} {fine : Toolchain τ} {coarse : Toolchain σ}
    {Q : Bench τ → Bench σ → Prop} {b : Bench τ} {b' : Bench σ} (id id' : Nat)
    (edits : List AppliedEdit) (outcome : TestOutcome × Bool)
    (hscore : Matched (Score.SameGist s s' outcome.1) Q
      (score s edits.length outcome.1 b : Score α × _) (score s' edits.length outcome.1 b'))
    (haccept : ∀ {c c'}, Q c c' →
      Q (acceptIf true fine edits c).2 (acceptIf true coarse edits c').2) :
    Matched Evaluation.SameGist Q (conclude s fine id edits outcome b : Evaluation α × _)
      (conclude s' coarse id' edits outcome b') := by
  unfold conclude
  generalize score (α := α) s edits.length outcome.1 b = x at hscore ⊢
  generalize score (α := α) s' edits.length outcome.1 b' = y at hscore ⊢
  obtain ⟨⟨hobjectives, hfitness, hstatus⟩, hc⟩ := hscore
  dsimp only
  rw [← hstatus]
  refine ⟨⟨rfl, rfl, hobjectives, congrArg some hfitness⟩, ?_⟩
  cases (scoredStatus s outcome.1 outcome.2 x.1.novelty).isAdequate with
  | true => exact haccept hc
  | false => exact hc

end Gists

section Benches

/-- The archives and random sources of two benches stand in a relation, their states in another one,
and their books agree in all but time. -/
structure Bench.Like (K : Archive × Random → Archive × Random → Prop) (R : τ → σ → Prop)
    (b : Bench τ) (b' : Bench σ) : Prop where
  drawn : K (b.archive, b.random) (b'.archive, b'.random)
  ledger : b.ledger.untimed = b'.ledger.untimed
  world : R b.world b'.world

variable {K : Archive × Random → Archive × Random → Prop} {R : τ → σ → Prop} {b : Bench τ}
  {b' : Bench σ}

theorem Alike.worlds {β : Type} {x : β × τ} {y : β × σ} (h : Alike R x y)
    (hb : b.Like K R b') : Alike (Bench.Worlds (Bench.Like K R) b b') x y := by
  obtain ⟨answer, w, v, hx, hy, hw⟩ := h
  exact ⟨answer, w, v, hx, hy, { hb with world := hw }⟩

variable {α : Type} [Scalar α] {s s' : Setup} {fine : Toolchain τ} {coarse : Toolchain σ}

/-- Setups that differ in novelty at most draw the same samples and score alike on benches whose
archives and random sources are related. -/
structure Setup.ScoresAlike (α : Type) [Scalar α] (s s' : Setup) (R : τ → σ → Prop)
    (K : Archive × Random → Archive × Random → Prop) : Prop where
  setup : s' = { s with novelty := s'.novelty }
  sample : ∀ {b : Bench τ} {b' : Bench σ}, b.Like K R b' →
    Alike (fun g g' => Bench.Like K R { b with random := g } { b' with random := g' })
      (samplePositive α s.tests.positive s.config.percentage b.random)
      (samplePositive α s.tests.positive s.config.percentage b'.random)
  score : ∀ {b : Bench τ} {b' : Bench σ} edits outcome, b.Like K R b' →
    Matched (Score.SameGist s s' outcome) (Bench.Like K R) (score s edits outcome b : Score α × _)
      (score s' edits outcome b')

/-- A setup scores alike on benches with the same archive and the same random source. -/
theorem Setup.scoresAlike_refl (s : Setup) (R : τ → σ → Prop) :
    s.ScoresAlike α s R fun x y => x = y where
  setup := rfl
  sample {b b'} hb := by
    obtain ⟨harchive, hrandom⟩ := Prod.mk.inj hb.drawn
    rw [hrandom]
    exact ⟨_, _, _, rfl, rfl, { hb with drawn := congrArg (·, _) harchive }⟩
  score {b b'} edits outcome hb := by
    obtain ⟨harchive, hrandom⟩ := Prod.mk.inj hb.drawn
    unfold PatchSearch.score
    dsimp only
    split
    · exact ⟨⟨rfl, rfl, fun _ => rfl⟩, hb⟩
    · unfold scoreBehavior
      rw [harchive, hrandom]
      dsimp only
      split
      · exact ⟨⟨rfl, rfl, fun _ => rfl⟩, { hb with drawn := rfl }⟩
      · exact ⟨⟨rfl, rfl, fun _ => rfl⟩, hb⟩

namespace Toolchain.Mirrors

theorem acceptIf (h : fine.Mirrors coarse R) (hb : b.Like K R b') (adequate : Bool)
    (edits : List AppliedEdit) :
    Alike (Bench.Like K R) (PatchSearch.acceptIf adequate fine edits b)
      (PatchSearch.acceptIf adequate coarse edits b') := by
  unfold PatchSearch.acceptIf
  split
  · obtain ⟨heq, hledger, hworld⟩ :=
      h.accept hb.world hb.ledger edits (fine.clock b.world) (coarse.clock b'.world)
    exact Matched.alike ⟨heq, hb.drawn, hledger, hworld⟩
  · exact Alike.intro _ hb

/-- Evaluations with mirrored toolchains and alike scores have the same gist and rewrite the
chromosome in the same way. -/
theorem evaluate (h : fine.Mirrors coarse R) (hs : s.ScoresAlike α s' R K) (hb : b.Like K R b')
    (c : Chromosome) :
    Matched (SameCourse fun x y => x.1.SameGist y.1 ∧ x.2 = y.2) (Bench.Like K R)
      (PatchSearch.evaluate (α := α) s fine c b) (PatchSearch.evaluate s' coarse c b') := by
  have haccord (id id' : Nat) (hid : id = id') :
      Accord (α := α) s s' fine coarse id id' (Bench.Like K R) (· = ·) Evaluation.SameGist :=
    { setup := hs.setup
      patch := fun p o i hb => (h.patch p o i hb.world).worlds hb
      compile := fun sources hb =>
        hid ▸ ((h.compile id sources hb.world).worlds hb).matched BuildsAlike.refl
      runTests := fun tests limit ha hb => ha ▸ (h.runTests _ tests limit hb.world).worlds hb
      sample := hs.sample
      ended := Evaluation.sameGist_unscored hs.setup id id'
      concluded := fun edits outcome hb =>
        conclude_sameGist id id' edits outcome (hs.score edits.length outcome.1 hb) fun hc =>
          ((h.acceptIf hc true edits).matched (P := fun _ _ => True) fun _ => trivial).2 }
  have hids := (Ledger.untimed_eq_iff.mp hb.ledger).1
  exact (haccord _ _ hids).evaluate { hb with ledger := Ledger.begin_untimed hb.ledger } c

end Toolchain.Mirrors

end Benches

end PatchSearch
