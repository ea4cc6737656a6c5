import PatchSearch.Proofs.Evaluation.Pipeline
import PatchSearch.Proofs.Novelty.Archive
import PatchSearch.Proofs.SortedList

/-!
The archive over a sequence of evaluations. A scored evaluation in a novelty mode archives its
behavior, any other leaves the archive alone, and an insertion adds an entry until the archive is
full. So the archive is as long as there were scored evaluations, up to its capacity. All entries
describe outcomes of one suite, so a suite that is not empty always gives a novelty.
-/
namespace PatchSearch

open FloatOrder

variable {α σ : Type}

section Steps

variable [Scalar α] {s : Setup}

/-- What a score makes of the archive: a behavior with a novelty is archived. -/
theorem score_archive {τ : Type} {b b' : Bench τ} {edits : ℕ} {o : TestOutcome} {sc : Score α}
    (h : score s edits o b = (sc, b')) :
    (∃ v g, s.novelty.mode ≠ .none ∧ sc.novelty = some v ∧
      b.archive.novelty (Descriptor.ofOutcomes s.tests.ordered o.failed) s.novelty.neighbors =
        .ok v ∧
      b'.archive = (b.archive.insert (Descriptor.ofOutcomes s.tests.ordered o.failed) g).1) ∨
    sc.novelty = none ∧ b'.archive = b.archive ∧ (s.novelty.mode = .none ∨
      ¬ ∃ v : α, b.archive.novelty (Descriptor.ofOutcomes s.tests.ordered o.failed)
        s.novelty.neighbors = .ok v) := by
  unfold score at h
  by_cases hmode : s.novelty.mode = .none
  · simp only [if_pos hmode] at h
    obtain ⟨rfl, rfl⟩ := Prod.mk.inj h
    exact Or.inr ⟨rfl, rfl, Or.inl hmode⟩
  · simp only [if_neg hmode] at h
    unfold scoreBehavior at h
    cases hn : b.archive.novelty (α := α) (Descriptor.ofOutcomes s.tests.ordered o.failed)
      s.novelty.neighbors with
    | error e =>
      simp only [hn] at h
      obtain ⟨rfl, rfl⟩ := Prod.mk.inj h
      exact Or.inr ⟨rfl, rfl, Or.inr (by simp)⟩
    | ok v =>
      simp only [hn] at h
      obtain ⟨rfl, rfl⟩ := Prod.mk.inj h
      exact Or.inl ⟨v, b.random, hmode, rfl, rfl, rfl⟩

/-- A conclusion leaves the archive as scoring does. -/
theorem conclude_archive {τ : Type} {tools : Toolchain τ} {b b' : Bench τ} {id : ℕ}
    {edits : List AppliedEdit} {outcome : TestOutcome × Bool} {evaluation : Evaluation α}
    (h : conclude s tools id edits outcome b = (evaluation, b')) :
    ∃ sc c, score s edits.length outcome.1 b = (sc, c) ∧ evaluation.novelty = sc.novelty ∧
      b'.archive = c.archive := by
  rcases hscore : score (α := α) s edits.length outcome.1 b with ⟨sc, c⟩
  unfold conclude acceptIf at h
  simp only [hscore] at h
  split at h <;> obtain ⟨rfl, rfl⟩ := Prod.mk.inj h <;> exact ⟨sc, c, rfl, rfl, rfl⟩

/-- What an evaluation makes of the archive. Without a fitness nothing is archived; with one the
behavior is archived if it has a novelty, and it has none only without a novelty mode or without
tests. -/
inductive Archived (s : Setup) (before after : Archive) :
    Except Fault (Evaluation α × Chromosome) → Prop
  | fault {fault : Fault} (same : after = before) : Archived s before after (.error fault)
  | unscored {x c} (fitness : x.fitness = none) (status : x.status ≠ .noveltyUnavailable)
      (same : after = before) : Archived s before after (.ok (x, c))
  | plain {x c} (fitness : x.fitness.isSome) (status : x.status ≠ .noveltyUnavailable)
      (mode : s.novelty.mode = .none) (same : after = before) : Archived s before after (.ok (x, c))
  | suiteless {x c} (fitness : x.fitness.isSome) (empty : s.tests.ordered = [])
      (same : after = before) : Archived s before after (.ok (x, c))
  | archived {x c v d g} (fitness : x.fitness.isSome) (status : x.status ≠ .noveltyUnavailable)
      (mode : s.novelty.mode ≠ .none) (nonempty : s.tests.ordered ≠ [])
      (describes : d.Describes s.tests.ordered)
      (novelty : x.novelty = some v) (measured : before.novelty d s.novelty.neighbors = .ok v)
      (inserted : after = (before.insert d g).1) : Archived s before after (.ok (x, c))

omit [Scalar α] in
theorem scoredStatus_ne_noveltyUnavailable {o : TestOutcome} {rejected : Bool} {novelty : Option α}
    (h : s.novelty.mode = .full → novelty.isSome) :
    scoredStatus s o rejected novelty ≠ .noveltyUnavailable := by
  unfold scoredStatus
  split
  · next hnone =>
    have hsome := h hnone.1
    rw [Option.isSome_iff_ne_none] at hsome
    exact absurd (Option.isNone_iff_eq_none.mp hnone.2) hsome
  · split <;> nofun

/-- Every scored end of an evaluation does one of these to the archive. -/
theorem archived_conclude {τ : Type} {tools : Toolchain τ} {b b' : Bench τ} {id : ℕ}
    {edits : List AppliedEdit} {outcome : TestOutcome × Bool} {x : Evaluation α}
    (hfits : b.archive.Fits s.tests.ordered.length) (c : Chromosome)
    (h : conclude s tools id edits outcome b = (x, b')) :
    Archived s b.archive b'.archive (.ok (x, c)) := by
  obtain ⟨sc, t, hscore, hnovelty, harchive⟩ := conclude_archive h
  obtain ⟨sc', t', hscore', -, hfitness, hstatus, -⟩ := conclude_spec h
  obtain ⟨rfl, rfl⟩ := Prod.mk.inj (hscore.symm.trans hscore')
  have hscored : x.fitness.isSome := hfitness ▸ rfl
  have hoffered := Archive.novelty_isOk_iff (α := α) hfits
    (Descriptor.length_ofOutcomes s.tests.ordered outcome.1.failed) s.novelty.neighbors
  rw [Ne, List.length_eq_zero_iff] at hoffered
  obtain ⟨v, g, hmode, hv, hmeasured, hinserted⟩ | ⟨hnone, hsame, hcause⟩ := score_archive hscore
  · refine .archived hscored ?_ hmode (hoffered.mp ⟨v, hmeasured⟩) ⟨_, rfl⟩ (hnovelty.trans hv)
      hmeasured (harchive.trans hinserted)
    rw [hstatus]
    exact scoredStatus_ne_noveltyUnavailable fun _ => hv ▸ rfl
  · rcases hcause with hmode | hunmeasured
    · refine .plain hscored ?_ hmode (harchive.trans hsame)
      rw [hstatus]
      exact scoredStatus_ne_noveltyUnavailable fun hfull => by rw [hmode] at hfull; cases hfull
    · exact .suiteless hscored (not_not.mp (mt hoffered.mpr hunmeasured)) (harchive.trans hsame)

/-- Every evaluation does one of these to the archive. -/
theorem evaluate_archived (s : Setup) (tools : Toolchain σ) (c : Chromosome) {b : Bench σ}
    (hfits : b.archive.Fits s.tests.ordered.length) :
    Archived s b.archive (evaluate (α := α) s tools c b).2.archive
      (evaluate (α := α) s tools c b).1 := by
  cases hselected : selectEdits s.model.points s.config.filterRules s.config.maxEdits c with
  | error fault =>
    unfold evaluate
    rw [hselected]
    exact .fault rfl
  | ok selected =>
    obtain ⟨edits, c'⟩ := selected
    obtain ⟨answer, t, -, herased, hstages⟩ := evaluate_stages (α := α) tools b hselected
    rw [herased]
    cases hstages with
    | broken => exact .fault rfl
    | unpatched _ _ ends =>
      refine .unscored rfl ?_ rfl
      rcases ends with rfl | rfl <;> nofun
    | unbuilt _ ends =>
      refine .unscored rfl ?_ rfl
      rcases ends with rfl | rfl <;> nofun
    | untested _ _ _ archive => exact .unscored rfl nofun archive
    | scored _ _ _ archive _ concluded =>
      have hbegun : b.begun.archive = b.archive := rfl
      rw [← hbegun, ← archive]
      rw [← hbegun, ← archive] at hfits
      exact archived_conclude hfits c' concluded

end Steps

section Sequences

variable [Scalar α]

/-- Evaluations one after the other from a bench, with their answers in order. The toolchain, the
books and the state of the collaborators may be others each time. -/
inductive Bench.Answers (s : Setup) (start : Bench σ) :
    List (Except Fault (Evaluation α × Chromosome)) → Bench σ → Prop
  | none : Answers s start [] start
  | next {answers b} (earlier : Answers s start answers b) (tools : Toolchain σ) (c : Chromosome)
      (ledger : Ledger) (world : σ) :
      Answers s start (answers ++ [(evaluate s tools c { b with ledger, world }).1])
        (evaluate (α := α) s tools c { b with ledger, world }).2

/-- The evaluations among some answers that returned a fitness. -/
def scoredOf (answers : List (Except Fault (Evaluation α × Chromosome))) : List (Evaluation α) :=
  (answers.filterMap fun a => a.toOption.map Prod.fst).filter (·.fitness.isSome)

variable {s : Setup} {start b : Bench σ} {answers : List (Except Fault (Evaluation α × Chromosome))}

theorem Bench.Answers.reachable (h : start.Answers s answers b) (hstart : start.Reachable α s) :
    b.Reachable α s := by
  induction h with
  | none => exact hstart
  | next _ tools c ledger world ih => exact .evaluate tools c (.between ledger world ih)

omit [Scalar α] in
theorem length_scoredOf_append (answer : Except Fault (Evaluation α × Chromosome)) :
    (scoredOf (answers ++ [answer])).length =
      (scoredOf answers).length + (scoredOf [answer]).length := by
  simp [scoredOf]

omit [Scalar α] in
theorem mem_scoredOf {x : Evaluation α} :
    x ∈ scoredOf answers ↔ (∃ c, .ok (x, c) ∈ answers) ∧ x.fitness.isSome := by
  unfold scoredOf
  rw [List.mem_filter, List.mem_filterMap]
  refine and_congr_left fun _ => ⟨?_, ?_⟩
  · rintro ⟨_ | ⟨y, c⟩, hmem, heq⟩
    · cases heq
    · cases heq
      exact ⟨c, hmem⟩
  · rintro ⟨c, hmem⟩
    exact ⟨_, hmem, rfl⟩

/-- With a novelty mode and a suite an evaluation adds an entry exactly when it is scored, up to the
capacity. -/
theorem Archived.length {before after : Archive} {answer : Except Fault (Evaluation α × Chromosome)}
    (h : Archived s before after answer) (hmode : s.novelty.mode ≠ .none)
    (hsuite : s.tests.ordered ≠ []) (hroom : before.entries.length ≤ before.capacity) :
    after.capacity = before.capacity ∧ after.entries.length =
      min before.capacity (before.entries.length + (scoredOf [answer]).length) := by
  cases h with
  | fault same =>
    subst same
    exact ⟨rfl, (Nat.min_eq_right hroom).symm⟩
  | @unscored x c fitness _ same =>
    subst same
    have hnone : scoredOf [Except.ok (x, c)] = [] :=
      List.filter_cons_of_neg (by simp [fitness])
    rw [hnone]
    exact ⟨rfl, (Nat.min_eq_right hroom).symm⟩
  | plain _ _ mode => exact absurd mode hmode
  | suiteless _ empty => exact absurd empty hsuite
  | @archived x c _ _ _ fitness _ _ _ _ _ _ inserted =>
    subst inserted
    have hone : scoredOf [Except.ok (x, c)] = [x] := List.filter_cons_of_pos fitness
    rw [hone]
    exact ⟨Archive.capacity_insert _ _ _, Archive.length_insert hroom _ _⟩

/-- Without a novelty mode, or without tests, an evaluation archives nothing. -/
theorem Archived.same {before after : Archive} {answer : Except Fault (Evaluation α × Chromosome)}
    (h : Archived s before after answer)
    (hidle : s.novelty.mode = .none ∨ s.tests.ordered = []) : after = before := by
  cases h with
  | fault same => exact same
  | unscored _ _ same => exact same
  | plain _ _ _ same => exact same
  | suiteless _ _ same => exact same
  | archived _ _ mode nonempty => exact (hidle.elim mode nonempty).elim

theorem Bench.Answers.archive_length (h : start.Answers s answers b)
    (hstart : start.Reachable α s) (hempty : start.archive = Archive.empty s.novelty.archiveSize)
    (hmode : s.novelty.mode ≠ .none) (hsuite : s.tests.ordered ≠ []) :
    b.archive.capacity = s.novelty.archiveSize ∧
      b.archive.entries.length = min s.novelty.archiveSize (scoredOf answers).length := by
  induction h with
  | none =>
    rw [hempty]
    exact ⟨rfl, (Nat.min_zero _).symm⟩
  | @next answers b earlier tools c ledger world ih =>
    obtain ⟨hcapacity, hlength⟩ := ih
    have hfits := (earlier.reachable hstart).archive_fits
    have harchived := evaluate_archived (α := α) s tools c (b := { b with ledger, world }) hfits
    have hroom : b.archive.entries.length ≤ b.archive.capacity := by omega
    obtain ⟨hcapacity', hlength'⟩ := harchived.length hmode hsuite hroom
    refine ⟨hcapacity'.trans hcapacity, hlength'.trans ?_⟩
    rw [length_scoredOf_append, hcapacity, hlength]
    omega

theorem Bench.Answers.archive_same (h : start.Answers s answers b)
    (hstart : start.Reachable α s)
    (hidle : s.novelty.mode = .none ∨ s.tests.ordered = []) : b.archive = start.archive := by
  induction h with
  | none => rfl
  | @next answers b earlier tools c ledger world ih =>
    have hfits := (earlier.reachable hstart).archive_fits
    exact ((evaluate_archived s tools c (b := { b with ledger, world }) hfits).same hidle).trans ih

/-- Each answer comes from an evaluation on an archive of behaviors of the suite. -/
theorem Bench.Answers.archived (h : start.Answers s answers b) (hstart : start.Reachable α s)
    {answer : Except Fault (Evaluation α × Chromosome)} (hmem : answer ∈ answers) :
    ∃ before after, before.Describes s.tests.ordered ∧ Archived s before after answer := by
  induction h with
  | none => cases hmem
  | @next answers b earlier tools c ledger world ih =>
    rcases List.mem_append.mp hmem with hearlier | hlast
    · exact ih hearlier
    · have hreachable := earlier.reachable hstart
      rw [List.mem_singleton.mp hlast]
      exact ⟨b.archive, _, hreachable.archive_describes,
        evaluate_archived s tools c (b := { b with ledger, world }) hreachable.archive_fits⟩

end Sequences

theorem TestSuite.total_eq_zero_iff (s : TestSuite) : s.total = 0 ↔ s.ordered = [] := by
  rw [ordered_eq_nil_iff, ← List.length_eq_zero_iff, List.length_append]
  rfl

theorem FloatOrder.Within.unit {v : Float} (h : Within 1 v) : 0.0 ≤ v ∧ v ≤ 1.0 := by
  rw [le_iff_value_le isFinite_zero h.1, le_iff_value_le h.1 isFinite_one, value_zero, value_one]
  exact h.2

/-- In a novelty mode a scored evaluation of a suite has a novelty, and it is a share. -/
theorem Archived.novelty {s : Setup} {before after : Archive} {x : Evaluation Float}
    {c : Chromosome} (h : Archived s before after (.ok (x, c)))
    (hbefore : before.Describes s.tests.ordered) (htests : s.tests.total < wordCount)
    (hmode : s.novelty.mode ≠ .none) (hsuite : s.tests.ordered ≠ []) :
    x.status ≠ .noveltyUnavailable ∧
      (x.fitness.isSome → ∃ v, x.novelty = some v ∧ 0.0 ≤ v ∧ v ≤ 1.0) := by
  cases h with
  | unscored fitness status =>
    refine ⟨status, fun hsome => ?_⟩
    rw [fitness] at hsome
    cases hsome
  | plain _ _ mode => exact absurd mode hmode
  | suiteless _ empty => exact absurd empty hsuite
  | @archived _ _ v _ _ _ status _ _ describes novelty measured _ =>
    have hcounted : (Float.ofNat s.tests.ordered.length).isFinite = true :=
      isFinite_ofNat (s.tests.length_ordered_le.trans_lt htests)
    exact ⟨status, fun _ =>
      ⟨v, novelty, (hbefore.within_novelty describes measured (Or.inl hcounted)).unit⟩⟩

/-- Novelty is always available. Over every sequence of evaluations from an empty archive all
archived descriptors have one bit for each test of the suite. In a novelty mode, and with a suite
whose tests a machine word can count, the archive has an entry for each evaluation that returned a
fitness, up to its size, each of these has a novelty between zero and one, and none ends without
one. Without a novelty mode or without tests the archive stays empty. -/
theorem novelty_available (s : Setup) (htests : s.tests.total < wordCount) (seed : UInt64)
    (ledger : Ledger) (world : σ) {b : Bench σ}
    {answers : List (Except Fault (Evaluation Float × Chromosome))}
    (h : (Bench.start s.novelty.archiveSize seed ledger world).Answers s answers b) :
    (∀ d ∈ b.archive.entries,
      d.length = (s.tests.positive.toFinset ∪ s.tests.negative.toFinset).card) ∧
    (s.novelty.mode ≠ .none → 0 < s.tests.total →
      b.archive.entries.length = min s.novelty.archiveSize (scoredOf answers).length ∧
      (∀ x ∈ scoredOf answers, ∃ v, x.novelty = some v ∧ 0.0 ≤ v ∧ v ≤ 1.0) ∧
      ∀ x c, .ok (x, c) ∈ answers → x.status ≠ .noveltyUnavailable) ∧
    (s.novelty.mode = .none ∨ s.tests.total = 0 → b.archive.entries = []) := by
  have hstart : (Bench.start s.novelty.archiveSize seed ledger world).Reachable Float s :=
    .start _ seed ledger world
  refine ⟨fun d hd => ?_, fun hmode hpos => ?_, fun hidle => ?_⟩
  · rw [← s.tests.length_ordered]
    exact (h.reachable hstart).archive_fits d hd
  · have hsuite : s.tests.ordered ≠ [] := mt s.tests.total_eq_zero_iff.mpr hpos.ne'
    have hnovelty (x : Evaluation Float) (c : Chromosome) (hmem : .ok (x, c) ∈ answers) :
        x.status ≠ .noveltyUnavailable ∧
          (x.fitness.isSome → ∃ v, x.novelty = some v ∧ 0.0 ≤ v ∧ v ≤ 1.0) := by
      obtain ⟨before, after, hbefore, harchived⟩ := h.archived hstart hmem
      exact harchived.novelty hbefore htests hmode hsuite
    refine ⟨(h.archive_length hstart rfl hmode hsuite).2, fun x hx => ?_, fun x c hmem => ?_⟩
    · obtain ⟨⟨c, hmem⟩, hscored⟩ := mem_scoredOf.mp hx
      exact (hnovelty x c hmem).2 hscored
    · exact (hnovelty x c hmem).1
  · rw [h.archive_same hstart (hidle.imp_right s.tests.total_eq_zero_iff.mp)]
    rfl

/-- The program of one line, with a novelty bonus and room for one behavior. -/
def narrowSetup : Setup :=
  { oneLineSetup with novelty := { mode := .lightweight, archiveSize := 1 } }

/-- Two deletions of the line are scored, and one behavior is archived. -/
theorem novelty_available_of_deleted_line :
    narrowSetup.tests.total < wordCount ∧
    ∃ (b : Bench Unit) (answers : List (Except Fault (Evaluation Float × Chromosome))),
      (Bench.start narrowSetup.novelty.archiveSize 0 default ()).Answers narrowSetup answers b ∧
      (scoredOf answers).length = 2 ∧ b.archive.entries.length = 1 ∧
      (∀ x ∈ scoredOf answers, ∃ v, x.novelty = some v ∧ 0.0 ≤ v ∧ v ≤ 1.0) ∧
      ∀ x c, .ok (x, c) ∈ answers → x.status ≠ .noveltyUnavailable := by
  let start : Bench Unit := .start narrowSetup.novelty.archiveSize 0 default ()
  let c : Chromosome := ⟨[true], [0], [0]⟩
  have htests : narrowSetup.tests.total < wordCount := by decide
  have hone : start.Answers narrowSetup [(evaluate (α := Float) narrowSetup idleTools c start).1]
      (evaluate (α := Float) narrowSetup idleTools c start).2 :=
    .next .none idleTools c start.ledger start.world
  have htwo := hone.next idleTools c
    (evaluate (α := Float) narrowSetup idleTools c start).2.ledger ()
  have hscored : (scoredOf ([(evaluate (α := Float) narrowSetup idleTools c start).1] ++
      [(evaluate (α := Float) narrowSetup idleTools c
        (evaluate (α := Float) narrowSetup idleTools c start).2).1])).length = 2 := by
    decide +kernel
  obtain ⟨hlength, hnovelty, hstatus⟩ :=
    (novelty_available narrowSetup htests 0 default () htwo).2.1 nofun (by decide)
  exact ⟨htests, _, _, htwo, hscored, hlength.trans (by rw [hscored]; rfl), hnovelty, hstatus⟩

end PatchSearch
