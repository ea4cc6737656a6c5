import PatchSearch.Evaluation.Ledger
import PatchSearch.Proofs.Evaluation.Simulation

/-!
What accepting a patch does to the books. A patch that is known changes nothing. A new one is known
from then on and gets the next number, whether or not the document of its record can be written;
its record is kept only if it was.
-/
namespace PatchSearch.Ledger

variable {σ : Type}

/-- Whether the document of the next record gets written, and the state after the attempt. Without
an output directory there is no document that could fail to be. -/
def writeNext (l : Ledger) (files : Storage σ) (edits : List AppliedEdit) (now : Nat)
    (world : σ) : Bool × σ :=
  match l.patches.outputDir with
  | none => (true, world)
  | some dir =>
    let made := files.write (joinPath dir (PatchRecord.fileName l.nextPatchId))
      (Text.encode (l.recordOf edits now).encode.pretty) world
    (made.1.isOk, made.2)

/-- Accepting a patch that is not known: it is known from then on and uses up a number, and its
record is kept if it gets written. -/
theorem accept_new (l : Ledger) (files : Storage σ) (edits : List AppliedEdit) (now : Nat)
    (world : σ)
    (h : l.patches.contains (Patch.ofEdits (edits.map AppliedEdit.patchEdit)) = false) :
    let written := l.writeNext files edits now world
    l.accept files edits now world = (some l.nextPatchId, { l with
      nextPatchId := l.nextPatchId + 1
      patches := { l.patches with
        patches := l.patches.patches ++ [Patch.ofEdits (edits.map AppliedEdit.patchEdit)]
        records := l.patches.records ++ if written.1 then [l.recordOf edits now] else [] } },
      written.2) := by
  unfold accept writeNext PatchStore.add PatchStore.record
  rw [h]
  simp only [Bool.false_eq_true, if_false]
  cases l.patches.outputDir with
  | none => rfl
  | some dir =>
    have hid : (l.recordOf edits now).id = l.nextPatchId := rfl
    rw [hid]
    obtain ⟨⟨made, w⟩, hmade⟩ : ∃ x, files.write (joinPath dir (PatchRecord.fileName l.nextPatchId))
      (Text.encode (l.recordOf edits now).encode.pretty) world = x := ⟨_, rfl⟩
    simp only [hmade]
    cases made <;> simp [Except.isOk, Except.toBool]

theorem accept_known (l : Ledger) (files : Storage σ) (edits : List AppliedEdit)
    (now : Nat) (world : σ)
    (h : l.patches.contains (Patch.ofEdits (edits.map AppliedEdit.patchEdit)) = true) :
    l.accept files edits now world = (none, l, world) := by
  unfold accept
  rw [PatchStore.add_eq_of_contains _ _ h]

/-- A patch gets a number exactly when it is not known. -/
theorem accept_isSome_iff (l : Ledger) (files : Storage σ) (edits : List AppliedEdit) (now : Nat)
    (world : σ) :
    (l.accept files edits now world).1.isSome ↔
      l.patches.contains (Patch.ofEdits (edits.map AppliedEdit.patchEdit)) = false := by
  cases hknown : l.patches.contains (Patch.ofEdits (edits.map AppliedEdit.patchEdit)) with
  | true => simp [accept_known _ _ _ _ _ hknown]
  | false => simp [accept_new _ _ _ _ _ hknown]

/-- Accepting a patch loses none and begins no evaluation. -/
theorem accept_counts (l : Ledger) (files : Storage σ) (edits : List AppliedEdit) (now : Nat)
    (world : σ) :
    (l.accept files edits now world).2.1.evaluations = l.evaluations ∧
      l.patches.length ≤ (l.accept files edits now world).2.1.patches.length := by
  cases hknown : l.patches.contains (Patch.ofEdits (edits.map AppliedEdit.patchEdit)) with
  | true => simp [accept_known _ _ _ _ _ hknown]
  | false => simp [accept_new _ _ _ _ _ hknown, PatchStore.length]

/-- A patch that was accepted, now or before, is stored. -/
theorem accept_stores (l : Ledger) (files : Storage σ) (edits : List AppliedEdit) (now : Nat)
    (world : σ) : 1 ≤ (l.accept files edits now world).2.1.patches.length := by
  cases hknown : l.patches.contains (Patch.ofEdits (edits.map AppliedEdit.patchEdit)) with
  | true =>
    rw [accept_known _ _ _ _ _ hknown]
    have hmem : Patch.ofEdits (edits.map AppliedEdit.patchEdit) ∈ l.patches.patches := by
      simpa [PatchStore.contains] using hknown
    exact List.length_pos_of_mem hmem
  | false => simp [accept_new _ _ _ _ _ hknown, PatchStore.length]

/-- Accepting a patch keeps whatever every write keeps. -/
theorem accept_keeps {files : Storage σ} {I : σ → Prop}
    (h : ∀ path bytes w, I w → I (files.write path bytes w).2) (l : Ledger)
    (edits : List AppliedEdit) (now : Nat) {w : σ} (hw : I w) :
    I (l.accept files edits now w).2.2 := by
  cases hknown : l.patches.contains (Patch.ofEdits (edits.map AppliedEdit.patchEdit)) with
  | true =>
    rw [accept_known _ _ _ _ _ hknown]
    exact hw
  | false =>
    rw [accept_new _ _ _ _ _ hknown]
    unfold writeNext
    cases l.patches.outputDir with
    | none => exact hw
    | some dir => exact h _ _ w hw

end PatchSearch.Ledger

/-!
The benches that evaluations can come to, and what holds on all of them. Every archived descriptor
has one bit for each test of the suite, so the novelty of a behavior is available on any such
bench unless the suite is empty.
-/
namespace PatchSearch

variable {α σ : Type} [Scalar α]

/-- Every archived descriptor has `n` bits. -/
def Archive.Fits (n : Nat) (a : Archive) : Prop :=
  ∀ d ∈ a.entries, d.length = n

theorem Archive.fits_insert {n : Nat} {a : Archive} (h : a.Fits n) {d : Descriptor}
    (hd : d.length = n) (g : Random) : (a.insert d g).1.Fits n := by
  intro e he
  rcases Archive.mem_entries_insert he with hold | rfl
  · exact h e hold
  · exact hd

theorem Descriptor.length_ofOutcomes (ordered failed : List String) :
    (ofOutcomes ordered failed).length = ordered.length := by
  simp [ofOutcomes, ofPassed]

theorem Descriptor.yields_distance {a b : Descriptor} (h : a.length = b.length)
    (hpos : a.length ≠ 0) : Yields (a.distance b : Except NoveltyError α) fun _ => True := by
  unfold distance
  rw [if_neg (by simp [h]), if_neg hpos]
  exact Yields.ok trivial

/-- A descriptor of as many bits as the archived ones has a novelty, unless it has none. -/
theorem Archive.novelty_isOk_iff {n : Nat} {a : Archive} (h : a.Fits n) {d : Descriptor}
    (hd : d.length = n) (k : Nat) :
    (∃ v : α, a.novelty d k = .ok v) ↔ n ≠ 0 := by
  have hempty : d.isEmpty = true ↔ n = 0 := by simp [Descriptor.isEmpty, hd]
  by_cases hzero : n = 0
  · have hnone : (a.novelty d k : Except NoveltyError α) = .error .emptyDescriptor := by
      unfold novelty
      rw [if_pos (hempty.mpr hzero)]
      rfl
    simp [hnone, hzero]
  · refine ⟨fun _ => hzero, fun _ => ?_⟩
    have hsome : Yields (a.novelty d k : Except NoveltyError α) fun _ => True := by
      unfold novelty
      rw [if_neg (mt hempty.mp hzero)]
      by_cases hnone : a.entries.isEmpty = true
      · rw [if_pos hnone]
        exact Yields.pure trivial
      · rw [if_neg hnone]
        refine Yields.bind (Yields.mapM (Q := fun _ => True) fun e he => ?_) fun distances _ =>
          Yields.pure trivial
        exact Descriptor.yields_distance (by rw [hd, h e he]) (by rwa [hd])
    exact hsome.imp fun v hv => hv.1

/-- The benches that evaluations of a setup can come to from the start of a run: by whatever
toolchains, whatever chromosomes, and with whatever happens to the books and the collaborators
between two evaluations. -/
inductive Bench.Reachable (α : Type) [Scalar α] (s : Setup) : Bench σ → Prop
  | start (archiveSize : Nat) (seed : UInt64) (ledger : Ledger) (world : σ) :
      Reachable α s (Bench.start archiveSize seed ledger world)
  | evaluate {b : Bench σ} (tools : Toolchain σ) (c : Chromosome) (h : Reachable α s b) :
      Reachable α s (PatchSearch.evaluate (α := α) s tools c b).2
  | between {b : Bench σ} (ledger : Ledger) (world : σ) (h : Reachable α s b) :
      Reachable α s { b with ledger, world }

namespace Bench

omit [Scalar α] in
theorem keeps_fits (s : Setup) (tools : Toolchain σ) :
    Keeps s tools fun b => b.archive.Fits s.tests.ordered.length where
  patch _ _ _ h := h
  compile _ _ h := h
  runTests _ _ _ h := h
  draw _ h := h
  insert failed h := Archive.fits_insert h (Descriptor.length_ofOutcomes _ failed) _
  accept _ _ h := h

theorem Reachable.archive_fits {s : Setup} {b : Bench σ} (h : b.Reachable α s) :
    b.archive.Fits s.tests.ordered.length := by
  induction h with
  | start archiveSize seed ledger world => intro d hd; cases hd
  | evaluate tools c h ih => exact (keeps_fits s tools).evaluate ih c
  | between ledger world h ih => exact ih

end Bench

end PatchSearch
