import Mathlib.Data.List.Nodup
import PatchSearch.Proofs.Evaluation.Reachable
import PatchSearch.Proofs.Evaluation.Adequate
import PatchSearch.Proofs.Search.Simulation
import PatchSearch.Proofs.Yields

/-!
Which accepted patches have a record. A patch that is accepted gets a number and is known from
then on, also if its record cannot be written; the record is then not kept, and the number is
without one for good. So the store has one record less for each write that failed, and the result
of a run lacks as many of the patches that its history counts.
-/
namespace PatchSearch

variable {α σ : Type}

section Calls

/-- What happens to the books of a run and the state beside them: an evaluation begins, a patch
is offered, or the collaborators act on their own. -/
inductive BookCall (σ : Type) where
  | begin
  | accept (edits : List AppliedEdit) (now : Nat)
  | elsewhere (change : σ → σ)

/-- Books, the state beside them, and the numbers given out so far, each with whether the document
of its record was written. -/
structure Bookkeeping (σ : Type) where
  ledger : Ledger
  world : σ
  given : List (Nat × Bool)

namespace Bookkeeping

/-- Fresh books, with or without an output directory. -/
def start (outputDir : Option String) (now : Nat) (world : σ) : Bookkeeping σ :=
  ⟨Ledger.start ⟨[], [], outputDir⟩ now, world, []⟩

def call (files : Storage σ) (k : Bookkeeping σ) : BookCall σ → Bookkeeping σ
  | .begin => { k with ledger := k.ledger.begin.2 }
  | .accept edits now =>
    let (id, ledger, world) := k.ledger.accept files edits now k.world
    let written := (k.ledger.writeNext files edits now k.world).1
    ⟨ledger, world, k.given ++ id.toList.map fun id => (id, written)⟩
  | .elsewhere change => { k with world := change k.world }

/-- The numbers are given out in order, one for each known patch, and the records are those of the
numbers whose documents were written. -/
structure InStep (k : Bookkeeping σ) : Prop where
  numbers : k.given.map Prod.fst = List.range k.ledger.nextPatchId
  patches : k.ledger.patches.length = k.given.length
  records : k.ledger.patches.records.map (·.id) = (k.given.filter Prod.snd).map Prod.fst

theorem inStep_start (outputDir : Option String) (now : Nat) (world : σ) :
    (start outputDir now world).InStep :=
  ⟨rfl, rfl, rfl⟩

theorem InStep.call {k : Bookkeeping σ} (h : k.InStep) (files : Storage σ) (c : BookCall σ) :
    (k.call files c).InStep := by
  obtain ⟨hnumbers, hpatches, hrecords⟩ := h
  cases c with
  | begin => exact ⟨hnumbers, hpatches, hrecords⟩
  | elsewhere change => exact ⟨hnumbers, hpatches, hrecords⟩
  | accept edits now =>
    unfold Bookkeeping.call
    dsimp only
    cases hknown : k.ledger.patches.contains (Patch.ofEdits (edits.map AppliedEdit.patchEdit)) with
    | true =>
      rw [Ledger.accept_known _ _ _ _ _ hknown]
      refine ⟨?_, ?_, ?_⟩
      · simpa using hnumbers
      · simpa using hpatches
      · simpa using hrecords
    | false =>
      rw [Ledger.accept_new _ _ _ _ _ hknown]
      dsimp only
      generalize (k.ledger.writeNext files edits now k.world).1 = written
      refine ⟨?_, ?_, ?_⟩
      · simp [hnumbers, List.range_succ]
      · simpa [PatchStore.length] using hpatches
      · cases written
        · simpa using hrecords
        · simpa [Ledger.recordOf] using hrecords

theorem inStep_foldl {k : Bookkeeping σ} (h : k.InStep) (files : Storage σ)
    (calls : List (BookCall σ)) : (calls.foldl (call files) k).InStep := by
  induction calls generalizing k with
  | nil => exact h
  | cons c calls ih => exact ih (h.call files c)

theorem InStep.nodup {k : Bookkeeping σ} (h : k.InStep) : (k.given.map Prod.fst).Nodup := by
  rw [h.numbers]
  exact List.nodup_range

/-- A number that was given out has one record if its document was written, and none if not. -/
theorem InStep.count_records {k : Bookkeeping σ} (h : k.InStep) {id : Nat} {written : Bool}
    (hgiven : (id, written) ∈ k.given) :
    (k.ledger.patches.records.map (·.id)).count id = if written then 1 else 0 := by
  have hnodup : ((k.given.filter Prod.snd).map Prod.fst).Nodup :=
    h.nodup.sublist (List.filter_sublist.map Prod.fst)
  rw [h.records]
  cases written with
  | true =>
    have hmem : id ∈ (k.given.filter Prod.snd).map Prod.fst :=
      List.mem_map.mpr ⟨(id, true), List.mem_filter.mpr ⟨hgiven, rfl⟩, rfl⟩
    simpa using List.count_eq_one_of_mem hnodup hmem
  | false =>
    have hnot : id ∉ (k.given.filter Prod.snd).map Prod.fst := by
      intro hmem
      obtain ⟨⟨id', written'⟩, hfound, rfl⟩ := List.mem_map.mp hmem
      obtain ⟨hfound, hwritten⟩ := List.mem_filter.mp hfound
      have hsame := List.inj_on_of_nodup_map h.nodup hgiven hfound rfl
      rw [← hsame] at hwritten
      cases hwritten
    simpa using List.count_eq_zero_of_not_mem hnot

/-- The store has one record less than patches for each write that failed. -/
theorem InStep.length_records {k : Bookkeeping σ} (h : k.InStep) :
    k.ledger.patches.records.length + k.given.countP (fun g => !g.2) =
      k.ledger.patches.length := by
  have hrecords := congrArg List.length h.records
  rw [List.length_map, List.length_map, ← List.countP_eq_length_filter] at hrecords
  rw [h.patches, hrecords, List.length_eq_countP_add_countP (fun g : Nat × Bool => g.2)]
  simp

end Bookkeeping

end Calls

section Writes

/-- How many writes of a log failed. -/
def failedWrites (events : List (Event α)) : Nat :=
  events.countP fun
    | .wrote _ (.error _) => true
    | _ => false

/-- The books of a run in which so many writes failed: every patch has a number, no number has
two records, and all but as many have one. -/
structure Ledger.InStep (l : Ledger) (failed : Nat) : Prop where
  patches : l.patches.length = l.nextPatchId
  ids : (l.patches.records.map (·.id)).Sublist (List.range l.nextPatchId)
  records : l.patches.records.length + failed = l.nextPatchId

theorem Ledger.inStep_start (outputDir : Option String) (now : Nat) :
    (Ledger.start ⟨[], [], outputDir⟩ now).InStep 0 :=
  ⟨rfl, List.Sublist.refl _, rfl⟩

theorem Ledger.failedWrites_writeNext (l : Ledger) (files : Storage σ) (edits : List AppliedEdit)
    (now : Nat) (w : Traced α σ) :
    let written := l.writeNext files.traced edits now w
    failedWrites written.2.events = failedWrites w.events + if written.1 then 0 else 1 := by
  unfold writeNext
  cases l.patches.outputDir with
  | none => rfl
  | some dir =>
    dsimp only [Storage.traced, Traced.note]
    cases (files.write _ _ w.world).1 with
    | ok made => rfl
    | error err => exact List.countP_cons_of_pos rfl

theorem Ledger.InStep.accept {l : Ledger} {w : Traced α σ}
    (h : l.InStep (failedWrites w.events)) (files : Storage σ) (edits : List AppliedEdit)
    (now : Nat) :
    let accepted := l.accept files.traced edits now w
    accepted.2.1.InStep (failedWrites accepted.2.2.events) := by
  obtain ⟨hpatches, hids, hrecords⟩ := h
  cases hknown : l.patches.contains (Patch.ofEdits (edits.map AppliedEdit.patchEdit)) with
  | true =>
    rw [accept_known _ _ _ _ _ hknown]
    exact ⟨hpatches, hids, hrecords⟩
  | false =>
    have hfailed := l.failedWrites_writeNext files edits now w
    rw [accept_new _ _ _ _ _ hknown]
    dsimp only at hfailed ⊢
    rw [hfailed]
    have hnext : (l.recordOf edits now).id = l.nextPatchId := rfl
    cases (l.writeNext files.traced edits now w).1 with
    | true =>
      refine ⟨by simpa [PatchStore.length] using hpatches, ?_, ?_⟩
      · simpa [List.range_succ, hnext] using hids
      · simp
        omega
    | false =>
      refine ⟨by simpa [PatchStore.length] using hpatches, ?_, ?_⟩
      · simpa [List.range_succ] using hids.trans (List.sublist_append_left _ _)
      · simp
        omega

/-- The books of a bench are in step with the log of its writes. -/
def Bench.InStep (b : Bench (Traced α σ)) : Prop :=
  b.ledger.InStep (failedWrites b.world.events)

/-- An evaluation keeps the books in step. -/
theorem keeps_inStep (s : Setup) (tools : Toolchain σ) :
    Keeps s (tools.traced : Toolchain (Traced α σ)) Bench.InStep where
  patch _ _ _ h := h
  compile _ _ h := h
  runTests _ _ _ h := h
  draw _ h := h
  insert _ h := h
  accept edits now h := Ledger.InStep.accept h tools.files edits now

/-- A run keeps the books in step. -/
theorem Search.simulation_inStep (s : Search α σ) :
    s.traced.Simulation s.traced fun b b' => b = b' ∧ b.InStep where
  config := rfl
  setup := rfl
  tools := (keeps_inStep s.setup s.tools).simulation
  begun h := h.1 ▸ ⟨rfl, h.2.patches, h.2.ids, h.2.records⟩
  cancelled h := h.1 ▸ ⟨_, _, _, rfl, rfl, rfl, h.2⟩
  notify _ h := h.1 ▸ ⟨rfl, h.2⟩

end Writes

section Histories

variable [Scalar α] {s : Search α σ} {e e' : Engine α σ}

/-- The history ends with the present number of patches. -/
def Engine.Recorded (e : Engine α σ) : Prop :=
  e.history.patchesFound.getLast? = some e.bench.ledger.patches.length

theorem Search.recorded_recordHistory (h : recordHistory e = .ok e') : e'.Recorded := by
  obtain ⟨spread, -, h⟩ := bind_eq_ok_iff.mp h
  cases h
  exact List.getLast?_concat

omit [Scalar α] in
theorem Search.recorded_tell (he : e.Recorded) (h : s.tell e = .ok e') : e'.Recorded := by
  obtain ⟨p, -, h⟩ := bind_eq_ok_iff.mp h
  cases h
  exact he

omit [Scalar α] in
theorem Search.recorded_stopReason? (he : e.Recorded) {reason : Option StopReason}
    (h : s.stopReason? e = .ok (reason, e')) : e'.Recorded := by
  unfold stopReason? at h
  dsimp only at h
  split at h
  · cases h
    exact he
  · obtain ⟨budget, -, h⟩ := bind_eq_ok_iff.mp h
    cases h
    exact he

theorem Search.recorded_begin (h : s.begin e = .ok e') : e'.Recorded := by
  obtain ⟨e₁, -, h⟩ := bind_eq_ok_iff.mp h
  obtain ⟨e₂, -, h⟩ := bind_eq_ok_iff.mp h
  obtain ⟨r, -, h⟩ := bind_eq_ok_iff.mp h
  obtain ⟨e₃, -, h⟩ := bind_eq_ok_iff.mp h
  obtain ⟨e₄, hrecorded, h⟩ := bind_eq_ok_iff.mp h
  exact recorded_tell (recorded_recordHistory hrecorded) h

theorem Search.recorded_generation (h : s.generation e = .ok e') : e'.Recorded := by
  obtain ⟨r, -, h⟩ := bind_eq_ok_iff.mp h
  obtain ⟨r', -, h⟩ := bind_eq_ok_iff.mp h
  obtain ⟨e₁, -, h⟩ := bind_eq_ok_iff.mp h
  obtain ⟨e₂, hrecorded, h⟩ := bind_eq_ok_iff.mp h
  exact recorded_tell (recorded_recordHistory hrecorded) h

theorem Search.recorded_generations (he : e.Recorded) {fuel : Nat} {reason : StopReason}
    (h : s.generations fuel e = .ok (reason, e')) : e'.Recorded := by
  induction fuel generalizing e with
  | zero => cases h
  | succ fuel ih =>
    obtain ⟨⟨found, e₁⟩, hstop, h⟩ := bind_eq_ok_iff.mp h
    have he₁ := recorded_stopReason? he hstop
    cases found with
    | some found =>
      cases h
      exact he₁
    | none =>
      dsimp only at h
      split at h
      · cases h
        exact he₁
      · obtain ⟨e₂, hgeneration, h⟩ := bind_eq_ok_iff.mp h
        exact ih (recorded_generation hgeneration) h

/-- What the result of a run says of patches and history is what the run leaves behind. -/
theorem Search.run_result {r : SearchResult α} (h : s.run e = .ok (r, e')) :
    e'.Recorded ∧ r.patches = e'.bench.ledger.patches.records ∧ r.history = e'.history := by
  obtain ⟨budget, -, h⟩ := bind_eq_ok_iff.mp h
  obtain ⟨e₁, hbegin, h⟩ := bind_eq_ok_iff.mp h
  obtain ⟨⟨reason, e₂⟩, hgenerations, h⟩ := bind_eq_ok_iff.mp h
  cases h
  exact ⟨recorded_generations (recorded_begin hbegin) hgenerations, rfl, rfl⟩

end Histories

/-- After any calls on fresh books, a number that was given out has exactly one record if its
document was written and none if it was not, and the store has one record less than patches for
each write that failed. After any run that starts with fresh books, the result has one record of
its own for each patch that the history counts last, but for those whose writes failed. -/
theorem records_of_written [Scalar α] (files : Storage σ) (outputDir : Option String) (now : Nat)
    (world : σ) (calls : List (BookCall σ)) (s : Search α σ) (e : Engine α σ)
    (he : e.bench.ledger = Ledger.start ⟨[], [], outputDir⟩ now) :
    let k := calls.foldl (Bookkeeping.call files) (.start outputDir now world)
    ((∀ id written, (id, written) ∈ k.given →
        (k.ledger.patches.records.map (·.id)).count id = if written then 1 else 0) ∧
      k.ledger.patches.records.length + k.given.countP (fun g => !g.2) =
        k.ledger.patches.length) ∧
    ∀ r t, s.traced.run e.traced = .ok (r, t) →
      s.run e = .ok (r, t.erase) ∧
      (r.patches.map (·.id)).Nodup ∧
      r.history.patchesFound.getLast? =
        some (r.patches.length + failedWrites t.bench.world.events) := by
  intro k
  have hk : k.InStep :=
    Bookkeeping.inStep_foldl (Bookkeeping.inStep_start outputDir now world) files calls
  refine ⟨⟨fun id written => hk.count_records, hk.length_records⟩, ?_⟩
  intro r t hrun
  have hstart : (e.traced : Engine α (Traced α σ)).bench.InStep := by
    change e.bench.ledger.InStep 0
    rw [he]
    exact Ledger.inStep_start outputDir now
  have hsteps := s.simulation_inStep.run ⟨e.traced.bench, rfl, rfl, hstart⟩
  rw [hrun] at hsteps
  obtain ⟨fault, hfault, -⟩ | ⟨_, _, hleft, -, -, b, -, -, hbooks⟩ := hsteps
  · cases hfault
  · cases hleft
    obtain ⟨hrecorded, hpatches, hhistory⟩ := Search.run_result hrun
    refine ⟨?_, ?_, ?_⟩
    · rw [s.run_erase, hrun]
      rfl
    · rw [hpatches]
      exact List.nodup_range.sublist hbooks.ids
    · have hlast : r.history.patchesFound.getLast? = some t.bench.ledger.patches.length :=
        hhistory ▸ hrecorded
      rw [hlast, hpatches, hbooks.records, hbooks.patches]

/-- Files that can be read but not written. -/
def sealedFiles : Storage Unit :=
  { idleTools.files with write := fun _ _ w => (.error .permissionDenied, w) }

/-- A search over the program of one line, with one candidate, on sealed files. -/
def sealedSearch : Search Float Unit where
  config := { populationSize := 1, maxGenerations := 1, initialization := .random }
  setup := oneLineSetup
  tools := { idleTools with files := sealedFiles }
  notify _ w := w

def sealedEngine : Engine Float Unit :=
  Search.engine (.start 1 0 (.start ⟨[], [], some "out"⟩ 0) ()) 2

/-- An edit that deletes the line. -/
def deletedLine : AppliedEdit :=
  ⟨0, 0, .delete, none, ⟨"A.java", 1⟩, "x++;", none⟩

/-- One write that fails loses the record of an accepted patch: the patch has got its number and
the store knows it, but has no record of it. -/
theorem record_lost_by_one_write :
    let k := [BookCall.accept [deletedLine] 0].foldl (Bookkeeping.call sealedFiles)
      (.start (some "out") 0 ())
    k.given = [(0, false)] ∧ k.ledger.patches.length = 1 ∧ k.ledger.patches.records = [] := by
  decide +kernel

/-- The search on sealed files finds a patch, and its result has none. -/
theorem records_of_sealed_search :
    sealedEngine.bench.ledger = Ledger.start ⟨[], [], some "out"⟩ 0 ∧
      ∃ r t, sealedSearch.traced.run sealedEngine.traced = .ok (r, t) ∧
        sealedSearch.run sealedEngine = .ok (r, t.erase) ∧
        r.history.patchesFound = [1] ∧ r.patches = [] := by
  have hstart : sealedEngine.bench.ledger = Ledger.start ⟨[], [], some "out"⟩ 0 := rfl
  obtain ⟨-, hrun⟩ := records_of_written sealedFiles (some "out") 0 ()
    [BookCall.accept [deletedLine] 0] sealedSearch sealedEngine hstart
  have hfound : (sealedSearch.traced.run sealedEngine.traced).toOption.map
      (fun x => (x.1.history.patchesFound, failedWrites x.2.bench.world.events)) =
        some ([1], 1) := by
    decide +kernel
  cases hresult : sealedSearch.traced.run sealedEngine.traced with
  | error fault =>
    rw [hresult] at hfound
    cases hfound
  | ok x =>
    rw [hresult] at hfound
    obtain ⟨herased, -, hlast⟩ := hrun x.1 x.2 hresult
    obtain ⟨hhistory, hfailed⟩ := Prod.mk.inj (Option.some.inj hfound)
    refine ⟨hstart, x.1, x.2, rfl, herased, hhistory, ?_⟩
    rw [hhistory, hfailed] at hlast
    simpa using hlast

end PatchSearch
