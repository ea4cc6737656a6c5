import PatchSearch.Proofs.Evaluation.Adequate
import PatchSearch.Proofs.Evaluation.Replay
import PatchSearch.Proofs.Evaluation.Steady
import PatchSearch.Proofs.Program.Preparation
import PatchSearch.Proofs.Program.Rendering

/-!
Why an edit that was selected cannot be applied. What a prepared search selects always gets as far
as rendering: the points of its model have the operators and the ingredients that genes are read by,
edits of whole lines are not refused, and every file that is edited was read. So only the lines can
stand in the way.
-/
namespace PatchSearch

open Chromosome

section Selections

variable {σ : Type} {filter : Bool} {points : List Point} {edits : List AppliedEdit}

theorem AppliedEdit.Fits.location {p : Point} {e : AppliedEdit} (h : e.Fits filter p) :
    e.location = p.location :=
  congrArg AppliedEdit.location h.edit

/-- An edit that fits its point is not refused as an edit of whole lines. -/
theorem AppliedEdit.Fits.lineEdit {p : Point} {e : AppliedEdit} (h : e.Fits filter p) :
    ∃ kind, PatchSearch.lineEdit p e.operator (e.ingredientIndex.bind (p.ingredients[·]?)) =
      .ok ⟨p.location, kind⟩ := by
  have hingredient (hneeds : e.operator.needsIngredient = true) :
      ∃ i, e.ingredientIndex.bind (p.ingredients[·]?) = some i := by
    obtain ⟨k, hk⟩ := Option.isSome_iff_exists.mp (h.needed.trans hneeds)
    refine ⟨p.ingredients.get ⟨k, h.ingredient k hk⟩, ?_⟩
    rw [hk, Option.bind_some, List.getElem?_eq_getElem (h.ingredient k hk)]
    rfl
  cases ho : e.operator with
  | delete => exact ⟨_, rfl⟩
  | replace =>
    obtain ⟨i, hi⟩ := hingredient (by rw [ho]; rfl)
    exact ⟨.replace i.source, by rw [hi]; rfl⟩
  | insertBefore =>
    obtain ⟨i, hi⟩ := hingredient (by rw [ho]; rfl)
    exact ⟨.insertBefore i.source, by rw [hi]; rfl⟩

/-- Edits that fit their points give a script with an edit at the place of each of them. -/
theorem scriptOf_of_fits {tools : Toolchain σ} (htools : tools.patch = linePatcher)
    (hfits : ∀ e ∈ edits, ∃ p, points[e.point]? = some p ∧ e.Fits filter p) (world : σ) :
    ∃ script, scriptOf tools points edits world = (.ok script, world) ∧
      script.map (·.location) = edits.map (·.location) := by
  induction edits with
  | nil => exact ⟨[], rfl, rfl⟩
  | cons e es ih =>
    obtain ⟨p, hp, hfit⟩ := hfits e List.mem_cons_self
    obtain ⟨kind, hedit⟩ := hfit.lineEdit
    obtain ⟨script, hscript, hplaces⟩ := ih fun e he => hfits e (List.mem_cons_of_mem _ he)
    refine ⟨⟨p.location, kind⟩ :: script, ?_, ?_⟩
    · unfold scriptOf
      rw [hp, htools]
      dsimp only [linePatcher]
      rw [hedit]
      dsimp only [Except.mapError]
      rw [hscript]
    · rw [List.map_cons, List.map_cons, hplaces, hfit.location]

/-- Two selected edits share their file and their line, or the line of one is not in its file. -/
def Misplaced (tree : SourceTree) (edits : List AppliedEdit) : Prop :=
  (∃ e ∈ edits, ∃ e' ∈ edits, e.point ≠ e'.point ∧ e.location = e'.location) ∨
    ∃ e ∈ edits, e.location.line = 0 ∨ ∃ text, tree.file? e.location.file = some text ∧
      (Text.lines text.toList).length < e.location.line

/-- A script at the places of edits in the order of their points fits unless these are
misplaced. -/
theorem fits_iff_not_misplaced {tree : SourceTree} {script : List Edit}
    (hplaces : script.map (·.location) = edits.map (·.location))
    (hascending : (edits.map (·.point)).Pairwise (· < ·)) :
    EditScript.Fits ⟨script⟩ tree ↔ ¬ Misplaced tree edits := by
  have hpresent : (∀ e ∈ script, e.location.line ≠ 0 ∧ ∀ text,
      tree.file? e.location.file = some text → e.location.line ≤ (Text.lines text.toList).length) ↔
        ∀ e ∈ edits, e.location.line ≠ 0 ∧ ∀ text, tree.file? e.location.file = some text →
          e.location.line ≤ (Text.lines text.toList).length := by
    have hmap := List.forall_mem_map (l := script) (f := (·.location)) (P := fun place =>
      place.line ≠ 0 ∧ ∀ text, tree.file? place.file = some text →
        place.line ≤ (Text.lines text.toList).length)
    rw [hplaces, List.forall_mem_map] at hmap
    exact hmap.symm
  have hapart : (edits.map (·.location)).Nodup ↔
      ∀ e ∈ edits, ∀ e' ∈ edits, e.point ≠ e'.point → e.location ≠ e'.location := by
    rw [List.pairwise_map] at hascending
    constructor
    · intro hnodup e he e' he' hpoint hplace
      exact hpoint (congrArg _ (List.inj_on_of_nodup_map hnodup he he' hplace))
    · intro hall
      refine List.pairwise_map.mpr (List.pairwise_iff_forall_sublist.mpr fun hsub => ?_)
      exact hall _ (hsub.subset (by simp)) _ (hsub.subset (by simp))
        (Nat.ne_of_lt (List.pairwise_iff_forall_sublist.mp hascending hsub))
  have hfits : EditScript.Fits ⟨script⟩ tree ↔
      (edits.map (·.location)).Nodup ∧ ∀ e ∈ edits, e.location.line ≠ 0 ∧ ∀ text,
        tree.file? e.location.file = some text →
          e.location.line ≤ (Text.lines text.toList).length := by
    rw [← hplaces, ← hpresent]
    exact ⟨fun h => ⟨h.apart, h.present⟩, fun h => ⟨h.1, h.2⟩⟩
  rw [hfits, hapart, Misplaced, not_or]
  refine and_congr ?_ ?_
  · push Not
    rfl
  · push Not
    rfl

end Selections

section Sources

variable {σ : Type}

/-- A value under one key leaves those under other keys. -/
theorem TextMap.lookup_insertEntry_of_ne {β : Type} {key other : String} (h : other ≠ key)
    (value : β) (m : TextMap β) : (insertEntry key value m).lookup other = m.lookup other := by
  have hkey : (other == key) = false := beq_eq_false_iff_ne.mpr h
  induction m with
  | nil => simp [insertEntry, List.lookup_cons, hkey]
  | cons e m ih =>
    obtain ⟨k, v⟩ := e
    unfold insertEntry
    split
    · simp [List.lookup_cons, hkey]
    · split
      · next heq => simp [List.lookup_cons, ← heq, hkey]
      · simp [List.lookup_cons, ih]

/-- Reading files leaves those that were read, adds all that are named, and takes the text of each
from where it stands below the root. -/
theorem SourceTree.loadInto_spec {files : Storage σ} {root : String} {world : σ}
    {loaded tree : TextMap String} {names : List String}
    (hloaded : ∀ file text, loaded.lookup file = some text →
      files.readText (joinPath root file) world = .ok text)
    (h : loadInto files root world loaded names = .ok tree) :
    (∀ file, (loaded.lookup file).isSome → (tree.lookup file).isSome) ∧
      (∀ file ∈ names, (tree.lookup file).isSome) ∧
      ∀ file text, tree.lookup file = some text →
        files.readText (joinPath root file) world = .ok text := by
  induction names generalizing loaded with
  | nil =>
    cases h
    exact ⟨fun _ => id, nofun, hloaded⟩
  | cons name names ih =>
    unfold loadInto at h
    split at h
    · next hknown =>
      obtain ⟨hkept, hnamed, hread⟩ := ih hloaded h
      exact ⟨hkept, List.forall_mem_cons.mpr ⟨hkept name hknown, hnamed⟩, hread⟩
    · obtain ⟨text, htext, h⟩ := bind_eq_ok_iff.mp h
      have hname := TextMap.lookup_insertEntry name text loaded
      have hother {file : String} (hne : file ≠ name) :=
        TextMap.lookup_insertEntry_of_ne hne text loaded
      have hloaded' (file text' : String)
          (hfile : (TextMap.insertEntry name text loaded).lookup file = some text') :
          files.readText (joinPath root file) world = .ok text' := by
        by_cases heq : file = name
        · rw [heq, hname] at hfile
          rw [heq, ← Option.some.inj hfile]
          exact htext
        · rw [hother heq] at hfile
          exact hloaded file text' hfile
      obtain ⟨hkept, hnamed, hread⟩ := ih hloaded' h
      refine ⟨fun file hfile => ?_, List.forall_mem_cons.mpr ⟨?_, hnamed⟩, hread⟩
      · by_cases heq : file = name
        · exact hkept file (by rw [heq, hname]; rfl)
        · exact hkept file (by rwa [hother heq])
      · exact hkept name (by rw [hname]; rfl)

/-- The sources of a model below a root are the files of its points, as they are there. -/
theorem RepairSession.readSources_root {files : Storage σ} {model : ProgramModel} {world : σ}
    {path : String} {tree : SourceTree}
    (h : readSources files model world (.root path) = .ok tree) :
    ∀ p ∈ model.points, ∃ text, tree.file? p.location.file = some text ∧
      files.readText (joinPath path p.location.file) world = .ok text := by
  simp only [readSources] at h
  split at h
  · next loaded hload =>
    cases h
    obtain ⟨texts, htexts, hload⟩ := bind_eq_ok_iff.mp hload
    cases hload
    obtain ⟨-, hnamed, hread⟩ := SourceTree.loadInto_spec (by simp) htexts
    intro p hp
    obtain ⟨text, htext⟩ := Option.isSome_iff_exists.mp
      (hnamed _ (List.mem_map_of_mem (f := (·.location.file)) hp))
    exact ⟨text, htext, hread _ text htext⟩
  · cases h

end Sources

section Sessions

variable {α σ : Type} [Scalar α] {s : RepairSession} {tools : Toolchain σ}
  {notify : SearchProgress α → σ → σ} {sources : Sources} {entropy : UInt64} {world : σ}
  {search : Search α σ} {engine : Engine α σ}

/-- What a prepared search is made of. -/
theorem RepairSession.prepare_eq_ok
    (h : s.prepare tools notify sources entropy world = .ok (search, engine)) :
    (∃ g g', ProgramModel.ofCatalog (suspiciousPoints s.catalog
        (s.localization.suspicious s.config.localization.threshold))
          s.config.localization.maxPoints g = .ok (search.setup.model, g')) ∧
      readSources tools.files search.setup.model world sources = .ok search.setup.sources ∧
      search.tools = tools := by
  obtain ⟨_, -, h⟩ := bind_eq_ok_iff.mp h
  obtain ⟨⟨model, g⟩, hmodel, h⟩ := bind_eq_ok_iff.mp h
  obtain ⟨tree, htree, h⟩ := bind_eq_ok_iff.mp h
  obtain ⟨⟨store, world'⟩, -, h⟩ := bind_eq_ok_iff.mp h
  cases h
  refine ⟨?_, htree, rfl⟩
  unfold RepairSession.model at hmodel
  dsimp only at hmodel
  split at hmodel
  · next r hr =>
    cases hmodel
    exact ⟨_, _, hr⟩
  · cases hmodel

/-- An evaluation ends, and for a failed patch exactly when something was selected and the patcher
or the script refused it. -/
theorem evaluateEdits_patchFailed (hsteady : tools.Steady) (setup : Setup) (id : ℕ)
    (edits : List AppliedEdit) (b : Bench σ) :
    ∃ evaluation : Evaluation α, (evaluateEdits setup tools id edits b).1 = .ok evaluation ∧
      (evaluation.status = .patchFailed ↔
        edits ≠ [] ∧
          ∃ cause, (editedFiles setup tools edits b.world).1 = .error (.refused cause)) := by
  have hfiles := hsteady.editedFiles_ne_brokeDown setup edits b.world
  unfold evaluateEdits
  dsimp only
  split
  · next hempty =>
    exact ⟨_, rfl, iff_of_false nofun fun hnot => hnot.1 (List.isEmpty_iff.mp hempty)⟩
  · next hsome =>
    have hne : edits ≠ [] := mt List.isEmpty_iff.mpr hsome
    generalize editedFiles setup tools edits b.world = x at hfiles
    rcases x with ⟨(cause | _) | sources, world⟩
    · exact ⟨_, rfl, iff_of_true rfl ⟨hne, cause, rfl⟩⟩
    · exact absurd rfl hfiles
    · have hnot : ¬ (edits ≠ [] ∧ ∃ cause, (Except.ok sources :
          Except PatcherError (TextMap String)) = .error (.refused cause)) := by
        rintro ⟨-, cause, hcause⟩
        cases hcause
      dsimp only
      split
      · exact ⟨_, rfl, iff_of_false nofun hnot⟩
      · exact ⟨_, rfl, iff_of_false nofun hnot⟩
      · split
        · exact ⟨_, rfl, iff_of_false nofun hnot⟩
        · refine ⟨_, rfl, iff_of_false (fun hstatus => ?_) hnot⟩
          change scoredStatus _ _ _ _ = _ at hstatus
          unfold scoredStatus at hstatus
          split at hstatus
          · cases hstatus
          · split at hstatus <;> cases hstatus

/-- Where the points have what genes are read by, only the filter switches a gene off. -/
theorem decodeGene_none {filter : Bool} {c c' : Chromosome} {i : ℕ} {p : Point}
    (hoperators : p.operators ≠ [])
    (hingredients : ∀ o ∈ p.operators, o.needsIngredient = true → p.ingredients ≠ [])
    (h : decodeGene filter c i p = .ok (none, c')) :
    filter = true ∧ ∃ o ∈ p.operators, ∃ k, redundancyVerdict o p k = .reject := by
  unfold decodeGene at h
  split at h
  · next hnone => exact absurd (List.isEmpty_iff.mp hnone) hoperators
  · obtain ⟨number, -, h⟩ := bind_eq_ok_iff.mp h
    obtain ⟨o, ho, h⟩ := bind_eq_ok_iff.mp h
    have ho : o ∈ p.operators := List.mem_of_getElem? (getElem?_of_itemAt ho)
    split at h
    · next hnone =>
      rw [Bool.and_eq_true, List.isEmpty_iff] at hnone
      exact absurd hnone.2 (hingredients o ho hnone.1)
    · have hruled (k : Option ℕ) (h : (if filter = true
          then pure (filterEdit c i p (number % p.operators.length) o k)
          else pure (some (appliedEdit i p (number % p.operators.length) o k), c)) =
            (.ok (none, c') : Except Fault (Option AppliedEdit × Chromosome))) :
          filter = true ∧ ∃ k, redundancyVerdict o p k = .reject := by
        split at h
        · next hfilter =>
          refine ⟨hfilter, k.bind (p.ingredients[·]?), ?_⟩
          have hnone := congrArg Prod.fst (Except.ok.inj h)
          unfold filterEdit at hnone
          split at hnone
          · cases hnone
          · cases hnone
          · next hreject => exact hreject
        · cases h
      have hfiltered : filter = true ∧ ∃ k, redundancyVerdict o p k = .reject := by
        dsimp only at h
        split at h
        · obtain ⟨n, -, h⟩ := bind_eq_ok_iff.mp h
          exact hruled _ h
        · exact hruled _ h
      exact ⟨hfiltered.1, o, ho, hfiltered.2⟩

/-- Only misplaced lines keep the edits of a prepared search from being applied. A search that is
prepared on files below a root, with edits of whole lines, has at every point an operator, an
ingredient wherever one is needed, and the text of its file as it is there. So of a chromosome of
any genes only the filter switches one off, and what is selected is refused for its lines alone: an
evaluation ends for a failed patch exactly when two selected points share their file and their
line, or a line is zero or beyond the end of its file. -/
theorem prepared_edits_apply (htools : tools.patch = linePatcher) {path : String}
    (hprepare : s.prepare tools notify (.root path) entropy world = .ok (search, engine)) :
    (∀ p ∈ search.setup.model.points,
      p.operators ≠ [] ∧
      (∀ o ∈ p.operators, o.needsIngredient = true → p.ingredients ≠ []) ∧
      ∃ text, search.setup.sources.file? p.location.file = some text ∧
        tools.files.readText (joinPath path p.location.file) world = .ok text) ∧
    ∀ c : Chromosome, c.Shaped search.setup.model.points.length →
      (∀ filter i c', ∀ p ∈ search.setup.model.points,
        decodeGene filter c i p = .ok (none, c') →
          filter = true ∧ ∃ o ∈ p.operators, ∃ k, redundancyVerdict o p k = .reject) ∧
      ∀ (filter : Bool) (b : Bench σ),
        let setup := { search.setup with
          config := { search.setup.config with filterRules := filter } }
        ∃ edits c', selectEdits setup.model.points filter setup.config.maxEdits c =
            .ok (edits, c') ∧
          (∀ cause, (editedFiles setup search.tools edits b.world).1 = .error cause →
            ∃ e, cause = .refused e ∧ e.IsAboutLines) ∧
          ∃ evaluation : Evaluation α,
            (evaluate setup search.tools c b).1 = .ok (evaluation, c') ∧
            (evaluation.status = .patchFailed ↔ Misplaced search.setup.sources edits) := by
  obtain ⟨⟨g, g', hmodel⟩, hsources, hsame⟩ := RepairSession.prepare_eq_ok hprepare
  have hpoint (p : Point) (hp : p ∈ search.setup.model.points) :
      p.operators ≠ [] ∧
      (∀ o ∈ p.operators, o.needsIngredient = true → p.ingredients ≠ []) ∧
      ∃ text, search.setup.sources.file? p.location.file = some text ∧
        tools.files.readText (joinPath path p.location.file) world = .ok text := by
    refine ⟨?_, fun o ho => ProgramModel.ingredients_ne_nil hmodel hp ho,
      RepairSession.readSources_root hsources p hp⟩
    exact List.ne_nil_of_length_pos
      (ProgramModel.operators_pos hmodel _ (List.mem_map_of_mem hp))
  refine ⟨hpoint, fun c hc => ⟨fun filter i c' p hp => ?_, fun filter b => ?_⟩⟩
  · exact decodeGene_none (hpoint p hp).1 (hpoint p hp).2.1
  · intro setup
    obtain ⟨⟨edits, c'⟩, hselected, -⟩ : Yields
        (selectEdits setup.model.points filter setup.config.maxEdits c) _ :=
      Chromosome.yields_selectEdits hc _ _
    have hshape := selected_of_selectEdits hc hselected
    have hsteady : search.tools.Steady := .of_linePatcher (hsame ▸ htools)
    -- what is selected becomes a script at the same places, and every file of it was read
    obtain ⟨script, hscript, hplaces⟩ :=
      scriptOf_of_fits (hsame ▸ htools) hshape.fits b.world
    have hread (e : Edit) (he : e ∈ script) :
        (search.setup.sources.file? e.location.file).isSome := by
      have hplace : e.location ∈ edits.map (·.location) := hplaces ▸ List.mem_map_of_mem he
      obtain ⟨a, ha, hlocation⟩ := List.mem_map.mp hplace
      obtain ⟨p, hp, hfit⟩ := hshape.fits a ha
      obtain ⟨-, -, text, htext, -⟩ := hpoint p (List.mem_of_getElem? hp)
      rw [← hlocation, hfit.location, htext]
      rfl
    have hfiles : editedFiles setup search.tools edits b.world =
        ((EditScript.render ⟨script⟩ search.setup.sources).mapError .refused, b.world) := by
      unfold editedFiles
      rw [hscript]
    have hmisplaced : EditScript.Fits ⟨script⟩ search.setup.sources ↔
        ¬ Misplaced search.setup.sources edits :=
      fits_iff_not_misplaced hplaces hshape.ascending
    have hcases := EditScript.render_cases (s := ⟨script⟩) hread
    refine ⟨edits, c', hselected, fun cause hcause => ?_, ?_⟩
    · rw [hfiles] at hcause
      obtain ⟨-, files, hrendered⟩ | ⟨-, e, hrefused, habout⟩ := hcases
      · rw [hrendered] at hcause
        cases hcause
      · rw [hrefused] at hcause
        cases hcause
        exact ⟨e, rfl, habout⟩
    · let begun : Bench σ := { b with ledger := b.ledger.begin.2 }
      obtain ⟨evaluation, hanswer, hstatus⟩ := evaluateEdits_patchFailed (α := α) hsteady setup
        b.ledger.begin.1 edits begun
      refine ⟨evaluation, ?_, hstatus.trans ?_⟩
      · unfold evaluate
        dsimp only
        rw [hselected]
        dsimp only
        rw [hanswer]
        rfl
      · rw [show begun.world = b.world from rfl, hfiles]
        obtain ⟨hfit, files, hrendered⟩ | ⟨hnot, e, hrefused, -⟩ := hcases
        · refine iff_of_false ?_ (hmisplaced.mp hfit)
          rintro ⟨-, cause, hcause⟩
          rw [hrendered] at hcause
          cases hcause
        · have hmis := not_not.mp fun hmis => hnot (hmisplaced.mpr hmis)
          refine iff_of_true ⟨?_, e, by rw [hrefused]; rfl⟩ hmis
          rintro rfl
          simp [Misplaced] at hmis

end Sessions

/-- Tools for a program whose every file has one line. -/
def oneLineTools : Toolchain Unit :=
  { idleTools with files :=
      { idleTools.files with read := fun _ _ => .ok (Text.encode "x++;\n") } }

/-- A session with a point on the line of a file and one far beyond its end. -/
def overrunSession : RepairSession where
  config := {}
  localization := ⟨.ochiai, ⟨["T#kept"], ["T#broken"]⟩,
    [(⟨"A.java", 1⟩, 1.0), (⟨"A.java", 9⟩, 1.0)]⟩
  catalog := [⟨⟨"A.java", 1⟩, "x++;", 0.0, [], [.delete]⟩, ⟨⟨"A.java", 9⟩, "y++;", 0.0, [], []⟩]

/-- How many points the session is prepared with, and how the evaluation of a chromosome ends. -/
def overrunStatus (c : Chromosome) : Option (ℕ × Option EvaluationStatus) :=
  (overrunSession.prepare (α := Float) oneLineTools (fun _ w => w) (.root "src") 0 ()).toOption.map
    fun r => (r.1.setup.model.points.length,
      (evaluate (α := Float)
        { r.1.setup with config := { r.1.setup.config with filterRules := true } } r.1.tools c
        (.start 1 0 default ())).1.toOption.map (·.1.status))

/-- The edit on the line is applied, and for the one beyond the end the patch fails. -/
theorem prepared_edits_apply_of_overrun :
    oneLineTools.patch = linePatcher ∧
    ∃ (search : Search Float Unit) (engine : Engine Float Unit),
      overrunSession.prepare oneLineTools (fun _ w => w) (.root "src") 0 () =
        .ok (search, engine) ∧
      (∃ edits c', selectEdits search.setup.model.points true search.setup.config.maxEdits
          ⟨[true, false], [0, 0], [0, 0]⟩ = .ok (edits, c') ∧
        ¬ Misplaced search.setup.sources edits) ∧
      ∃ edits c', selectEdits search.setup.model.points true search.setup.config.maxEdits
          ⟨[false, true], [0, 0], [0, 0]⟩ = .ok (edits, c') ∧
        Misplaced search.setup.sources edits := by
  have hpatch : oneLineTools.patch = linePatcher := rfl
  have hfirst : overrunStatus ⟨[true, false], [0, 0], [0, 0]⟩ =
      some (2, some (.evaluated true)) := by decide +kernel
  have hsecond : overrunStatus ⟨[false, true], [0, 0], [0, 0]⟩ = some (2, some .patchFailed) := by
    decide +kernel
  refine ⟨hpatch, ?_⟩
  unfold overrunStatus at hfirst hsecond
  rcases hprepare : overrunSession.prepare (α := Float) oneLineTools (fun _ w => w) (.root "src") 0
    () with fault | ⟨search, engine⟩
  · rw [hprepare] at hfirst
    cases hfirst
  · rw [hprepare] at hfirst hsecond
    obtain ⟨hcount, hfirst⟩ := Prod.mk.inj (Option.some.inj hfirst)
    obtain ⟨-, hsecond⟩ := Prod.mk.inj (Option.some.inj hsecond)
    have happly := (prepared_edits_apply hpatch hprepare).2
    refine ⟨search, engine, rfl, ?_, ?_⟩
    · obtain ⟨edits, c', hselected, -, evaluation, hevaluate, hstatus⟩ :=
        (happly ⟨[true, false], [0, 0], [0, 0]⟩ ⟨hcount.symm, hcount.symm, hcount.symm⟩).2 true
          (.start 1 0 default ())
      rw [hevaluate] at hfirst
      refine ⟨edits, c', hselected, fun hmisplaced => ?_⟩
      have hpassed : evaluation.status = .evaluated true := Option.some.inj hfirst
      rw [hstatus.mpr hmisplaced] at hpassed
      cases hpassed
    · obtain ⟨edits, c', hselected, -, evaluation, hevaluate, hstatus⟩ :=
        (happly ⟨[false, true], [0, 0], [0, 0]⟩ ⟨hcount.symm, hcount.symm, hcount.symm⟩).2 true
          (.start 1 0 default ())
      rw [hevaluate] at hsecond
      exact ⟨edits, c', hselected, hstatus.mp (Option.some.inj hsecond)⟩

end PatchSearch
