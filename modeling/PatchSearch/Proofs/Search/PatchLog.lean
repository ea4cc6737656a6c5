import PatchSearch.Proofs.Evaluation.Replay
import PatchSearch.Proofs.Evaluation.Stages
import PatchSearch.Proofs.Search.WellFormed

/-!
The log of accepted patches. A record keeps the numbers of the edits of its patch and their readable
form, so it says where and what they are, and from the numbers alone a chromosome can be made that
selects the same edits again. A store in memory loses no record: its records are numbered in order,
one for each patch that it knows, and each was made during an evaluation of its own.
-/
namespace PatchSearch

open Chromosome

/-- A recorded edit stands for the operator and the ingredient with the given numbers at a
point. -/
structure RecordedEdit.Stands (p : Point) (number : ℕ) (ingredientNumber : Option ℕ)
    (e : RecordedEdit) : Prop where
  location : p.location = e.location
  statement : p.statement = e.statement
  operator : p.operators[number]? = some e.operator
  needed : ingredientNumber.isSome = e.operator.needsIngredient
  ingredient : ∀ k, ingredientNumber = some k →
    ∃ i, p.ingredients[k]? = some i ∧ e.ingredient = some i.source
  without : ingredientNumber = none → e.ingredient = none

theorem AppliedEdit.Fits.stands {filter : Bool} {p : Point} {e : AppliedEdit}
    (h : e.Fits filter p) : e.recorded.Stands p e.operatorIndex e.ingredientIndex := by
  have hsource : e.ingredient =
      (e.ingredientIndex.bind (p.ingredients[·]?)).map (·.source) :=
    congrArg AppliedEdit.ingredient h.edit
  refine ⟨(congrArg AppliedEdit.location h.edit).symm, (congrArg AppliedEdit.statement h.edit).symm,
    h.operator, h.needed, fun k hk => ?_, fun hnone => ?_⟩
  · have hlt := h.ingredient k hk
    refine ⟨p.ingredients[k], List.getElem?_eq_getElem hlt, ?_⟩
    change e.ingredient = _
    rw [hsource, hk, Option.bind_some, List.getElem?_eq_getElem hlt, Option.map_some]
  · change e.ingredient = _
    rw [hsource, hnone, Option.bind_none, Option.map_none]

namespace PatchRecord

/-- The lists of a record are those of some edits. -/
structure Lists (r : PatchRecord) (edits : List AppliedEdit) : Prop where
  operators : r.operators = edits.map (·.operatorIndex)
  locations : r.locations = edits.map (·.point)
  ingredients : r.ingredients = edits.map (·.ingredientIndex)
  edits : r.edits = edits.map AppliedEdit.recorded

/-- The patch that a record is of. -/
def patch (r : PatchRecord) : Patch :=
  .ofEdits (((r.operators.zip r.edits).zip r.ingredients).map fun e => ⟨e.1.1, e.1.2.location, e.2⟩)

/-- A record is encoded by a chromosome whose active genes are those at its points, with its
numbers. -/
structure EncodedBy (r : PatchRecord) (c : Chromosome) : Prop where
  active : c.activePoints = r.locations
  operators : ∀ j i : ℕ, r.locations[j]? = some i → c.operatorIndex[i]? = r.operators[j]?
  ingredients : ∀ j i k : ℕ, r.locations[j]? = some i → r.ingredients[j]? = some (some k) →
    c.ingredientIndex[i]? = some k

/-- The chromosome over `n` points that encodes a record. -/
def chromosome (n : ℕ) (r : PatchRecord) : Chromosome where
  active := (List.range n).map fun i => decide (i ∈ r.locations)
  operatorIndex := (List.range n).map fun i => (r.operators[r.locations.idxOf i]?).getD 0
  ingredientIndex := (List.range n).map fun i => (r.ingredients[r.locations.idxOf i]?).join.getD 0

/-- A record is true to a setup. It has an edit, its lists have one entry for each, its points
ascend, and every entry says what its numbers stand for at its point. A chromosome encodes it, and
every chromosome that does selects its edits and is left as it is. -/
structure Faithful (s : Setup) (r : PatchRecord) : Prop where
  nonempty : 1 ≤ r.locations.length
  operators : r.operators.length = r.locations.length
  ingredients : r.ingredients.length = r.locations.length
  edits : r.edits.length = r.locations.length
  ascending : r.locations.Pairwise (· < ·)
  stands : ∀ (j i number : ℕ) (ingredient : Option ℕ) (e : RecordedEdit),
    r.locations[j]? = some i → r.operators[j]? = some number →
    r.ingredients[j]? = some ingredient → r.edits[j]? = some e →
      ∃ p, s.model.points[i]? = some p ∧ e.Stands p number ingredient
  encoded : (r.chromosome s.model.points.length).Shaped s.model.points.length ∧
    r.EncodedBy (r.chromosome s.model.points.length)
  replayed : ∀ c, c.Shaped s.model.points.length → r.EncodedBy c → ∃ edits,
    selectEdits s.model.points s.config.filterRules s.config.maxEdits c = .ok (edits, c) ∧
      r.Lists edits

variable {r : PatchRecord} {edits : List AppliedEdit}

theorem Lists.patch (h : r.Lists edits) :
    r.patch = .ofEdits (edits.map AppliedEdit.patchEdit) := by
  unfold PatchRecord.patch
  rw [h.operators, h.edits, h.ingredients, List.zip_map', List.zip_map', List.map_map]
  rfl

/-- A record of ascending points is encoded by the chromosome made for it. -/
theorem encodedBy_chromosome {n : ℕ} (hascending : r.locations.Pairwise (· < ·))
    (hpoints : ∀ i ∈ r.locations, i < n) (hoperators : r.operators.length = r.locations.length) :
    r.EncodedBy (r.chromosome n) := by
  have hplace {j i : ℕ} (h : r.locations[j]? = some i) : r.locations.idxOf i = j := by
    obtain ⟨hlt, rfl⟩ := List.getElem?_eq_some_iff.mp h
    exact List.Nodup.idxOf_getElem (hascending.imp Nat.ne_of_lt) j hlt
  have hin {j i : ℕ} (h : r.locations[j]? = some i) : i < n :=
    hpoints i (List.mem_of_getElem? h)
  refine ⟨?_, fun j i hi => ?_, fun j i k hi hk => ?_⟩
  · refine (pairwise_activePoints _).eq_of_mem_iff hascending fun i => ?_
    rw [mem_activePoints]
    simp only [chromosome, List.getElem?_map, Option.map_eq_some_iff, decide_eq_true_eq]
    constructor
    · rintro ⟨j, hj, hmem⟩
      obtain ⟨hi, rfl⟩ := List.getElem?_eq_some_iff.mp hj
      rwa [List.getElem_range] at hmem
    · exact fun hmem => ⟨i, List.getElem?_range (hpoints i hmem), hmem⟩
  · have hj : j < r.operators.length := by
      rw [hoperators]
      exact (List.getElem?_eq_some_iff.mp hi).1
    simp [chromosome, List.getElem?_range (hin hi), hplace hi, hj]
  · simp [chromosome, List.getElem?_range (hin hi), hplace hi, hk]

theorem shaped_chromosome (n : ℕ) (r : PatchRecord) : (r.chromosome n).Shaped n :=
  ⟨by simp [chromosome], by simp [chromosome], by simp [chromosome]⟩

/-- A chromosome that encodes a record encodes its edits. -/
theorem Lists.encoded (h : r.Lists edits) {c : Chromosome} (hc : r.EncodedBy c) {filter : Bool}
    {p : Point} {e : AppliedEdit} (he : e ∈ edits) (hfits : e.Fits filter p) : e.Encoded p c := by
  obtain ⟨j, hj⟩ := List.getElem?_of_mem he
  have hpoint : r.locations[j]? = some e.point := by
    rw [h.locations, List.getElem?_map, hj, Option.map_some]
  constructor
  · have hnumber : r.operators[j]? = some e.operatorIndex := by
      rw [h.operators, List.getElem?_map, hj, Option.map_some]
    have hlt := (List.getElem?_eq_some_iff.mp hfits.operator).1
    exact ⟨_, (hc.operators j _ hpoint).trans hnumber, Nat.mod_eq_of_lt hlt⟩
  · intro k hk
    have hnumber : r.ingredients[j]? = some (some k) := by
      rw [h.ingredients, List.getElem?_map, hj, Option.map_some, Option.mem_def.mp hk]
    exact ⟨_, hc.ingredients j _ k hpoint hnumber, Nat.mod_eq_of_lt (hfits.ingredient k hk)⟩

/-- The entries of a record of selected edits stand for their numbers. -/
theorem Lists.stands (h : r.Lists edits) {points : List Point} {filter : Bool}
    {limit : Option ℕ} (hselected : Selected points filter limit edits) {j i number : ℕ}
    {ingredient : Option ℕ} {e : RecordedEdit} (hi : r.locations[j]? = some i)
    (hnumber : r.operators[j]? = some number) (hingredient : r.ingredients[j]? = some ingredient)
    (he : r.edits[j]? = some e) : ∃ p, points[i]? = some p ∧ e.Stands p number ingredient := by
  rw [h.locations, List.getElem?_map, Option.map_eq_some_iff] at hi
  obtain ⟨a, ha, rfl⟩ := hi
  rw [h.operators, List.getElem?_map, ha] at hnumber
  rw [h.ingredients, List.getElem?_map, ha] at hingredient
  rw [h.edits, List.getElem?_map, ha] at he
  cases hnumber
  cases hingredient
  cases he
  obtain ⟨p, hp, hfits⟩ := hselected.fits a (List.mem_of_getElem? ha)
  exact ⟨p, hp, hfits.stands⟩

/-- A record of selected edits is true to the setup they were selected for. -/
theorem faithful_of_selected {s : Setup} (h : r.Lists edits) (hsome : edits ≠ [])
    (hselected : Selected s.model.points s.config.filterRules s.config.maxEdits edits) :
    r.Faithful s := by
  have hlocations : r.locations.length = edits.length := by
    rw [h.locations, List.length_map]
  have hoperators : r.operators.length = r.locations.length := by
    rw [h.operators, List.length_map, hlocations]
  have hascending : r.locations.Pairwise (· < ·) := h.locations ▸ hselected.ascending
  have hpoints : ∀ i ∈ r.locations, i < s.model.points.length := by
    intro i hi
    rw [h.locations] at hi
    obtain ⟨e, he, rfl⟩ := List.mem_map.mp hi
    obtain ⟨p, hp, -⟩ := hselected.fits e he
    exact (List.getElem?_eq_some_iff.mp hp).1
  refine ⟨?_, hoperators, ?_, ?_, hascending, fun j i number ingredient e => h.stands hselected,
    ⟨shaped_chromosome _ r, encodedBy_chromosome hascending hpoints hoperators⟩, ?_⟩
  · rw [hlocations]
    exact List.length_pos_iff.mpr hsome
  · rw [h.ingredients, List.length_map, hlocations]
  · rw [h.edits, List.length_map, hlocations]
  · intro c hc hencoded
    have hactive : c.activePoints = edits.map (·.point) := hencoded.active.trans h.locations
    exact ⟨edits, hselected.replay hc.active hactive fun e he p _ => h.encoded hencoded he, h⟩

end PatchRecord

namespace Ledger

/-- The books of a store in memory are a log. The records are numbered in order, each was made
during an evaluation of its own, they are of the known patches, which differ, and they are true to
the setup. -/
structure Logged (s : Setup) (l : Ledger) : Prop where
  inMemory : l.patches.outputDir = none
  next : l.nextPatchId = l.patches.records.length
  ids : l.patches.records.map (·.id) = List.range l.patches.records.length
  evaluations : (l.patches.records.map (·.evaluations)).Pairwise (· < ·)
  counted : ∀ r ∈ l.patches.records, 1 ≤ r.evaluations ∧ r.evaluations ≤ l.evaluations
  patches : l.patches.records.map PatchRecord.patch = l.patches.patches
  distinct : (l.patches.records.map PatchRecord.patch).Nodup
  faithful : ∀ r ∈ l.patches.records, r.Faithful s

variable {σ : Type} {s : Setup} {l : Ledger}

theorem logged_start (s : Setup) (now : ℕ) : (Ledger.start .empty now).Logged s :=
  ⟨rfl, rfl, rfl, .nil, nofun, rfl, .nil, nofun⟩

theorem Logged.length_records (h : l.Logged s) :
    l.patches.records.length = l.patches.length := by
  rw [PatchStore.length, ← h.patches, List.length_map]

/-- Beginning an evaluation writes nothing into the log. -/
theorem Logged.begin (h : l.Logged s) : l.begin.2.Logged s :=
  ⟨h.inMemory, h.next, h.ids, h.evaluations,
    fun r hr => (h.counted r hr).imp_right Nat.le_succ_of_le, h.patches, h.distinct, h.faithful⟩

/-- Accepting selected edits during an evaluation keeps the log. -/
theorem Logged.accept (h : l.Logged s) {edits : List AppliedEdit} (hsome : edits ≠ [])
    (hselected : Selected s.model.points s.config.filterRules s.config.maxEdits edits)
    (files : Storage σ) (now : ℕ) (world : σ) :
    (l.begin.2.accept files edits now world).2.1.Logged s := by
  have hbegun := h.begin
  cases hknown : l.begin.2.patches.contains (Patch.ofEdits (edits.map AppliedEdit.patchEdit)) with
  | true =>
    rw [accept_known _ _ _ _ _ hknown]
    exact hbegun
  | false =>
    have hlists : (l.begin.2.recordOf edits now).Lists edits := ⟨rfl, rfl, rfl, rfl⟩
    have hwritten : (l.begin.2.writeNext files edits now world).1 = true := by
      unfold writeNext
      rw [hbegun.inMemory]
    have hpatches : (l.patches.records ++ [l.begin.2.recordOf edits now]).map PatchRecord.patch =
        l.patches.patches ++ [Patch.ofEdits (edits.map AppliedEdit.patchEdit)] := by
      rw [List.map_append, h.patches, List.map_singleton, hlists.patch]
    have hdistinct : (l.patches.patches ++
        [Patch.ofEdits (edits.map AppliedEdit.patchEdit)]).Nodup := by
      have hnew : Patch.ofEdits (edits.map AppliedEdit.patchEdit) ∉ l.patches.patches := by
        simpa [PatchStore.contains, Ledger.begin] using hknown
      rw [← List.concat_eq_append]
      exact List.Nodup.concat hnew (h.patches ▸ h.distinct)
    rw [accept_new _ _ _ _ _ hknown, hwritten, if_pos rfl]
    refine ⟨h.inMemory, ?_, ?_, ?_, ?_, hpatches, hpatches ▸ hdistinct, ?_⟩
    · rw [List.length_append]
      exact congrArg (· + 1) h.next
    · rw [List.map_append, List.length_append, List.length_singleton, List.range_succ]
      exact congrArg₂ (· ++ [·]) h.ids h.next
    · -- the records before are of evaluations before this one
      rw [List.map_append, List.pairwise_append]
      refine ⟨h.evaluations, List.pairwise_singleton _ _, fun n hn m hm => ?_⟩
      obtain ⟨r, hr, rfl⟩ := List.mem_map.mp hn
      obtain rfl := List.mem_singleton.mp hm
      exact Nat.lt_succ_of_le (h.counted r hr).2
    · intro r hr
      rcases List.mem_append.mp hr with hr | hr
      · exact hbegun.counted r hr
      · obtain rfl := List.mem_singleton.mp hr
        exact ⟨Nat.succ_pos _, le_rfl⟩
    · intro r hr
      rcases List.mem_append.mp hr with hr | hr
      · exact h.faithful r hr
      · obtain rfl := List.mem_singleton.mp hr
        exact PatchRecord.faithful_of_selected hlists hsome hselected

end Ledger

section Runs

variable {α σ : Type} [Scalar α]

/-- An evaluation keeps the log. -/
theorem Ledger.Logged.evaluate {s : Setup} {tools : Toolchain σ} {b b' : Bench σ}
    {c c' : Chromosome} {evaluation : Evaluation α} (h : b.ledger.Logged s)
    (hc : c.Shaped s.model.points.length)
    (hrun : evaluate s tools c b = (.ok (evaluation, c'), b')) : b'.ledger.Logged s := by
  obtain ⟨edits, t, hselected, rfl, hstages⟩ := stages_of_evaluate hrun
  obtain ⟨haccepted, hsame⟩ := hstages.ledger
  change t.ledger.Logged s
  by_cases hadequate : evaluation.status = .evaluated true
  · obtain ⟨hsome, now, world, hledger⟩ := haccepted hadequate
    rw [hledger]
    exact h.accept hsome (selected_of_selectEdits hc hselected) _ _ _
  · rw [hsame hadequate]
    exact h.begin

/-- The records of accepted patches are a log that can be replayed, at every moment of a run with a
store in memory that starts with one: before, during and after each evaluation, and in the
result. -/
theorem patch_log (catalog : List Point) (maxPoints : ℕ) (g g' : Random) (s : Search α σ)
    (hmodel : ProgramModel.ofCatalog catalog maxPoints g = .ok (s.setup.model, g')) :
    (∀ now, (Ledger.start .empty now).Logged s.setup) ∧
    ∀ e₀ : Engine α σ, e₀.bench.ledger.Logged s.setup →
      (∀ c, s.Reaches e₀ c →
        c.engine.bench.ledger.Logged s.setup ∧ c.engine.bench.begun.ledger.Logged s.setup) ∧
      ∀ r t, s.run e₀ = .ok (r, t) →
        t.bench.ledger.Logged s.setup ∧ r.patches = t.bench.ledger.patches.records ∧
          r.patches.length = t.bench.ledger.patches.length ∧
          ∀ x ∈ r.patches, x.evaluations ≤ r.stats.totalEvaluations := by
  refine ⟨Ledger.logged_start s.setup, fun e₀ hstart => ?_⟩
  have hshaped (c : Course α σ) (hc : s.Reaches e₀ c) :
      ∀ d ∈ c.waiting, d.chromosome.Shaped s.setup.model.points.length := by
    intro d hd
    have hbounds := (hc.carried (s.carries_inBounds (ProgramModel.operators_pos hmodel))).waiting
    have hd := (hbounds d hd).shaped
    rwa [Search.bounds, ProgramModel.bounds, List.length_map] at hd
  have hlogged (c : Course α σ) (hc : s.Reaches e₀ c) : c.engine.bench.ledger.Logged s.setup :=
    hc.kept (I := fun _ b => b.ledger.Logged s.setup) hstart (fun _ h => h) hshaped
      fun h hd hrun => h.evaluate hd hrun
  refine ⟨fun c hc => ⟨hlogged c hc, (hlogged c hc).begin⟩, fun r t hrun => ?_⟩
  obtain ⟨c, hc, -, rfl, reason, started, rfl⟩ := Search.reaches_run hrun
  have h := hlogged c hc
  exact ⟨h, rfl, h.length_records, fun x hx => (h.counted x hx).2⟩

end Runs

/-- A catalog of one line, whose first ingredient repeats it. -/
def loneLineCatalog : List Point :=
  [⟨⟨"A.java", 1⟩, "x++;", 1.0, [⟨0, "x++;"⟩, ⟨1, "x--;"⟩], [.replace]⟩]

/-- The search of two candidates over that line. -/
def loneLineSearch : Search Float Bool :=
  Search.ofConfig pairConfig ⟨loneLineCatalog.map Point.normalize⟩ oneLineSetup.tests
    oneLineSetup.sources hastyTools fun _ w => w

/-- A run over the line finds its replacement by the other ingredient, and logs it. -/
theorem patch_log_of_replaced_line :
    ProgramModel.ofCatalog loneLineCatalog 40 (Random.ofSeed 0) =
        .ok (loneLineSearch.setup.model, Random.ofSeed 0) ∧
      (Ledger.start .empty 0).Logged loneLineSearch.setup ∧
      ∃ r t, loneLineSearch.run (Search.engine (.start 200 0 (.start .empty 0) false) 2) =
          .ok (r, t) ∧
        r.patches = [⟨0, 1, 0, [0], [0], [some 1],
          [⟨.replace, ⟨"A.java", 1⟩, "x++;", some "x--;"⟩]⟩] ∧
        t.bench.ledger.Logged loneLineSearch.setup := by
  have hmodel : ProgramModel.ofCatalog loneLineCatalog 40 (Random.ofSeed 0) =
      .ok (loneLineSearch.setup.model, Random.ofSeed 0) := rfl
  obtain ⟨hstart, hruns⟩ :=
    patch_log loneLineCatalog 40 (Random.ofSeed 0) (Random.ofSeed 0) loneLineSearch hmodel
  let engine : Engine Float Bool := Search.engine (.start 200 0 (.start .empty 0) false) 2
  have hfound : (loneLineSearch.run engine).toOption.map (·.1.patches) =
      some [⟨0, 1, 0, [0], [0], [some 1],
        [⟨.replace, ⟨"A.java", 1⟩, "x++;", some "x--;"⟩]⟩] := by
    decide +kernel
  obtain ⟨⟨r, t⟩, hrun, hpatches⟩ := toOption_map_eq_some_iff.mp hfound
  exact ⟨hmodel, hstart 0, r, t, hrun, hpatches, ((hruns engine (hstart 0)).2 r t hrun).1⟩

end PatchSearch
