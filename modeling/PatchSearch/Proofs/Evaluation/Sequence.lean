import PatchSearch.Proofs.Search.PatchLog

/-!
Sequences of evaluations with one store of patches. Each evaluation either leaves the store alone or
accepts the patch of an adequate candidate; an adequate candidate whose patch gets no number repeats
one that was accepted before. A patch is known by the numbers of its edits, so what is repeated are
the numbers. They stand for the same edits at every location whose points offer the same operators
and ingredients; where such points differ, a candidate may be dropped although its edits are new.
-/
namespace PatchSearch

variable {α σ : Type}

/-- What can be read of an edit: the operator, the location and the text of the ingredient. -/
def RecordedEdit.choice (e : RecordedEdit) : Operator × Location × Option String :=
  (e.operator, e.location, e.ingredient)

def AppliedEdit.choice (e : AppliedEdit) : Operator × Location × Option String :=
  e.recorded.choice

/-- The points on a location offer the same operators and the same texts in the same order. -/
def SameOffers (points : List Point) (l : Location) : Prop :=
  ∀ p ∈ points, ∀ q ∈ points, p.location = l → q.location = l →
    p.operators = q.operators ∧ p.ingredients.map (·.source) = q.ingredients.map (·.source)

instance (points : List Point) (l : Location) : Decidable (SameOffers points l) :=
  inferInstanceAs (Decidable (∀ p ∈ points, ∀ q ∈ points, p.location = l → q.location = l →
    p.operators = q.operators ∧ p.ingredients.map (·.source) = q.ingredients.map (·.source)))

section Choices

variable {points : List Point} {filter : Bool} {limit : Option ℕ} {edits edits' : List AppliedEdit}
  {c c' d d' : Chromosome}

/-- Selected edits fit their points, whatever the shape of the chromosome. -/
theorem fits_of_selectEdits (h : selectEdits points filter limit c = .ok (edits, c')) :
    ∀ e ∈ edits, ∃ p ∈ points, e.Fits filter p := by
  obtain ⟨decoded, c₁, hdecoded, hsubperm⟩ := selectEdits_subperm h
  intro e he
  obtain ⟨j, p, hp, -, hfits⟩ := decodeFrom_fits hdecoded e (hsubperm.subset he)
  exact ⟨p, List.mem_of_getElem? hp, hfits⟩

/-- The location of an edit is that of its point. -/
theorem AppliedEdit.Fits.location_eq {e : AppliedEdit} {p : Point} (h : e.Fits filter p) :
    p.location = e.location :=
  (congrArg AppliedEdit.location h.edit).symm

/-- Where the points offer the same, equal numbers stand for equal edits. -/
theorem AppliedEdit.Fits.choice_eq {e e' : AppliedEdit} {p q : Point} (he : e.Fits filter p)
    (he' : e'.Fits filter q) (hp : p ∈ points) (hq : q ∈ points)
    (hoffers : SameOffers points e.location) (hsame : e.patchEdit = e'.patchEdit) :
    e.choice = e'.choice := by
  obtain ⟨hnumber, hlocation, hingredient⟩ := PatchEdit.mk.inj hsame
  have htext (e : AppliedEdit) (p : Point) (h : e.Fits filter p) :
      e.ingredient = e.ingredientIndex.bind ((p.ingredients.map (·.source))[·]?) := by
    have hedit : e.ingredient = (e.ingredientIndex.bind (p.ingredients[·]?)).map (·.source) :=
      congrArg AppliedEdit.ingredient h.edit
    rw [hedit]
    cases e.ingredientIndex <;> simp
  obtain ⟨hoperators, htexts⟩ :=
    hoffers p hp q hq he.location_eq (he'.location_eq.trans hlocation.symm)
  have hoperator : some e.operator = some e'.operator := by
    rw [← he.operator, ← he'.operator, hoperators, hnumber]
  unfold choice recorded RecordedEdit.choice
  rw [Option.some.inj hoperator, hlocation, htext e p he, htext e' q he', htexts, hingredient]

/-- Selections with the same patch make the same choices wherever the points offer the same. -/
theorem mem_choices (h : selectEdits points filter limit c = .ok (edits, c'))
    (h' : selectEdits points filter limit d = .ok (edits', d'))
    (hsame : edits.map AppliedEdit.patchEdit ⊆ edits'.map AppliedEdit.patchEdit) {l : Location}
    (hoffers : SameOffers points l) (o : Operator) (text : Option String)
    (hmem : (o, l, text) ∈ edits.map AppliedEdit.choice) :
    (o, l, text) ∈ edits'.map AppliedEdit.choice := by
  obtain ⟨e, he, hchoice⟩ := List.mem_map.mp hmem
  obtain ⟨e', he', heq⟩ := List.mem_map.mp (hsame (List.mem_map_of_mem he))
  obtain ⟨p, hp, hfits⟩ := fits_of_selectEdits h e he
  obtain ⟨q, hq, hfits'⟩ := fits_of_selectEdits h' e' he'
  have hlocation : e.location = l := congrArg (fun choice => choice.2.1) hchoice
  rw [← hchoice, hfits.choice_eq hfits' hp hq (hlocation.symm ▸ hoffers) heq.symm]
  exact List.mem_map_of_mem he'

end Choices

variable [Scalar α]

/-- Evaluates chromosomes one after the other; what each of them comes to. -/
def evaluateEach (s : Setup) (tools : Toolchain σ) :
    List Chromosome → Bench σ → List (Except Fault (Evaluation α × Chromosome)) × Bench σ
  | [], b => ([], b)
  | c :: cs, b =>
    let (answer, b) := evaluate s tools c b
    let (answers, b) := evaluateEach s tools cs b
    (answer :: answers, b)

/-- What the books make of the evaluation of a chromosome. A fault, and an end that is not adequate,
leave patches and records as they are. The patch of an adequate candidate is known, and gets no
number, or it becomes known, and its record is kept, at least in memory. -/
inductive Booked (s : Setup) (c : Chromosome) (before after : Ledger) :
    Except Fault (Evaluation α × Chromosome) → Prop
  | fault {fault : Fault} (same : after.patches = before.patches) :
      Booked s c before after (.error fault)
  | passed {x c'} (status : x.status ≠ .evaluated true) (number : x.patchId = none)
      (same : after.patches = before.patches) : Booked s c before after (.ok (x, c'))
  | dropped {x c' edits}
      (selected : selectEdits s.model.points s.config.filterRules s.config.maxEdits c =
        .ok (edits, c'))
      (status : x.status = .evaluated true) (number : x.patchId = none)
      (known : Patch.ofEdits (edits.map AppliedEdit.patchEdit) ∈ before.patches.patches)
      (same : after.patches = before.patches) : Booked s c before after (.ok (x, c'))
  | kept {x c' edits r written}
      (selected : selectEdits s.model.points s.config.filterRules s.config.maxEdits c =
        .ok (edits, c'))
      (status : x.status = .evaluated true) (number : x.patchId = some r.id)
      (new : Patch.ofEdits (edits.map AppliedEdit.patchEdit) ∉ before.patches.patches)
      (patches : after.patches.patches =
        before.patches.patches ++ [Patch.ofEdits (edits.map AppliedEdit.patchEdit)])
      (directory : after.patches.outputDir = before.patches.outputDir)
      (lists : r.Lists edits)
      (records : after.patches.records =
        before.patches.records ++ if written = true then [r] else [])
      (memory : before.patches.outputDir = none → written = true) :
      Booked s c before after (.ok (x, c'))

/-- Every evaluation does one of these to the books. -/
theorem evaluate_booked (s : Setup) (tools : Toolchain σ) (c : Chromosome) (b : Bench σ) :
    Booked s c b.ledger (evaluate (α := α) s tools c b).2.ledger
      (evaluate (α := α) s tools c b).1 := by
  cases hselected : selectEdits s.model.points s.config.filterRules s.config.maxEdits c with
  | error fault =>
    unfold evaluate
    rw [hselected]
    exact .fault rfl
  | ok selected =>
    obtain ⟨edits, c'⟩ := selected
    obtain ⟨answer, t, -, herased, hstages⟩ := evaluate_stages (α := α) tools b hselected
    rw [herased]
    cases answer with
    | error fault =>
      cases hstages with
      | broken => exact .fault rfl
    | ok x =>
      obtain ⟨haccepted, hsame⟩ := hstages.accepted
      by_cases hadequate : x.status = .evaluated true
      · obtain ⟨-, now, world, hledger, hnumber⟩ := haccepted hadequate
        cases hknown : b.begun.ledger.patches.contains
          (Patch.ofEdits (edits.map AppliedEdit.patchEdit)) with
        | true =>
          rw [Ledger.accept_known _ _ _ _ _ hknown] at hledger hnumber
          have hpatches := congrArg Ledger.patches hledger
          refine .dropped hselected hadequate hnumber ?_ hpatches
          exact List.contains_iff_mem.mp hknown
        | false =>
          rw [Ledger.accept_new _ _ _ _ _ hknown] at hledger hnumber
          have hpatches := congrArg (·.patches.patches) hledger
          have hdirectory := congrArg (·.patches.outputDir) hledger
          have hrecords := congrArg (·.patches.records) hledger
          refine .kept (r := b.begun.ledger.recordOf edits now) hselected hadequate hnumber ?_
            hpatches hdirectory ⟨rfl, rfl, rfl, rfl⟩ hrecords fun hmemory => ?_
          · intro hmem
            have hcontains : b.begun.ledger.patches.contains
                (Patch.ofEdits (edits.map AppliedEdit.patchEdit)) = true :=
              List.contains_iff_mem.mpr hmem
            rw [hknown] at hcontains
            cases hcontains
          · have hbegun : b.begun.ledger.patches.outputDir = none := hmemory
            unfold Ledger.writeNext
            rw [hbegun]
      · obtain ⟨hledger, hnumber⟩ := hsame hadequate
        have hpatches := congrArg Ledger.patches hledger
        exact .passed hadequate hnumber hpatches

/-- Evaluation `i` of a sequence accepted the patch of some edits under a number. -/
def AcceptedAt (s : Setup) (cs : List Chromosome)
    (answers : List (Except Fault (Evaluation α × Chromosome))) (i : ℕ)
    (edits : List AppliedEdit) (number : ℕ) : Prop :=
  ∃ d y d', cs[i]? = some d ∧ answers[i]? = some (.ok (y, d')) ∧
    selectEdits s.model.points s.config.filterRules s.config.maxEdits d = .ok (edits, d') ∧
    y.status = .evaluated true ∧ y.patchId = some number

section Sequences

variable {s : Setup} {tools : Toolchain σ}

theorem records_evaluateEach (s : Setup) (tools : Toolchain σ) (cs : List Chromosome)
    (b : Bench σ) :
    b.ledger.patches.records <+: (evaluateEach (α := α) s tools cs b).2.ledger.patches.records := by
  induction cs generalizing b with
  | nil => exact List.prefix_rfl
  | cons c cs ih =>
    have hbooked := evaluate_booked (α := α) s tools c b
    have hrest := ih (evaluate (α := α) s tools c b).2
    unfold evaluateEach
    generalize evaluate (α := α) s tools c b = answered at hbooked hrest ⊢
    obtain ⟨answer, b'⟩ := answered
    refine List.IsPrefix.trans ?_ hrest
    dsimp only at hbooked ⊢
    cases hbooked with
    | fault same => rw [same]
    | passed _ _ same => rw [same]
    | dropped _ _ _ _ same => rw [same]
    | kept _ _ _ _ _ _ _ records _ =>
      rw [records]
      exact List.prefix_append _ _

/-- A candidate that was dropped repeats a patch that was known at the start or that an earlier
evaluation accepted. -/
theorem known_of_dropped {cs : List Chromosome} {b : Bench σ} {j : ℕ} {c c' : Chromosome}
    {x : Evaluation α} (hc : cs[j]? = some c)
    (hj : (evaluateEach s tools cs b).1[j]? = some (.ok (x, c')))
    (hadequate : x.status = .evaluated true) (hdropped : x.patchId = none) :
    ∃ edits, selectEdits s.model.points s.config.filterRules s.config.maxEdits c =
        .ok (edits, c') ∧
      (Patch.ofEdits (edits.map AppliedEdit.patchEdit) ∈ b.ledger.patches.patches ∨
        ∃ i < j, ∃ edits' number,
          AcceptedAt s cs (evaluateEach (α := α) s tools cs b).1 i edits' number ∧
          Patch.ofEdits (edits'.map AppliedEdit.patchEdit) =
            Patch.ofEdits (edits.map AppliedEdit.patchEdit) ∧
          (b.ledger.patches.outputDir = none →
            ∃ r ∈ (evaluateEach (α := α) s tools cs b).2.ledger.patches.records,
              r.id = number ∧ r.Lists edits')) := by
  induction cs generalizing b j with
  | nil => cases hc
  | cons c₀ cs ih =>
    have hbooked := evaluate_booked (α := α) s tools c₀ b
    have hgrown := records_evaluateEach (α := α) s tools cs
      (evaluate (α := α) s tools c₀ b).2
    unfold evaluateEach at hj ⊢
    generalize evaluate (α := α) s tools c₀ b = answered at hbooked hj hgrown ⊢
    obtain ⟨answer, b'⟩ := answered
    dsimp only at hbooked hj hgrown ⊢
    cases j with
    | zero =>
      cases hc
      cases hj
      cases hbooked with
      | passed status => exact absurd hadequate status
      | dropped selected _ _ known => exact ⟨_, selected, Or.inl known⟩
      | kept _ _ number => cases hdropped.symm.trans number
    | succ j =>
      obtain ⟨edits, hselected, hknown⟩ := ih hc hj
      refine ⟨edits, hselected, ?_⟩
      have hdirectory : b'.ledger.patches.outputDir = b.ledger.patches.outputDir := by
        cases hbooked with
        | fault same => rw [same]
        | passed _ _ same => rw [same]
        | dropped _ _ _ _ same => rw [same]
        | kept _ _ _ _ _ directory => exact directory
      obtain hbefore | ⟨i, hi, edits', number, haccepted, hsame, hrecord⟩ := hknown
      · -- what is known once the first evaluation has ended was known before or is its patch
        cases hbooked with
        | fault same => exact Or.inl (same ▸ hbefore)
        | passed _ _ same => exact Or.inl (same ▸ hbefore)
        | dropped _ _ _ _ same => exact Or.inl (same ▸ hbefore)
        | @kept _ d' edits' r written selected status number new patches _ lists records memory =>
          rw [patches, List.mem_append, List.mem_singleton] at hbefore
          refine hbefore.imp_right fun hsame => ?_
          refine ⟨0, Nat.succ_pos j, edits', r.id, ⟨c₀, _, d', rfl, rfl, selected, status, number⟩,
            hsame.symm, fun hmemory => ⟨r, hgrown.subset ?_, rfl, lists⟩⟩
          rw [records, memory hmemory]
          simp
      · exact Or.inr ⟨i + 1, Nat.succ_lt_succ hi, edits', number, haccepted, hsame,
          fun hmemory => hrecord (hdirectory.trans hmemory)⟩

/-- An adequate candidate that gets no number repeats a patch that the run accepted before: one with
the same numbers of operators and ingredients at the same locations. At every location whose points
offer the same, and so at every location that is listed once, these stand for the same operators and
ingredient texts. The record of the accepted patch, which a store in memory keeps, says so. -/
theorem dropped_repeats_accepted (s : Setup) (tools : Toolchain σ) (cs : List Chromosome)
    (b : Bench σ) (hfresh : b.ledger.patches.patches = []) {j : ℕ} {c c' : Chromosome}
    {x : Evaluation α} (hc : cs[j]? = some c)
    (hj : (evaluateEach s tools cs b).1[j]? = some (.ok (x, c')))
    (hadequate : x.status = .evaluated true) (hdropped : x.patchId = none) :
    ∃ edits, selectEdits s.model.points s.config.filterRules s.config.maxEdits c =
        .ok (edits, c') ∧
      ∃ i < j, ∃ edits' number,
        AcceptedAt s cs (evaluateEach (α := α) s tools cs b).1 i edits' number ∧
        (∀ e, e ∈ edits.map AppliedEdit.patchEdit ↔ e ∈ edits'.map AppliedEdit.patchEdit) ∧
        (∀ l, SameOffers s.model.points l → ∀ o text,
          (o, l, text) ∈ edits.map AppliedEdit.choice ↔
            (o, l, text) ∈ edits'.map AppliedEdit.choice) ∧
        (b.ledger.patches.outputDir = none →
          ∃ r ∈ (evaluateEach (α := α) s tools cs b).2.ledger.patches.records, r.id = number ∧
            r.edits.map RecordedEdit.choice = edits'.map AppliedEdit.choice) := by
  obtain ⟨edits, hselected, hknown⟩ := known_of_dropped hc hj hadequate hdropped
  obtain hbefore | ⟨i, hi, edits', number, haccepted, hsame, hrecord⟩ := hknown
  · rw [hfresh] at hbefore
    cases hbefore
  · have hnumbers (e : PatchEdit) :
        e ∈ edits.map AppliedEdit.patchEdit ↔ e ∈ edits'.map AppliedEdit.patchEdit := by
      rw [← Patch.mem_edits_ofEdits, ← hsame, Patch.mem_edits_ofEdits]
    have haccepted' := haccepted
    obtain ⟨d, y, d', -, -, hselected', -⟩ := haccepted'
    refine ⟨edits, hselected, i, hi, edits', number, haccepted, hnumbers,
      fun l hoffers o text => ⟨?_, ?_⟩, fun hmemory => ?_⟩
    · exact mem_choices hselected hselected' (fun e he => (hnumbers e).mp he) hoffers o text
    · exact mem_choices hselected' hselected (fun e he => (hnumbers e).mpr he) hoffers o text
    · obtain ⟨r, hr, hid, hlists⟩ := hrecord hmemory
      refine ⟨r, hr, hid, ?_⟩
      rw [hlists.edits, List.map_map]
      rfl

end Sequences

omit [Scalar α] in
/-- An answer whose status and number were computed. -/
theorem of_answer {answers : List (Except Fault (Evaluation α × Chromosome))} {j : ℕ}
    {status : EvaluationStatus} {number : Option ℕ}
    (h : (answers[j]?.bind Except.toOption).map (fun a => (a.1.status, a.1.patchId)) =
      some (status, number)) :
    ∃ a, answers[j]? = some (.ok a) ∧ a.1.status = status ∧ a.1.patchId = number := by
  obtain ⟨a, ha, heq⟩ := Option.map_eq_some_iff.mp h
  obtain ⟨answer, hanswer, hok⟩ := Option.bind_eq_some_iff.mp ha
  obtain ⟨hstatus, hnumber⟩ := Prod.mk.inj heq
  cases answer with
  | error fault => cases hok
  | ok a' =>
    cases hok
    exact ⟨a, hanswer, hstatus, hnumber⟩

/-- Two chromosomes over the lone line that stand for the same replacement. -/
def repeatedReplacement : List Chromosome :=
  [⟨[true], [0], [1]⟩, ⟨[true], [2], [1]⟩]

/-- The second of them is dropped, as it repeats the first. -/
theorem dropped_repeats_accepted_of_replacement :
    let s := loneLineSearch.setup
    let b : Bench Bool := .start 200 0 (.start .empty 0) false
    SameOffers s.model.points ⟨"A.java", 1⟩ ∧ b.ledger.patches.patches = [] ∧
      ∃ (x : Evaluation Float) (c' : Chromosome),
        (evaluateEach s hastyTools repeatedReplacement b).1[1]? = some (.ok (x, c')) ∧
        x.status = .evaluated true ∧ x.patchId = none ∧
        ∃ edits edits' number,
          selectEdits s.model.points s.config.filterRules s.config.maxEdits ⟨[true], [2], [1]⟩ =
            .ok (edits, c') ∧
          AcceptedAt s repeatedReplacement
            (evaluateEach (α := Float) s hastyTools repeatedReplacement b).1 0 edits' number ∧
          ∀ o text, (o, ⟨"A.java", 1⟩, text) ∈ edits.map AppliedEdit.choice ↔
            (o, ⟨"A.java", 1⟩, text) ∈ edits'.map AppliedEdit.choice := by
  intro s b
  have hoffers : SameOffers s.model.points ⟨"A.java", 1⟩ := by decide
  have hanswer : ((evaluateEach (α := Float) s hastyTools repeatedReplacement b).1[1]?.bind
      Except.toOption).map (fun a => (a.1.status, a.1.patchId)) =
        some (.evaluated true, none) := by
    decide +kernel
  obtain ⟨⟨x, c'⟩, hj, hstatus, hnumber⟩ := of_answer hanswer
  obtain ⟨edits, hselected, i, hi, edits', number, haccepted, -, hchoices, -⟩ :=
    dropped_repeats_accepted s hastyTools repeatedReplacement b rfl rfl hj hstatus hnumber
  obtain rfl : i = 0 := by omega
  exact ⟨hoffers, rfl, x, c', hj, hstatus, hnumber, edits, edits', number, hselected, haccepted,
    hchoices _ hoffers⟩

/-- Two entries for one line, with different ingredients. -/
def clashCatalog : List Point :=
  [⟨⟨"A.java", 1⟩, "x++;", 1.0, [⟨0, "x--;"⟩], [.replace]⟩,
    ⟨⟨"A.java", 1⟩, "x++;", 1.0, [⟨1, "x = 0;"⟩], [.replace]⟩]

def clashSetup : Setup :=
  { oneLineSetup with model := ⟨clashCatalog.map Point.normalize⟩ }

/-- The replacement at the first entry, and that at the second. -/
def clashChromosomes : List Chromosome :=
  [⟨[true, false], [0, 0], [0, 0]⟩, ⟨[false, true], [0, 0], [0, 0]⟩]

/-- A line that is listed twice: the second replacement is dropped although its text is new. -/
theorem new_choice_dropped :
    let b : Bench Bool := .start 200 0 (.start .empty 0) false
    let run := evaluateEach (α := Float) clashSetup hastyTools clashChromosomes b
    ProgramModel.ofCatalog clashCatalog 40 (Random.ofSeed 0) =
        .ok (clashSetup.model, Random.ofSeed 0) ∧
      b.ledger.patches.patches = [] ∧
      ∃ x c' edits, run.1[1]? = some (.ok (x, c')) ∧ x.status = .evaluated true ∧
        x.patchId = none ∧
        selectEdits clashSetup.model.points clashSetup.config.filterRules
          clashSetup.config.maxEdits ⟨[false, true], [0, 0], [0, 0]⟩ = .ok (edits, c') ∧
        (.replace, ⟨"A.java", 1⟩, some "x = 0;") ∈ edits.map AppliedEdit.choice ∧
        ∀ r ∈ run.2.ledger.patches.records,
          (.replace, ⟨"A.java", 1⟩, some "x = 0;") ∉ r.edits.map RecordedEdit.choice := by
  intro b run
  have hanswer : (run.1[1]?.bind Except.toOption).map (fun a => (a.1.status, a.1.patchId)) =
      some (.evaluated true, none) := by
    decide +kernel
  obtain ⟨⟨x, c'⟩, hj, hstatus, hnumber⟩ := of_answer hanswer
  obtain ⟨edits, hselected, -⟩ := known_of_dropped rfl hj hstatus hnumber
  have hchoice : (selectEdits clashSetup.model.points clashSetup.config.filterRules
      clashSetup.config.maxEdits ⟨[false, true], [0, 0], [0, 0]⟩).toOption.map
        (fun selected => selected.1.map AppliedEdit.choice) =
      some [(.replace, ⟨"A.java", 1⟩, some "x = 0;")] := by
    decide +kernel
  rw [hselected] at hchoice
  have hchoice : edits.map AppliedEdit.choice = [(.replace, ⟨"A.java", 1⟩, some "x = 0;")] :=
    Option.some.inj hchoice
  have hrecords : ∀ r ∈ run.2.ledger.patches.records,
      (.replace, ⟨"A.java", 1⟩, some "x = 0;") ∉ r.edits.map RecordedEdit.choice := by
    decide +kernel
  refine ⟨rfl, rfl, x, c', edits, hj, hstatus, hnumber, hselected, ?_, hrecords⟩
  rw [hchoice]
  exact List.mem_singleton_self _

end PatchSearch
