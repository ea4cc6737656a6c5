import PatchSearch.Proofs.Evaluation.Reachable
import PatchSearch.Proofs.Evaluation.Steady
import PatchSearch.Proofs.Search.Selection
import PatchSearch.Proofs.Search.Simulation

/-!
The steps of a run with a log, under a configuration that was found valid. None of them comes to a
fault: populations, children and survivors are made in the number that is asked for, and all of
them are fit. A tally says what the histories of a run keep to, and each step leaves it in order.
Once the run has been seen to be asked to stop, it is so at every later look.
-/
namespace PatchSearch

variable {σ : Type}

/-- How many reports a log has. -/
def reports {α : Type} (events : List (Event α)) : Nat :=
  events.countP fun
    | .told _ => true
    | _ => false

/-- A request to stop that was seen is not taken back when the run looks again or when it tells
its progress. -/
structure Search.Insists (s : Search Float σ) : Prop where
  look : ∀ w, (s.tools.cancelled w).1 = true →
    (s.tools.cancelled (s.tools.cancelled w).2).1 = true
  notify : ∀ p w, (s.tools.cancelled w).1 = true → (s.tools.cancelled (s.notify p w)).1 = true

/-- What a run needs of its search: sizes within bounds, rates that coins can be thrown with, a
patcher that never breaks down, and a request to stop that is not taken back. -/
structure Search.Ready (s : Search Float σ) : Prop where
  large : 2 ≤ s.config.populationSize
  small : s.config.populationSize ≤ 65536
  lasting : 1 ≤ s.config.maxGenerations
  budget : s.config.populationSize * s.config.maxGenerations < wordCount
  objectives : 1 ≤ s.setup.objectives ∧ s.setup.objectives ≤ 3
  activation : ∀ b ∈ s.bounds,
    Random.IsProbability (s.config.initialization.activation s.config.mu b)
  crossover : s.config.crossoverProbability.isNaN = false
  mutation : s.mutationRate.isNaN = false
  steady : s.tools.Steady
  insists : s.Insists

/-- Candidates for the model of a search, with as many objectives as it asks for. -/
def Search.Fit (s : Search Float σ) (cs : List (Candidate Float)) : Prop :=
  ∀ c ∈ cs, c.Fit s.bounds.length s.setup.objectives

/-- The next look finds the run asked to stop, and an earlier one did. -/
def Search.Stopped (s : Search Float σ) (w : Traced Float σ) : Prop :=
  (s.tools.cancelled w.world).1 = true ∧ .looked true ∈ w.events

section Tallies

/-- The histories of a run have so many entries each, the best fitness never rises and the number
of patches never falls, up to the present values. -/
structure Tally (h : SearchHistory Float) (best : Float) (patches entries : Nat) : Prop where
  bestFitness : h.bestFitness.length = entries
  frontSize : h.frontSize.length = entries
  meanEdits : h.meanEdits.length = entries
  diversity : h.diversity.length = entries
  patchesFound : h.patchesFound.length = entries
  number : best.isNaN = false
  falling : (h.bestFitness ++ [best]).Pairwise fun a b => b ≤ a
  growing : (h.patchesFound ++ [patches]).Pairwise (· ≤ ·)

variable {h : SearchHistory Float} {best : Float} {patches entries : Nat}

/-- The best fitness may fall and patches may be found. -/
theorem Tally.advance (ht : Tally h best patches entries) {best' : Float} {patches' : Nat}
    (hnumber : best'.isNaN = false) (hbest : best' ≤ best) (hpatches : patches ≤ patches') :
    Tally h best' patches' entries := by
  obtain ⟨hb, hf, hm, hd, hp, -, hfalling, hgrowing⟩ := ht
  rw [List.pairwise_append] at hfalling hgrowing
  refine ⟨hb, hf, hm, hd, hp, hnumber, ?_, ?_⟩
  · refine List.pairwise_append.mpr ⟨hfalling.1, List.pairwise_singleton _ _, ?_⟩
    intro a ha b hmem
    obtain rfl := List.mem_singleton.mp hmem
    exact FloatOrder.le_trans hbest (hfalling.2.2 a ha best (List.mem_singleton_self _))
  · refine List.pairwise_append.mpr ⟨hgrowing.1, List.pairwise_singleton _ _, ?_⟩
    intro a ha b hmem
    obtain rfl := List.mem_singleton.mp hmem
    exact (hgrowing.2.2 a ha patches (List.mem_singleton_self _)).trans hpatches

/-- Writing the present values into the histories. -/
theorem Tally.record (ht : Tally h best patches entries) (size : Nat) (mean spread : Float) :
    Tally {
      bestFitness := h.bestFitness ++ [best]
      frontSize := h.frontSize ++ [size]
      meanEdits := h.meanEdits ++ [mean]
      diversity := h.diversity ++ [spread]
      patchesFound := h.patchesFound ++ [patches] } best patches (entries + 1) := by
  obtain ⟨hb, hf, hm, hd, hp, hnumber, hfalling, hgrowing⟩ := ht
  refine ⟨by simp [hb], by simp [hf], by simp [hm], by simp [hd], by simp [hp], hnumber, ?_, ?_⟩
  · refine List.pairwise_append.mpr ⟨hfalling, List.pairwise_singleton _ _, ?_⟩
    intro a ha b hmem
    obtain rfl := List.mem_singleton.mp hmem
    rcases List.mem_append.mp ha with ha | ha
    · exact (List.pairwise_append.mp hfalling).2.2 a ha b (List.mem_singleton_self _)
    · obtain rfl := List.mem_singleton.mp ha
      exact FloatOrder.self_le a hnumber
  · refine List.pairwise_append.mpr ⟨hgrowing, List.pairwise_singleton _ _, ?_⟩
    intro a ha b hmem
    obtain rfl := List.mem_singleton.mp hmem
    rcases List.mem_append.mp ha with ha | ha
    · exact (List.pairwise_append.mp hgrowing).2.2 a ha b (List.mem_singleton_self _)
    · obtain rfl := List.mem_singleton.mp ha
      exact Nat.le_refl a

/-- The histories of an engine are in order with so many entries, and so many reports were made. -/
def Engine.Tallied (e : Engine Float (Traced Float σ)) (entries told : Nat) : Prop :=
  Tally e.history e.bestFitness e.bench.ledger.patches.length entries ∧
    reports e.bench.world.events = told

end Tallies

/-- An evaluation counts once, loses no patch and makes no report. -/
theorem keeps_counts {α : Type} (s : Setup) (tools : Toolchain σ) (evaluations patches told : Nat) :
    Keeps s (tools.traced : Toolchain (Traced α σ)) fun b =>
      b.ledger.evaluations = evaluations ∧ patches ≤ b.ledger.patches.length ∧
        reports b.world.events = told where
  patch _ _ _ h := h
  compile _ _ h := h
  runTests _ _ _ h := h
  draw _ h := h
  insert _ h := h
  accept edits now h := by
    obtain ⟨hevaluations, hpatches, htold⟩ := h
    obtain ⟨hsame, hmore⟩ := Ledger.accept_counts _ tools.traced.files edits now _
    refine ⟨hsame.trans hevaluations, hpatches.trans hmore, ?_⟩
    exact Ledger.accept_keeps (I := fun w : Traced α σ => reports w.events = told) (fun _ _ _ hw => hw) _
      edits now htold

namespace Search.Ready

variable {s : Search Float σ} {e : Engine Float (Traced Float σ)}

section Breeding

theorem fit_newCandidate (h : s.Ready) {c : Chromosome} (hc : c.Shaped s.bounds.length)
    (parents : List Nat) :
    (s.traced.newCandidate e c parents).1.Fit s.bounds.length s.setup.objectives :=
  ⟨hc, Nat.min_eq_left h.objectives.2⟩

theorem yields_randomCandidates (h : s.Ready) (m : Nat) :
    Yields (s.traced.randomCandidates m e) fun r => r.1.length = m ∧ s.Fit r.1 ∧
      ∃ random nextId, r.2 = { e with random, nextId } := by
  induction m generalizing e with
  | zero => exact Yields.ok ⟨rfl, by simp [Search.Fit], e.random, e.nextId, rfl⟩
  | succ m ih =>
    unfold randomCandidates
    refine Yields.bind (Chromosome.yields_random _ _ _ _ h.activation) fun drawn hdrawn => ?_
    refine Yields.bind ih fun r hr => Yields.pure ?_
    obtain ⟨hlength, hfit, random, nextId, hrest⟩ := hr
    refine ⟨by simp [hlength], ?_, random, nextId, hrest⟩
    intro c hc
    rcases List.mem_cons.mp hc with rfl | hc
    · exact h.fit_newCandidate hdrawn []
    · exact hfit c hc

/-- The first population is full and fit. -/
theorem yields_populate (h : s.Ready) :
    Yields (s.traced.populate e) fun e' => ∃ population random nextId,
      e' = { e with population, generation := 0, random, nextId } ∧
      population.length = s.config.populationSize ∧ s.Fit population := by
  unfold populate
  refine Yields.bind (h.yields_randomCandidates _) fun r hr => Yields.pure ?_
  obtain ⟨hlength, hfit, random, nextId, hrest⟩ := hr
  exact ⟨r.1, random, nextId, by rw [hrest], hlength, hfit⟩

/-- Two children of a fit population that is not empty have its shape. -/
theorem yields_mate (h : s.Ready) (hfit : s.Fit e.population) (hne : e.population ≠ []) :
    Yields (s.traced.mate e) fun r => r.1.1.Shaped s.bounds.length ∧
      r.1.2.Shaped s.bounds.length ∧ ∃ random, r.2.2 = { e with random } := by
  unfold mate
  refine Yields.bind (yields_tournament hne _) fun i hi => ?_
  refine Yields.bind (yields_tournament hne _) fun j hj => ?_
  refine Yields.bind (yields_itemAt hi) fun p hp => ?_
  refine Yields.bind (yields_itemAt hj) fun q hq => ?_
  refine Yields.bind
    (Random.yields_chance _ _ (isProbability_clampUnit _ h.crossover)) fun crossed _ => ?_
  have hshaped (pair : (Chromosome × Chromosome) × Random)
      (hpair : pair.1.1.Shaped s.bounds.length ∧ pair.1.2.Shaped s.bounds.length) :
      Yields (do
        let a ← pair.1.1.mutate s.bounds s.mutationRate pair.2
        let b ← pair.1.2.mutate s.bounds s.mutationRate a.2
        return ((a.1, b.1), [p.id, q.id], { e with random := b.2 })) fun r =>
          r.1.1.Shaped s.bounds.length ∧ r.1.2.Shaped s.bounds.length ∧
          ∃ random, r.2.2 = { e with random } := by
    refine Yields.bind (Chromosome.yields_mutate hpair.1 _ h.mutation _) fun a ha => ?_
    refine Yields.bind (Chromosome.yields_mutate hpair.2 _ h.mutation _) fun b hb => ?_
    exact Yields.pure ⟨ha, hb, b.2, rfl⟩
  dsimp only
  split
  · refine Yields.bind (Chromosome.yields_crossover (hfit p hp.1).shaped (hfit q hq.1).shaped _)
      fun pair hpair => ?_
    exact hshaped pair hpair
  · exact hshaped ((p.chromosome, q.chromosome), _) ⟨(hfit p hp.1).shaped, (hfit q hq.1).shaped⟩

/-- Children are made in pairs, in the number that is asked for, and are fit. -/
theorem yields_offspring (h : s.Ready) (hfit : s.Fit e.population) (hne : e.population ≠ [])
    (m : Nat) :
    Yields (s.traced.offspring m e) fun r => r.1.length = m ∧ s.Fit r.1 ∧
      ∃ random nextId, r.2 = { e with random, nextId } := by
  induction m using Nat.strongRecOn generalizing e with
  | ind m ih =>
    match m with
    | 0 => exact Yields.ok ⟨rfl, by simp [Search.Fit], e.random, e.nextId, rfl⟩
    | 1 =>
      unfold offspring
      refine Yields.bind (h.yields_mate hfit hne) ?_
      rintro ⟨⟨a, b⟩, parents, e'⟩ ⟨ha, -, random, rfl⟩
      refine Yields.pure ⟨rfl, ?_, random, e.nextId + 1, rfl⟩
      intro c hc
      obtain rfl := List.mem_singleton.mp hc
      exact h.fit_newCandidate ha parents
    | m + 2 =>
      unfold offspring
      refine Yields.bind (h.yields_mate hfit hne) ?_
      rintro ⟨⟨a, b⟩, parents, e'⟩ ⟨ha, hb, random, rfl⟩
      have hrest := ih m (by omega)
        (e := { e with random, nextId := e.nextId + 1 + 1 }) hfit hne
      refine Yields.bind hrest fun r hr => Yields.pure ?_
      obtain ⟨hlength, hrestfit, random', nextId, hr⟩ := hr
      refine ⟨by simp [hlength], ?_, random', nextId, hr⟩
      intro c hc
      rcases List.mem_cons.mp hc with rfl | hc
      · exact h.fit_newCandidate ha parents
      · rcases List.mem_cons.mp hc with rfl | hc
        · exact h.fit_newCandidate hb parents
        · exact hrestfit c hc

/-- As many survive as there is room for. -/
theorem yields_survive {pool : List (Candidate Float)} (hpool : s.Fit pool) :
    Yields (s.traced.survive pool e) fun e' => ∃ population, e' = { e with population } ∧
      population.length = min s.config.populationSize pool.length ∧ s.Fit population := by
  unfold survive
  refine Yields.bind (yields_survivors hpool _) fun population hpopulation => ?_
  exact Yields.pure ⟨population, rfl, hpopulation.1, hpopulation.2⟩

end Breeding

section Reports

omit e in
theorem reports_looked (stopped : Bool) (events : List (Event Float)) :
    reports (.looked stopped :: events) = reports events :=
  List.countP_cons_of_neg (by simp)

/-- A look finds the run stopped if it was before, and leaves it so. -/
theorem look_eq (h : s.Ready) :
    ∃ stopped w, s.traced.look e = (stopped, { e with bench := { e.bench with world := w } }) ∧
      reports w.events = reports e.bench.world.events ∧
      (s.Stopped e.bench.world → stopped = true) ∧ (stopped = true → s.Stopped w) := by
  refine ⟨_, _, rfl, reports_looked _ _, fun hstop => hstop.1, fun hstopped => ?_⟩
  refine ⟨h.insists.look _ hstopped, ?_⟩
  change Event.looked true ∈ .looked (s.tools.cancelled e.bench.world.world).1 :: _
  rw [show (s.tools.cancelled e.bench.world.world).1 = true from hstopped]
  exact List.mem_cons_self

theorem yields_maxEvaluations (h : s.Ready) :
    Yields s.traced.config.maxEvaluations fun budget =>
      budget = s.config.populationSize * s.config.maxGenerations :=
  yields_fitting h.budget

/-- Whether the run has to stop. A run that is found asked to stop is stopped; else it goes on as
long as its budget is not used up, and then it was not asked to stop before. -/
theorem yields_stopReason? (h : s.Ready) :
    Yields (s.traced.stopReason? e) fun r => ∃ w,
      r.2 = { e with bench := { e.bench with world := w } } ∧
      reports w.events = reports e.bench.world.events ∧
      (r.1 = some .cancelled ∧ s.Stopped w ∨ ¬ s.Stopped e.bench.world ∧
        (r.1 = some .maxEvaluations ∧
            s.config.populationSize * s.config.maxGenerations ≤ e.bench.ledger.evaluations ∨
          r.1 = none ∧
            e.bench.ledger.evaluations < s.config.populationSize * s.config.maxGenerations)) := by
  obtain ⟨stopped, w, hlook, hreports, hbefore, hafter⟩ := h.look_eq (e := e)
  unfold stopReason?
  rw [hlook]
  dsimp only
  cases stopped with
  | true =>
    rw [if_pos rfl]
    exact Yields.pure ⟨w, rfl, hreports, Or.inl ⟨rfl, hafter rfl⟩⟩
  | false =>
    have hnot : ¬ s.Stopped e.bench.world := fun hstop => nomatch hbefore hstop
    rw [if_neg Bool.false_ne_true]
    refine Yields.bind h.yields_maxEvaluations fun budget hbudget => ?_
    subst hbudget
    refine Yields.pure ⟨w, rfl, hreports, Or.inr ⟨hnot, ?_⟩⟩
    by_cases hused :
        s.config.populationSize * s.config.maxGenerations ≤ e.bench.ledger.evaluations
    · exact Or.inl ⟨if_pos hused, hused⟩
    · exact Or.inr ⟨if_neg hused, Nat.lt_of_not_le hused⟩

/-- Telling the progress makes one report, and leaves a stopped run stopped. -/
theorem yields_tell (h : s.Ready) :
    Yields (s.traced.tell e) fun e' => ∃ w,
      e' = { e with bench := { e.bench with world := w } } ∧
      reports w.events = reports e.bench.world.events + 1 ∧
      (s.Stopped e.bench.world → s.Stopped w) := by
  obtain ⟨stopped, w, hlook, hreports, hbefore, hafter⟩ := h.look_eq (e := e)
  unfold tell
  rw [hlook]
  dsimp only
  refine Yields.bind (h.yields_maxEvaluations.bind fun budget _ => Yields.pure trivial)
    (P := fun _ => True) fun p _ => ?_
  refine Yields.pure ⟨_, rfl, ?_, fun hstop => ?_⟩
  · change reports (.told p :: w.events) = _
    rw [← hreports]
    exact List.countP_cons_of_pos rfl
  · obtain ⟨hasked, hlooked⟩ := hafter (hbefore hstop)
    exact ⟨h.insists.notify p w.world hasked, List.mem_cons_of_mem _ hlooked⟩

/-- The present values of a fit population can be written into the histories. -/
theorem yields_recordHistory {entries told : Nat} (hfit : s.Fit e.population)
    (hlength : e.population.length ≤ 65536) (he : e.Tallied entries told) :
    Yields (recordHistory e) fun e' => ∃ history, e' = { e with history } ∧
      e'.Tallied (entries + 1) told := by
  unfold recordHistory
  refine Yields.bind (yields_diversity hfit hlength) fun spread _ => Yields.pure ?_
  exact ⟨_, rfl, he.1.record _ _ _, he.2⟩

end Reports

section Evaluating

/-- The evaluation of a fit candidate counts once and leaves it fit. -/
theorem yields_evaluateCandidate (h : s.Ready) {c : Candidate Float}
    (hc : c.Fit s.bounds.length s.setup.objectives) {entries told : Nat}
    (he : e.Tallied entries told) :
    Yields (s.traced.evaluateCandidate c e) fun r =>
      r.1.Fit s.bounds.length s.setup.objectives ∧
      ∃ bestFitness bench, r.2 = { e with bestFitness, bench } ∧ r.2.Tallied entries told ∧
        bench.ledger.evaluations = e.bench.ledger.evaluations + 1 := by
  obtain ⟨⟨evaluation, c'⟩, hevaluation, hsize, hshaped⟩ :=
    yields_evaluate (α := Float) h.objectives h.steady.traced hc.shaped e.bench
  obtain ⟨hcount, hpatches, hreports⟩ :=
    (keeps_counts s.setup s.tools (e.bench.ledger.evaluations + 1)
      e.bench.ledger.patches.length told).evaluate (α := Float) (b := e.bench)
      ⟨rfl, Nat.le_refl _, he.2⟩ c.chromosome
  unfold evaluateCandidate
  dsimp only
  have hsetup : s.traced.setup = s.setup := rfl
  have htools : s.traced.tools = s.tools.traced := rfl
  rw [hsetup, htools, hevaluation]
  refine Yields.pure ⟨⟨hshaped, hsize⟩, _, _, rfl, ⟨?_, hreports⟩, hcount⟩
  dsimp only
  cases evaluation.fitness with
  | some f =>
    obtain ⟨hnumber, hle⟩ := FloatOrder.lesser_le e.bestFitness f he.1.number
    exact he.1.advance hnumber hle hpatches
  | none => exact he.1.advance he.1.number (FloatOrder.self_le _ he.1.number) hpatches

/-- Candidates are evaluated in order until all of them are, the budget is used up, or the run is
found asked to stop. -/
theorem yields_evaluateAll (h : s.Ready) {cs : List (Candidate Float)} (hcs : s.Fit cs)
    {entries told : Nat} (he : e.Tallied entries told)
    (hbudget : e.bench.ledger.evaluations ≤
      s.config.populationSize * s.config.maxGenerations) :
    Yields (s.traced.evaluateAll cs e) fun r => s.Fit r.1 ∧ r.1.length ≤ cs.length ∧
      ∃ bestFitness bench, r.2 = { e with bestFitness, bench } ∧ r.2.Tallied entries told ∧
        bench.ledger.evaluations = e.bench.ledger.evaluations + r.1.length ∧
        bench.ledger.evaluations ≤ s.config.populationSize * s.config.maxGenerations ∧
        (r.1.length = cs.length ∨
          bench.ledger.evaluations = s.config.populationSize * s.config.maxGenerations ∨
          s.Stopped bench.world) := by
  induction cs generalizing e with
  | nil =>
    exact Yields.ok ⟨hcs, Nat.le_refl _, e.bestFitness, e.bench, rfl, he, rfl, hbudget,
      Or.inl rfl⟩
  | cons c cs ih =>
    have hrest : s.Fit cs := fun d hd => hcs d (List.mem_cons_of_mem _ hd)
    unfold evaluateAll
    refine Yields.bind h.yields_stopReason? ?_
    rintro ⟨reason, e₁⟩ ⟨w, rfl, hreports, hreason⟩
    have he₁ : Engine.Tallied { e with bench := { e.bench with world := w } } entries told :=
      ⟨he.1, hreports.trans he.2⟩
    dsimp only at hreason ⊢
    obtain ⟨rfl, hstopped⟩ | ⟨-, ⟨rfl, hused⟩ | ⟨rfl, hleft⟩⟩ := hreason
    · exact Yields.pure ⟨by simp [Search.Fit], by simp, _, _, rfl, he₁, rfl, hbudget,
        Or.inr (Or.inr hstopped)⟩
    · exact Yields.pure ⟨by simp [Search.Fit], by simp, _, _, rfl, he₁, rfl, hbudget,
        Or.inr (Or.inl (Nat.le_antisymm hbudget hused))⟩
    · refine Yields.bind (h.yields_evaluateCandidate (hcs c (by simp)) he₁) ?_
      rintro ⟨d, e₂⟩ ⟨hd, best, bench, rfl, he₂, hcount⟩
      dsimp only at hd hcount ⊢
      refine Yields.bind (ih hrest he₂ (by dsimp only; omega)) ?_
      rintro ⟨ds, e₃⟩ ⟨hds, hlength, best', bench', rfl, he₃, hcount', hbudget', hend⟩
      refine Yields.pure ⟨?_, by simpa using hlength, best', bench', rfl, he₃, ?_, hbudget', ?_⟩
      · intro x hx
        rcases List.mem_cons.mp hx with rfl | hx
        · exact hd
        · exact hds x hx
      · dsimp only at hcount' ⊢
        rw [List.length_cons]
        omega
      · simpa using hend

end Evaluating

end Search.Ready

end PatchSearch
