import PatchSearch.Proofs.Search.Prefix
import PatchSearch.Proofs.Search.WellFormed

/-!
Runs that may be ended at any time. A run looks before every evaluation, for every report and before
every generation but the first whether it is asked to stop, so the looks that found it not asked to
tell how many candidates it has evaluated. Whenever it stops, because it has fewer generations or
because it is asked to, it has evaluated the first candidates of the run that goes on.
-/
namespace PatchSearch

variable {σ τ : Type}

/-- An answer with a counter beside the state. -/
def beside {β : Type} (n : ℕ) (x : β × σ) : β × σ × ℕ :=
  (x.1, x.2, n)

/-- The tools, with a request to stop after so many looks; the looks are counted. -/
def Toolchain.stopAfter (tools : Toolchain σ) (n : ℕ) : Toolchain (σ × ℕ) where
  patch p o i w := beside w.2 (tools.patch p o i w.1)
  compile id sources w := beside w.2 (tools.compile id sources w.1)
  runTests artifact tests limit w := beside w.2 (tools.runTests artifact tests limit w.1)
  files := tools.files.within Prod.fst fun v w => (v, w.2)
  clock w := tools.clock w.1
  cancelled w := (decide (n ≤ w.2), w.1, w.2 + 1)

/-- The search, asked to stop after so many looks. -/
def Search.stopAfter (s : Search Float σ) (n : ℕ) : Search Float (σ × ℕ) where
  config := s.config
  setup := s.setup
  tools := s.tools.stopAfter n
  notify p w := (s.notify p w.1, w.2)

/-- The engine with a count of its looks, before the first of them. -/
def Engine.counting (e : Engine Float σ) : Engine Float (σ × ℕ) :=
  { e with bench := { e.bench with world := (e.bench.world, 0) } }

/-- How often a run with a population of the given size has looked before it looks for the
evaluation with number `k`, the first one being number zero: once for the report at its start, once
for each evaluation before, and twice for each generation before, at its end and before the next
one. -/
def looksBefore (size k : ℕ) : ℕ :=
  1 + k / size * (size + 2) + k % size

theorem le_looksBefore {size k g : ℕ} (hsize : 0 < size) (h : size * g ≤ k) :
    1 + g * (size + 2) ≤ looksBefore size k := by
  have hg : g ≤ k / size := (Nat.le_div_iff_mul_le hsize).mpr (Nat.mul_comm g size ▸ h)
  have hlooks := Nat.mul_le_mul_right (size + 2) hg
  unfold looksBefore
  omega

theorem looksBefore_of_within {size k g : ℕ} (h : size * g ≤ k) (hwithin : k < size * (g + 1)) :
    looksBefore size k = 1 + g * (size + 2) + (k - size * g) := by
  have hg : k / size = g := Nat.div_eq_of_lt_le (Nat.mul_comm size g ▸ h)
    (Nat.mul_comm size (g + 1) ▸ hwithin)
  have hdivided := Nat.div_add_mod k size
  rw [hg] at hdivided
  unfold looksBefore
  rw [hg]
  omega

/-- How often the run has looked. -/
def Engine.looks (e : Engine Float (σ × ℕ)) : ℕ :=
  e.bench.world.2

namespace Search

section Looks

variable {s : Search Float σ} {n : ℕ} {e e' : Engine Float (σ × ℕ)}

theorem asked_stopAfter_iff : (s.stopAfter n).Asked e ↔ n ≤ e.looks :=
  decide_eq_true_iff

theorem insists_stopAfter (s : Search Float σ) (n : ℕ) : (s.stopAfter n).Insists where
  look w h := by
    have hle : n ≤ w.2 := of_decide_eq_true h
    exact decide_eq_true (hle.trans (Nat.le_succ _))
  notify _ _ h := h

theorem looks_look (s : Search Float σ) (n : ℕ) (e : Engine Float (σ × ℕ)) :
    ((s.stopAfter n).look e).2.looks = e.looks + 1 :=
  rfl

theorem looks_tell (h : (s.stopAfter n).tell e = .ok e') : e'.looks = e.looks + 1 := by
  obtain ⟨p, -, h⟩ := bind_eq_ok_iff.mp h
  cases h
  rfl

/-- An evaluation does not look. -/
theorem looks_evaluateCandidate {c c' : Candidate Float}
    (h : (s.stopAfter n).evaluateCandidate c e = .ok (c', e')) : e'.looks = e.looks := by
  have hkeeps : Keeps s.setup (s.tools.stopAfter n) fun b => b.world.2 = e.looks :=
    { patch := fun _ _ _ h => h
      compile := fun _ _ h => h
      runTests := fun _ _ _ h => h
      draw := fun _ h => h
      insert := fun _ h => h
      accept := fun edits now h =>
        Ledger.accept_keeps (I := fun w : σ × ℕ => w.2 = e.looks) (fun _ _ _ hw => hw) _ edits now
          h }
  obtain ⟨evaluation, chromosome, bench, hrun, -, rfl⟩ := evaluateCandidate_engine h
  have hlooks := hkeeps.evaluate (α := Float) (b := e.bench) rfl c.chromosome
  change evaluate s.setup (s.tools.stopAfter n) c.chromosome e.bench = _ at hrun
  rw [hrun] at hlooks
  exact hlooks

/-- With room in the budget as many candidates are evaluated as there are looks left. -/
theorem looks_evaluateAll {cs done : List (Candidate Float)}
    (h : (s.stopAfter n).evaluateAll cs e = .ok (done, e'))
    (hroom : e.bench.ledger.evaluations + cs.length ≤
      s.config.populationSize * s.config.maxGenerations) :
    done.length = min cs.length (n - e.looks) ∧
      (done.length = cs.length → e'.looks = e.looks + cs.length) ∧
      (done.length < cs.length → n ≤ e'.looks) := by
  induction cs generalizing e done with
  | nil =>
    cases h
    exact ⟨by simp, fun _ => rfl, nofun⟩
  | cons c cs ih =>
    rw [List.length_cons] at hroom
    obtain ⟨⟨reason, e₁⟩, hstop, h⟩ := bind_eq_ok_iff.mp h
    have hover := stopReason?_isSome_iff hstop
    obtain rfl := stopReason?_engine hstop
    cases reason with
    | some reason =>
      cases h
      have hasked : n ≤ e.looks := by
        obtain hasked | hused := hover.mp rfl
        · exact asked_stopAfter_iff.mp hasked
        · change s.config.populationSize * s.config.maxGenerations ≤ _ at hused
          omega
      have hlooks := looks_look s n e
      refine ⟨?_, nofun, fun _ => ?_⟩
      · rw [Nat.sub_eq_zero_of_le hasked, Nat.min_zero, List.length_nil]
      · omega
    | none =>
      have hleft : e.looks < n := not_le.mp fun hasked =>
        nomatch hover.mpr (Or.inl (asked_stopAfter_iff.mpr hasked))
      obtain ⟨⟨c', e₂⟩, hc, h⟩ := bind_eq_ok_iff.mp h
      obtain ⟨⟨rest, e₃⟩, hrest, h⟩ := bind_eq_ok_iff.mp h
      cases h
      have hlooks : e₂.looks = e.looks + 1 := looks_evaluateCandidate hc
      have hcount : e₂.bench.ledger.evaluations = e.bench.ledger.evaluations + 1 :=
        (evaluateCandidate_adds hc).2
      obtain ⟨hlength, hall, hfewer⟩ := ih hrest (by omega)
      simp only [List.length_cons]
      exact ⟨by omega, fun hsame => by rw [hall (by omega)]; omega, fun hless => hfewer (by omega)⟩

theorem looks_judge {parents made : List (Candidate Float)} {b : Batch Float}
    (h : (s.stopAfter n).judge parents made e = .ok (b, e'))
    (hroom : e.bench.ledger.evaluations + made.length ≤
      s.config.populationSize * s.config.maxGenerations) :
    b.evaluated.length = min made.length (n - e.looks) ∧
      (b.evaluated.length = made.length → e'.looks = e.looks + made.length + 1) ∧
      (b.evaluated.length < made.length → n ≤ e'.looks) := by
  obtain ⟨⟨evaluated, e₁⟩, hevaluated, h⟩ := bind_eq_ok_iff.mp h
  obtain ⟨e₂, hsurvive, h⟩ := bind_eq_ok_iff.mp h
  obtain ⟨e₃, hrecord, h⟩ := bind_eq_ok_iff.mp h
  obtain ⟨e₄, htell, h⟩ := bind_eq_ok_iff.mp h
  cases h
  obtain ⟨population, -, rfl⟩ := survive_engine hsurvive
  obtain ⟨history, rfl⟩ := recordHistory_engine hrecord
  have hlooks := looks_tell htell
  change e'.looks = e₁.looks + 1 at hlooks
  obtain ⟨hlength, hall, hfewer⟩ := looks_evaluateAll hevaluated hroom
  exact ⟨hlength, fun hsame => by rw [hlooks, hall hsame], fun hless => by
    rw [hlooks]
    exact (hfewer hless).trans (Nat.le_succ _)⟩

/-- The first generation looks once more than its candidates are evaluated, and for its report. -/
theorem looks_opening {b : Batch Float} (h : (s.stopAfter n).opening e = .ok (b, e'))
    (hfresh : e.bench.ledger.evaluations = 0) (hlasting : 0 < s.config.maxGenerations) :
    b.evaluated.length = min s.config.populationSize (n - (e.looks + 1)) ∧
      (b.evaluated.length = s.config.populationSize →
        e'.looks = e.looks + (s.config.populationSize + 2)) ∧
      (b.evaluated.length < s.config.populationSize → n ≤ e'.looks) := by
  have hmade : b.made.length = s.config.populationSize := (opening_adds h).1
  obtain ⟨e₁, hpopulate, hrest⟩ := bind_eq_ok_iff.mp h
  obtain ⟨e₂, htell, hjudge⟩ := bind_eq_ok_iff.mp hrest
  obtain ⟨⟨population, e₀⟩, hdrawn, hpopulate⟩ := bind_eq_ok_iff.mp hpopulate
  obtain ⟨random, nextId, rfl⟩ := randomCandidates_engine hdrawn
  cases hpopulate
  have hlooks := looks_tell htell
  change e₂.looks = e.looks + 1 at hlooks
  have hcount : e₂.bench.ledger.evaluations = 0 := by
    obtain ⟨w, rfl⟩ := tell_engine htell
    exact hfresh
  rw [(judge_adds hjudge).1] at hmade
  have hroom := Nat.le_mul_of_pos_right s.config.populationSize hlasting
  have hjudged := looks_judge hjudge (by rw [hcount, hmade]; omega)
  rw [hmade, hlooks] at hjudged
  exact ⟨hjudged.1, fun hall => by rw [hjudged.2.1 hall]; omega, hjudged.2.2⟩

/-- A later generation does so as well, but for the look before it. -/
theorem looks_turn {b : Batch Float} (h : (s.stopAfter n).turn e = .ok (b, e'))
    (hroom : e.bench.ledger.evaluations + s.config.populationSize ≤
      s.config.populationSize * s.config.maxGenerations) :
    b.evaluated.length = min s.config.populationSize (n - e.looks) ∧
      (b.evaluated.length = s.config.populationSize →
        e'.looks = e.looks + (s.config.populationSize + 1)) ∧
      (b.evaluated.length < s.config.populationSize → n ≤ e'.looks) := by
  have hmade : b.made.length = s.config.populationSize := (turn_adds h).1
  obtain ⟨⟨children, e₁⟩, hbred, hjudge⟩ := bind_eq_ok_iff.mp h
  obtain ⟨random, nextId, rfl⟩ := offspring_engine hbred
  rw [(judge_adds hjudge).1] at hmade
  have hjudged := looks_judge hjudge (hmade ▸ hroom)
  rw [hmade] at hjudged
  exact ⟨hjudged.1, fun hall => by rw [hjudged.2.1 hall]; rfl, hjudged.2.2⟩

end Looks

section Stops

variable {s : Search Float σ} {k g : ℕ} {e e' : Engine Float (σ × ℕ)}

/-- A generation with what comes after it, if the run is asked to stop at the look for the
evaluation with number `k`. -/
theorem evaluations_follow (hpositive : 0 < s.config.populationSize)
    (hg : s.config.populationSize * g ≤ k) {b : Batch Float}
    (hlength : b.evaluated.length = min s.config.populationSize
      (looksBefore s.config.populationSize k - (g * (s.config.populationSize + 2) + 1)))
    (hall : b.evaluated.length = s.config.populationSize →
      e.looks = (g + 1) * (s.config.populationSize + 2))
    (hfewer : b.evaluated.length < s.config.populationSize →
      looksBefore s.config.populationSize k ≤ e.looks)
    (hcount : e.bench.ledger.evaluations = s.config.populationSize * g + b.evaluated.length)
    {fuel : ℕ} {bs : List (Batch Float)} {reason : StopReason}
    (h : (s.stopAfter (looksBefore s.config.populationSize k)).turns fuel e = .ok (bs, reason, e'))
    (hrest : s.config.populationSize * (g + 1) ≤ k →
      e.looks = (g + 1) * (s.config.populationSize + 2) →
      e.bench.ledger.evaluations = s.config.populationSize * (g + 1) →
        e'.bench.ledger.evaluations = k) :
    e'.bench.ledger.evaluations = k := by
  by_cases hlater : s.config.populationSize * (g + 1) ≤ k
  · have hwhole : b.evaluated.length = s.config.populationSize := by
      have hlooks := le_looksBefore hpositive hlater
      rw [Nat.succ_mul] at hlooks
      omega
    exact hrest hlater (hall hwhole) (by rw [hcount, hwhole, Nat.mul_succ])
  · have hwithin := looksBefore_of_within hg (not_le.mp hlater)
    rw [Nat.mul_succ] at hlater
    have hpart : b.evaluated.length = k - s.config.populationSize * g := by omega
    have hasked := asked_stopAfter_iff (s := s).mpr (hfewer (by omega))
    obtain ⟨-, rfl⟩ := turns_of_over (Or.inl hasked) h
    change e.bench.ledger.evaluations = k
    omega

/-- The run comes to a rest after every generation, having looked twice more than it has evaluated,
until it is asked to stop. -/
theorem evaluations_turns (hpositive : 0 < s.config.populationSize)
    (hk : k ≤ s.config.populationSize * s.config.maxGenerations)
    (hg : s.config.populationSize * g ≤ k)
    (hlooks : e.looks = g * (s.config.populationSize + 2))
    (hcount : e.bench.ledger.evaluations = s.config.populationSize * g) (hsome : e.population ≠ [])
    {fuel : ℕ} {bs : List (Batch Float)} {reason : StopReason}
    (h : (s.stopAfter (looksBefore s.config.populationSize k)).turns fuel e =
      .ok (bs, reason, e')) :
    e'.bench.ledger.evaluations = k := by
  induction fuel generalizing e g bs with
  | zero => cases h
  | succ fuel ih =>
    have hleft := le_looksBefore hpositive hg
    obtain ⟨⟨found, e₁⟩, hstop, hrest⟩ := bind_eq_ok_iff.mp h
    have hover := stopReason?_isSome_iff hstop
    obtain rfl := stopReason?_engine hstop
    cases found with
    | some found =>
      cases hrest
      change e.bench.ledger.evaluations = k
      obtain hasked | hused := hover.mp rfl
      · have := asked_stopAfter_iff.mp hasked
        omega
      · exact hcount.trans (le_antisymm hg (hk.trans (hcount ▸ hused)))
    | none =>
      have hgoing := not_le.mp fun hused => nomatch hover.mpr (Or.inr hused)
      change e.bench.ledger.evaluations <
        s.config.populationSize * s.config.maxGenerations at hgoing
      rw [hcount] at hgoing
      have hroom := Nat.mul_le_mul_left s.config.populationSize
        (Nat.succ_le_of_lt (Nat.lt_of_mul_lt_mul_left hgoing))
      rw [Nat.mul_succ] at hroom
      dsimp only at hrest
      rw [if_neg (by rwa [List.isEmpty_iff])] at hrest
      obtain ⟨⟨b, e₂⟩, hturn, hrest⟩ := bind_eq_ok_iff.mp hrest
      obtain ⟨⟨bs, reason, e₃⟩, hbs, hrest⟩ := bind_eq_ok_iff.mp hrest
      cases hrest
      have hlook := looks_look s (looksBefore s.config.populationSize k) e
      obtain ⟨hlength, hall, hfewer⟩ := looks_turn hturn (hcount ▸ hroom)
      rw [hlook, hlooks] at hlength
      obtain ⟨-, hadds, hsurvivors⟩ := turn_adds hturn
      refine evaluations_follow hpositive hg hlength (fun hwhole => ?_) hfewer ?_ hbs
        fun hlater hlooks' hcount' => ih hlater hlooks' hcount' ?_ hbs
      · rw [hall hwhole, hlook, hlooks, Nat.succ_mul]
        omega
      · exact hadds.evaluations.trans (congrArg (· + _) hcount)
      · rw [hadds.population, ← List.length_pos_iff, hsurvivors]
        have hparents := List.length_pos_iff.mpr hsome
        change 0 < min s.config.populationSize (e.population.length + _)
        omega

/-- A run that is asked to stop at the look for the evaluation with number `k` evaluates as many
candidates. -/
theorem evaluations_stopAfter (hpositive : 0 < s.config.populationSize)
    (hlasting : 0 < s.config.maxGenerations)
    (hk : k ≤ s.config.populationSize * s.config.maxGenerations) {e : Engine Float σ}
    (hfresh : e.bench.ledger.evaluations = 0) {bs : List (Batch Float)} {r : SearchResult Float}
    (h : (s.stopAfter (looksBefore s.config.populationSize k)).chronicle e.counting =
      .ok (bs, r, e')) : r.stats.totalEvaluations = k := by
  rw [(chronicle_adds h).2.1]
  obtain ⟨budget, -, hrest⟩ := bind_eq_ok_iff.mp h
  obtain ⟨⟨b, e₁⟩, hopening, hrest⟩ := bind_eq_ok_iff.mp hrest
  obtain ⟨⟨bs, reason, e₂⟩, hturns, hrest⟩ := bind_eq_ok_iff.mp hrest
  cases hrest
  obtain ⟨hlength, hall, hfewer⟩ := looks_opening hopening hfresh hlasting
  obtain ⟨-, hadds, hsurvivors⟩ := opening_adds hopening
  have hcount : e₁.bench.ledger.evaluations = b.evaluated.length := by
    rw [hadds.evaluations]
    exact (congrArg (· + _) hfresh).trans (Nat.zero_add _)
  have hstart : e.counting.looks = 0 := rfl
  rw [hstart] at hlength hall
  refine evaluations_follow hpositive (Nat.zero_le k) (by rwa [Nat.zero_mul])
    (fun hwhole => ?_) hfewer ?_ hturns fun hlater hlooks' hcount' =>
      evaluations_turns hpositive hk hlater hlooks' hcount' ?_ hturns
  · rw [hall hwhole]
    omega
  · rw [hcount, Nat.mul_zero, Nat.zero_add]
  · rw [hadds.population, ← List.length_pos_iff, hsurvivors]
    rw [hcount] at hcount'
    change 0 < min s.config.populationSize _
    omega

end Stops

end Search

section Runs

/-- A run has evaluated the first candidates of another one, to the same end, and has found the
first of its patches, whenever that was. -/
structure Begins (as : List (Batch Float)) (r : SearchResult Float) (bs : List (Batch Float))
    (r' : SearchResult Float) : Prop where
  counted : (trials as).length = r.stats.totalEvaluations
  trials : PatchSearch.trials as = (PatchSearch.trials bs).take r.stats.totalEvaluations
  patches : r.patches.map PatchRecord.untimed <+: r'.patches.map PatchRecord.untimed

/-- What answers as the same operation does answers alike. -/
theorem Alike.fork {β : Type} {x : β × τ} {y y' : β × σ} (h : Alike (fun _ _ => True) x y)
    (h' : Alike (fun _ _ => True) x y') : Alike (fun _ _ => True) y y' := by
  obtain ⟨answer, w, v, rfl, rfl, -⟩ := h
  obtain ⟨_, _, v', heq, rfl, -⟩ := h'
  cases heq
  exact Alike.intro answer trivial

/-- Tools that other ones mirror whatever their states are go by what they are asked. -/
theorem Toolchain.Mirrors.own {tools' : Toolchain τ} {tools : Toolchain σ}
    (h : tools'.Mirrors tools fun _ _ => True) (w : τ) :
    tools.Mirrors tools fun _ _ => True where
  patch p o i _ := (h.patch p o i (w := w) trivial).fork (h.patch p o i trivial)
  compile id sources _ :=
    (h.compile id sources (w := w) trivial).fork (h.compile id sources trivial)
  runTests artifact tests limit _ :=
    (h.runTests artifact tests limit (w := w) trivial).fork
      (h.runTests artifact tests limit trivial)
  write dir _ _ hr _ := (h.write dir rfl (w := w) trivial).fork (h.write dir hr trivial)

theorem Alike.beside {β : Type} {x : β × τ} {y : β × σ} (h : Alike (fun _ _ => True) x y)
    (n : ℕ) : Alike (fun _ _ => True) (beside n x) y := by
  obtain ⟨answer, w, v, rfl, rfl, -⟩ := h
  exact Alike.intro answer trivial

/-- A request to stop does not change what else the tools answer. -/
theorem Toolchain.Mirrors.stopAfter {tools : Toolchain σ}
    (h : tools.Mirrors tools fun _ _ => True) (n : ℕ) :
    (tools.stopAfter n).Mirrors tools fun _ _ => True where
  patch p o i _ := (h.patch p o i trivial).beside _
  compile id sources _ := (h.compile id sources trivial).beside _
  runTests artifact tests limit _ := (h.runTests artifact tests limit trivial).beside _
  write dir _ _ hr _ := (h.write dir hr trivial).beside _

theorem Toolchain.Mirrors.steady {tools' : Toolchain τ} {tools : Toolchain σ}
    (h : tools'.Mirrors tools fun _ _ => True) (hsteady : tools.Steady) (v : σ) :
    tools'.Steady := by
  intro p o i w
  obtain ⟨answer, w', v', hx, hy, -⟩ := h.patch p o i (w := w) (v := v) trivial
  have hv := hsteady p o i v
  rw [hy] at hv
  rw [hx]
  exact hv

/-- Searches with one setup and with tools that go by what they are asked. -/
theorem Search.leads_of_mirrors (long : Search Float σ) (short : Search Float τ)
    (hconfig : long.config = { short.config with maxGenerations := long.config.maxGenerations })
    (hsetup : long.setup = short.setup)
    (htools : short.tools.Mirrors long.tools fun _ _ => True) (hinsists : short.Insists)
    (hnever : ∀ w, (long.tools.cancelled w).1 = false)
    (hlonger : short.config.maxGenerations ≤ long.config.maxGenerations)
    (hroom : long.config.populationSize * long.config.maxGenerations < wordCount) :
    long.Leads short (Bench.Like (fun x y => x = y) fun _ _ => True) where
  config := hconfig
  setup := by rw [hsetup]
  ledger hb := hb.ledger
  evaluate c hb := by
    rw [hsetup]
    exact htools.evaluate (short.setup.scoresAlike_refl _) hb c
  insists := hinsists
  never := hnever
  longer := hlonger
  room := hroom
  worlds _ _ hb := { hb with world := trivial }

/-- A run that leads has been begun by the shorter one. -/
theorem Search.Leads.begins {long : Search Float σ} {short : Search Float τ} {bench : Bench σ}
    {seed : UInt64} (h : long.Leads short (Bench.Like (fun x y => x = y) fun _ _ => True))
    (hpositive : 0 < short.config.populationSize) (hlasting : 0 < short.config.maxGenerations)
    (hfresh : bench.ledger.evaluations = 0) {world : τ} {as bs : List (Batch Float)}
    {r r' : SearchResult Float} {t : Engine Float τ} {t' : Engine Float σ}
    (hshort : short.chronicle (Search.engine { bench with world } seed) = .ok (as, r, t))
    (hlong : long.chronicle (Search.engine bench seed) = .ok (bs, r', t')) :
    Begins as r bs r' ∧ (¬ short.Asked t → as <+: bs ∧ r.history.Prefix r'.history ∧
      r.stats.totalEvaluations = short.config.populationSize * short.config.maxGenerations) := by
  have hstart : Engine.Agree (Bench.Like (fun x y => x = y) fun _ _ => True)
      (Search.engine { bench with world } seed) (Search.engine (α := Float) bench seed) :=
    ⟨bench, rfl, rfl, rfl, trivial⟩
  obtain ⟨hbatches, hrecords, hwhole⟩ :=
    h.chronicle hpositive hlasting hstart hfresh hshort hlong
  obtain ⟨hcount, htotal, hpatches, hhistory⟩ := Search.chronicle_adds hshort
  obtain ⟨-, -, hpatches', hhistory'⟩ := Search.chronicle_adds hlong
  have hcounted : (trials as).length = r.stats.totalEvaluations := by
    rw [htotal, hcount]
    exact ((congrArg (· + _) hfresh).trans (Nat.zero_add _)).symm
  refine ⟨⟨hcounted, ?_, ?_⟩, ?_⟩
  · rw [← hcounted]
    exact List.prefix_iff_eq_take.mp hbatches.trials
  · rw [hpatches, hpatches']
    exact hrecords
  · rw [hhistory, hhistory', htotal]
    exact hwhole

end Runs

end PatchSearch
