import PatchSearch.Proofs.Search.Budget
import PatchSearch.Proofs.Search.Growth
import PatchSearch.Proofs.Search.Simulation

/-!
Runs that end earlier. A run with fewer generations, or one that is asked to stop, goes the way of
the run that goes on: it draws, numbers and evaluates the same candidates until it stops, perhaps
within a generation, and from then on adds nothing. A run that is never asked stops between two
generations, so its populations and its histories begin those of the longer run as well.
-/
namespace PatchSearch

variable {α σ τ : Type}

/-- The generations of a run that ended earlier: the last of them may have been left off. -/
inductive CutShort : List (Batch α) → List (Batch α) → Prop
  | done (bs : List (Batch α)) : CutShort [] bs
  | cut {b b' : Batch α} (made : b.made = b'.made) (evaluated : b.evaluated <+: b'.evaluated)
      (bs : List (Batch α)) : CutShort [b] (b' :: bs)
  | cons (b : Batch α) {as bs : List (Batch α)} (h : CutShort as bs) :
      CutShort (b :: as) (b :: bs)

theorem zip_prefix {β : Type} (made : List β) {xs ys : List α} (h : xs <+: ys) :
    made.zip xs <+: made.zip ys := by
  induction made generalizing xs ys with
  | nil => exact List.prefix_rfl
  | cons m made ih =>
    obtain _ | ⟨x, xs⟩ := xs
    · exact List.nil_prefix
    · obtain ⟨rest, rfl⟩ := h
      exact List.cons_prefix_cons.mpr ⟨rfl, ih (List.prefix_append xs rest)⟩

/-- Generations that were left off have evaluated the first of the candidates. -/
theorem CutShort.trials {as bs : List (Batch α)} (h : CutShort as bs) :
    PatchSearch.trials as <+: PatchSearch.trials bs := by
  induction h with
  | done bs => exact List.nil_prefix
  | @cut b b' made evaluated bs =>
    have hzip : b.trials <+: b'.trials := by
      unfold Batch.trials
      rw [made]
      exact zip_prefix b'.made evaluated
    simp only [PatchSearch.trials, List.flatMap_cons, List.flatMap_nil, List.append_nil]
    exact hzip.trans (List.prefix_append _ _)
  | cons b h ih =>
    simp only [PatchSearch.trials, List.flatMap_cons] at ih ⊢
    exact (List.prefix_append_right_inj _).mpr ih

namespace Search

/-- The next look finds the run asked to stop. -/
def Asked (s : Search Float σ) (e : Engine Float σ) : Prop :=
  (s.tools.cancelled e.bench.world).1 = true

/-- The run has to stop at the next look. -/
def Over (s : Search Float σ) (e : Engine Float σ) : Prop :=
  s.Asked e ∨ s.config.populationSize * s.config.maxGenerations ≤ e.bench.ledger.evaluations

section Ends

variable {s : Search Float σ} {e e' : Engine Float σ}

/-- A run has to stop at a look if it is over. -/
theorem stopReason?_isSome_iff {reason : Option StopReason}
    (h : s.stopReason? e = .ok (reason, e')) : reason.isSome = true ↔ s.Over e := by
  unfold stopReason? look at h
  dsimp only at h
  unfold Over Asked
  split at h
  · next hasked =>
    cases h
    exact ⟨fun _ => Or.inl hasked, fun _ => rfl⟩
  · next hgoing =>
    obtain ⟨budget, hbudget, h⟩ := bind_eq_ok_iff.mp h
    cases h
    rw [(SearchConfig.maxEvaluations_eq_ok hbudget).1]
    split
    · next hused => exact ⟨fun _ => Or.inr hused, fun _ => rfl⟩
    · next hleft => exact ⟨nofun, fun hover => (hover.elim hgoing hleft).elim⟩

theorem over_look (hs : s.Insists) (h : s.Over e) : s.Over (s.look e).2 :=
  h.imp_left (hs.look _)

theorem asked_tell (hs : s.Insists) (h : s.Asked e) (he : s.tell e = .ok e') : s.Asked e' := by
  obtain ⟨p, -, he⟩ := bind_eq_ok_iff.mp he
  cases he
  exact hs.notify p _ (hs.look _ h)

/-- A run that is over makes no more generations. -/
theorem turns_of_over (h : s.Over e) {fuel : ℕ} {bs : List (Batch Float)}
    {reason : StopReason} (he : s.turns fuel e = .ok (bs, reason, e')) :
    bs = [] ∧ e' = (s.look e).2 := by
  cases fuel with
  | zero => cases he
  | succ fuel =>
    obtain ⟨⟨found, e₁⟩, hstop, he⟩ := bind_eq_ok_iff.mp he
    have hfound := (stopReason?_isSome_iff hstop).mpr h
    obtain rfl := stopReason?_engine hstop
    cases found with
    | none => cases hfound
    | some found =>
      cases he
      exact ⟨rfl, rfl⟩

end Ends

/-- A search that is never asked to stop has at least as many generations as another one of its
kind, which once it was asked to stop is so at every later look. What the worlds of benches are does
not matter. -/
structure Leads (long : Search Float σ) (short : Search Float τ)
    (Q : Bench τ → Bench σ → Prop) : Prop extends short.Kindred long Q where
  insists : short.Insists
  never : ∀ w, (long.tools.cancelled w).1 = false
  longer : short.config.maxGenerations ≤ long.config.maxGenerations
  room : long.config.populationSize * long.config.maxGenerations < wordCount
  worlds : ∀ {b b'} w v, Q b b' → Bench.Worlds Q b b' w v

namespace Leads

variable {long : Search Float σ} {short : Search Float τ} {Q : Bench τ → Bench σ → Prop}
  {e e' : Engine Float τ} {f f' : Engine Float σ}

theorem look (h : long.Leads short Q) (he : e.Agree Q f) :
    (short.look e).2.Agree Q (long.look f).2 := by
  obtain ⟨b', rfl, hb⟩ := he
  exact ⟨_, rfl, h.worlds _ _ hb⟩

theorem tell (h : long.Leads short Q) (he : e.Agree Q f) (hshort : short.tell e = .ok e')
    (hlong : long.tell f = .ok f') : e'.Agree Q f' := by
  obtain ⟨b', rfl, hb⟩ := he
  obtain ⟨w, rfl⟩ := tell_engine hshort
  obtain ⟨v, rfl⟩ := tell_engine hlong
  exact ⟨_, rfl, h.worlds w v hb⟩

/-- While the shorter run goes on, the longer one does. -/
theorem stopReason? (h : long.Leads short Q) (he : e.Agree Q f) (hgoing : ¬ short.Over e) :
    long.stopReason? f = .ok (none, (long.look f).2) := by
  have hleft : f.bench.ledger.evaluations <
      long.config.populationSize * long.config.maxGenerations := by
    rw [(h.counts he).1, h.populationSize]
    exact (not_le.mp fun hused => hgoing (Or.inr hused)).trans_le
      (Nat.mul_le_mul_left _ h.longer)
  have hbudget : long.config.maxEvaluations =
      .ok (long.config.populationSize * long.config.maxGenerations) := by
    unfold SearchConfig.maxEvaluations fitting
    rw [if_pos h.room]
  unfold Search.stopReason?
  dsimp only
  have hnever : (long.look f).1 = false := h.never _
  rw [hnever, if_neg Bool.false_ne_true, hbudget]
  change Except.ok (if _ ≤ f.bench.ledger.evaluations then _ else _, _) = _
  rw [if_neg hleft.not_ge]

/-- The records of the shorter run are the first of the longer one. -/
def RecordsPrefix (e : Engine Float τ) (f : Engine Float σ) : Prop :=
  e.bench.ledger.patches.records.map PatchRecord.untimed <+:
    f.bench.ledger.patches.records.map PatchRecord.untimed

theorem recordsPrefix (h : long.Leads short Q) (he : e.Agree Q f) (hf : f.Grows f') :
    RecordsPrefix e f' := by
  obtain ⟨b', rfl, hb⟩ := he
  obtain ⟨-, -, -, hrecords, -⟩ := Ledger.untimed_eq_iff.mp (h.ledger hb)
  unfold RecordsPrefix
  rw [hrecords]
  exact hf.records.map _

/-- The shorter run evaluates what the longer one does, or it is over before. -/
theorem evaluateAll (h : long.Leads short Q) (he : e.Agree Q f) {cs xs ys : List (Candidate Float)}
    (hshort : short.evaluateAll cs e = .ok (xs, e'))
    (hlong : long.evaluateAll cs f = .ok (ys, f')) :
    xs.length = cs.length ∧ xs = ys ∧ e'.Agree Q f' ∨
      xs.length < cs.length ∧ xs <+: ys ∧ short.Over e' ∧ RecordsPrefix e' f' := by
  induction cs generalizing e f xs ys with
  | nil =>
    cases hshort
    cases hlong
    exact Or.inl ⟨rfl, rfl, he⟩
  | cons c cs ih =>
    obtain ⟨⟨reason, e₁⟩, hstop, hrest⟩ := bind_eq_ok_iff.mp hshort
    have hover := stopReason?_isSome_iff hstop
    obtain rfl := stopReason?_engine hstop
    cases reason with
    | some reason =>
      cases hrest
      have hrecords : RecordsPrefix e f' := h.recordsPrefix he (evaluateAll_adds hlong).1
      exact Or.inr ⟨Nat.succ_pos _, List.nil_prefix, over_look h.insists (hover.mp rfl), hrecords⟩
    | none =>
      obtain ⟨⟨c₁, e₂⟩, hc, hrest⟩ := bind_eq_ok_iff.mp hrest
      obtain ⟨⟨xs, e₃⟩, hxs, hrest⟩ := bind_eq_ok_iff.mp hrest
      cases hrest
      obtain ⟨⟨reason', f₁⟩, hstop', hlong⟩ := bind_eq_ok_iff.mp hlong
      cases hstop'.symm.trans (h.stopReason? he fun hgone => nomatch hover.mpr hgone)
      obtain ⟨⟨c₁', f₂⟩, hc', hlong⟩ := bind_eq_ok_iff.mp hlong
      obtain ⟨⟨ys, f₃⟩, hys, hlong⟩ := bind_eq_ok_iff.mp hlong
      cases hlong
      obtain ⟨hcandidate, hagree⟩ := (h.evaluateCandidate (h.look he) c).of_ok hc hc'
      dsimp only at hcandidate hagree
      subst hcandidate
      obtain ⟨hlength, rfl, hagree'⟩ | ⟨hlength, hbegun, hgone, hrecords⟩ := ih hagree hxs hys
      · exact Or.inl ⟨congrArg (· + 1) hlength, rfl, hagree'⟩
      · exact Or.inr ⟨Nat.succ_lt_succ hlength, List.cons_prefix_cons.mpr ⟨rfl, hbegun⟩, hgone,
          hrecords⟩

/-- The shorter run has left off a generation. -/
structure Left (short : Search Float τ) (b b' : Batch Float) (e : Engine Float τ)
    (f : Engine Float σ) : Prop where
  made : b.made = b'.made
  evaluated : b.evaluated <+: b'.evaluated
  fewer : b.evaluated.length < b.made.length
  gone : short.Over e
  records : RecordsPrefix e f

/-- The shorter run goes through a generation as the longer one does, or leaves it off. -/
theorem judge (h : long.Leads short Q) (he : e.Agree Q f) {parents made : List (Candidate Float)}
    {b b' : Batch Float} (hshort : short.judge parents made e = .ok (b, e'))
    (hlong : long.judge parents made f = .ok (b', f')) :
    b.evaluated.length = b.made.length ∧ b = b' ∧ e'.Agree Q f' ∨ Left short b b' e' f' := by
  obtain ⟨⟨xs, e₁⟩, hxs, hshort⟩ := bind_eq_ok_iff.mp hshort
  obtain ⟨⟨ys, f₁⟩, hys, hlong⟩ := bind_eq_ok_iff.mp hlong
  obtain ⟨e₂, he₂, hshort⟩ := bind_eq_ok_iff.mp hshort
  obtain ⟨f₂, hf₂, hlong⟩ := bind_eq_ok_iff.mp hlong
  obtain ⟨e₃, he₃, hshort⟩ := bind_eq_ok_iff.mp hshort
  obtain ⟨f₃, hf₃, hlong⟩ := bind_eq_ok_iff.mp hlong
  obtain ⟨e₄, he₄, hshort⟩ := bind_eq_ok_iff.mp hshort
  obtain ⟨f₄, hf₄, hlong⟩ := bind_eq_ok_iff.mp hlong
  cases hshort
  cases hlong
  obtain ⟨hlength, rfl, hagree⟩ | ⟨hlength, hbegun, hover, hrecords⟩ := h.evaluateAll he hxs hys
  · have hagree₂ := (h.survive hagree (parents ++ xs)).of_ok he₂ hf₂
    have hagree₃ := (h.recordHistory hagree₂).of_ok he₃ hf₃
    have hsurvivors : f₃.population = e₃.population := by
      obtain ⟨b', rfl, -⟩ := hagree₃
      rfl
    refine Or.inl ⟨hlength, ?_, h.tell hagree₃ he₄ hf₄⟩
    rw [hsurvivors]
  · obtain ⟨population, -, rfl⟩ := survive_engine he₂
    obtain ⟨history, rfl⟩ := recordHistory_engine he₃
    obtain ⟨population', -, rfl⟩ := survive_engine hf₂
    obtain ⟨history', rfl⟩ := recordHistory_engine hf₃
    have hover' : short.Over e' := by
      refine Or.imp (fun hasked => asked_tell h.insists hasked he₄) (fun hused => ?_) hover
      obtain ⟨w, rfl⟩ := tell_engine he₄
      exact hused
    have hrecords' : RecordsPrefix e' f' := by
      obtain ⟨w, rfl⟩ := tell_engine he₄
      obtain ⟨v, rfl⟩ := tell_engine hf₄
      exact hrecords
    exact Or.inr ⟨rfl, hbegun, hlength, hover', hrecords'⟩

theorem turn (h : long.Leads short Q) (he : e.Agree Q f) {b b' : Batch Float}
    (hshort : short.turn e = .ok (b, e')) (hlong : long.turn f = .ok (b', f')) :
    b.evaluated.length = b.made.length ∧ b = b' ∧ e'.Agree Q f' ∨ Left short b b' e' f' := by
  obtain ⟨d, rfl, hd⟩ := he
  have hnext : Engine.Agree Q { e with generation := e.generation + 1 }
      { e with generation := e.generation + 1, bench := d } := ⟨d, rfl, hd⟩
  obtain ⟨⟨children, e₁⟩, hbred, hshort⟩ := bind_eq_ok_iff.mp hshort
  obtain ⟨⟨children', f₁⟩, hbred', hlong⟩ := bind_eq_ok_iff.mp hlong
  rw [h.populationSize] at hbred'
  obtain ⟨hsame, hagree⟩ := (h.offspring hnext _).of_ok hbred hbred'
  dsimp only at hsame hagree
  subst hsame
  exact h.judge hagree hshort hlong

theorem opening (h : long.Leads short Q) (he : e.Agree Q f) {b b' : Batch Float}
    (hshort : short.opening e = .ok (b, e')) (hlong : long.opening f = .ok (b', f')) :
    b.evaluated.length = b.made.length ∧ b = b' ∧ e'.Agree Q f' ∨ Left short b b' e' f' := by
  obtain ⟨e₁, he₁, hshort⟩ := bind_eq_ok_iff.mp hshort
  obtain ⟨f₁, hf₁, hlong⟩ := bind_eq_ok_iff.mp hlong
  obtain ⟨e₂, he₂, hshort⟩ := bind_eq_ok_iff.mp hshort
  obtain ⟨f₂, hf₂, hlong⟩ := bind_eq_ok_iff.mp hlong
  have hagree := h.tell ((h.populate he).of_ok he₁ hf₁) he₂ hf₂
  have hpopulation : f₂.population = e₂.population := by
    obtain ⟨b', rfl, -⟩ := hagree
    rfl
  rw [hpopulation] at hlong
  exact h.judge hagree hshort hlong

/-- What the shorter run has in common with the longer one: all that it evaluated and recorded, and
its generations and histories as well unless it was asked to stop. -/
structure Follows (short : Search Float τ) (as : List (Batch Float)) (e : Engine Float τ)
    (bs : List (Batch Float)) (f : Engine Float σ) : Prop where
  batches : CutShort as bs
  records : RecordsPrefix e f
  whole : ¬ short.Asked e → as <+: bs ∧ e.history.Prefix f.history ∧
    e.bench.ledger.evaluations = short.config.populationSize * short.config.maxGenerations

/-- A generation with what comes after it. -/
theorem follow (h : long.Leads short Q) {b b' : Batch Float} {k : ℕ}
    (hjudged : b.evaluated.length = b.made.length ∧ b = b' ∧ e.Agree Q f ∨ Left short b b' e f)
    (hmade : b.made.length = short.config.populationSize)
    (hcount : e.bench.ledger.evaluations =
      short.config.populationSize * k + b.evaluated.length)
    (hroom : k < short.config.maxGenerations) {fuel fuel' : ℕ} {as bs : List (Batch Float)}
    {reason reason' : StopReason} (hshort : short.turns fuel e = .ok (as, reason, e'))
    (hlong : long.turns fuel' f = .ok (bs, reason', f'))
    (hrest : e.Agree Q f →
      e.bench.ledger.evaluations = short.config.populationSize * (k + 1) →
        Follows short as e' bs f') :
    Follows short (b :: as) e' (b' :: bs) f' := by
  obtain ⟨hall, rfl, hagree⟩ | hleft := hjudged
  · obtain ⟨hbatches, hrecords, hwhole⟩ :=
      hrest hagree (by rw [hcount, hall, hmade, Nat.mul_succ])
    refine ⟨.cons b hbatches, hrecords, fun hasked => ?_⟩
    obtain ⟨hbegun, hhistory, hused⟩ := hwhole hasked
    exact ⟨List.cons_prefix_cons.mpr ⟨rfl, hbegun⟩, hhistory, hused⟩
  · -- within a generation a run ends only when it is asked to
    have hasked : short.Asked e := by
      refine hleft.gone.resolve_right fun hused => ?_
      have hfewer := hleft.fewer
      have hnext := Nat.mul_le_mul_left short.config.populationSize hroom
      rw [Nat.mul_succ] at hnext
      omega
    obtain ⟨rfl, rfl⟩ := turns_of_over (Or.inl hasked) hshort
    refine ⟨.cut hleft.made hleft.evaluated bs, ?_, fun hnot => ?_⟩
    · exact hleft.records.trans ((turns_adds hlong).1.records.map _)
    · exact absurd (h.insists.look _ hasked) hnot

/-- From a rest between two generations on, the shorter run follows the longer one. -/
theorem turns (h : long.Leads short Q) (hpositive : 0 < short.config.populationSize)
    (he : e.Agree Q f) {k : ℕ}
    (hcount : e.bench.ledger.evaluations = short.config.populationSize * k)
    (hwithin : k ≤ short.config.maxGenerations) (hsome : e.population ≠ []) {fuel fuel' : ℕ}
    {as bs : List (Batch Float)} {reason reason' : StopReason}
    (hshort : short.turns fuel e = .ok (as, reason, e'))
    (hlong : long.turns fuel' f = .ok (bs, reason', f')) : Follows short as e' bs f' := by
  induction fuel generalizing e f fuel' as bs k with
  | zero => cases hshort
  | succ fuel ih =>
    have hgrows := (turns_adds hlong).1
    obtain ⟨⟨found, e₁⟩, hstop, hrest⟩ := bind_eq_ok_iff.mp hshort
    have hover := stopReason?_isSome_iff hstop
    obtain rfl := stopReason?_engine hstop
    cases found with
    | some found =>
      cases hrest
      have hrecords : RecordsPrefix e f' := h.recordsPrefix he hgrows
      refine ⟨.done bs, hrecords, fun hasked => ⟨List.nil_prefix, ?_, ?_⟩⟩
      · obtain ⟨b', rfl, -⟩ := he
        exact hgrows.history
      · have hused := (hover.mp rfl).resolve_left fun hstopped => hasked (h.insists.look _ hstopped)
        change e.bench.ledger.evaluations = _
        rw [hcount] at hused ⊢
        exact le_antisymm (Nat.mul_le_mul_left _ hwithin) hused
    | none =>
      have hgoing : ¬ short.Over e := fun hgone => nomatch hover.mpr hgone
      have hroom : k < short.config.maxGenerations := by
        have hleft := not_le.mp fun hused => hgoing (Or.inr hused)
        rw [hcount] at hleft
        exact Nat.lt_of_mul_lt_mul_left hleft
      obtain _ | fuel' := fuel'
      · cases hlong
      obtain ⟨⟨found', f₁⟩, hstop', hlong'⟩ := bind_eq_ok_iff.mp hlong
      cases hstop'.symm.trans (h.stopReason? he hgoing)
      have hagree := h.look he
      have hpopulation : (long.look f).2.population = (short.look e).2.population := by
        obtain ⟨b', hb', -⟩ := hagree
        rw [hb']
      have hfull : ¬ (short.look e).2.population.isEmpty = true := by
        rwa [List.isEmpty_iff]
      dsimp only at hrest hlong'
      rw [if_neg hfull] at hrest
      rw [hpopulation, if_neg hfull] at hlong'
      obtain ⟨⟨b, e₂⟩, hturn, hrest⟩ := bind_eq_ok_iff.mp hrest
      obtain ⟨⟨b', f₂⟩, hturn', hlong'⟩ := bind_eq_ok_iff.mp hlong'
      obtain ⟨⟨as, reason, e₃⟩, has, hrest⟩ := bind_eq_ok_iff.mp hrest
      obtain ⟨⟨bs, reason', f₃⟩, hbs, hlong'⟩ := bind_eq_ok_iff.mp hlong'
      cases hrest
      cases hlong'
      obtain ⟨hmade, hadds, hsurvivors⟩ := turn_adds hturn
      refine h.follow (h.turn hagree hturn hturn') hmade ?_ hroom has hbs fun hagree' hcount' => ?_
      · exact hadds.evaluations.trans (congrArg (· + _) hcount)
      · refine ih hagree' hcount' hroom ?_ has hbs
        rw [hadds.population, ← List.length_pos_iff, hsurvivors]
        have hparents : 0 < (short.look e).2.population.length := List.length_pos_iff.mpr hsome
        omega

/-- A run of the shorter search follows that of the longer one. -/
theorem chronicle (h : long.Leads short Q) (hpositive : 0 < short.config.populationSize)
    (hlasting : 0 < short.config.maxGenerations) (he : e.Agree Q f)
    (hfresh : e.bench.ledger.evaluations = 0) {as bs : List (Batch Float)}
    {r r' : SearchResult Float} (hshort : short.chronicle e = .ok (as, r, e'))
    (hlong : long.chronicle f = .ok (bs, r', f')) : Follows short as e' bs f' := by
  obtain ⟨budget, -, hshort⟩ := bind_eq_ok_iff.mp hshort
  obtain ⟨budget', -, hlong⟩ := bind_eq_ok_iff.mp hlong
  obtain ⟨⟨b, e₁⟩, hopening, hshort⟩ := bind_eq_ok_iff.mp hshort
  obtain ⟨⟨b', f₁⟩, hopening', hlong⟩ := bind_eq_ok_iff.mp hlong
  obtain ⟨⟨as, reason, e₂⟩, has, hshort⟩ := bind_eq_ok_iff.mp hshort
  obtain ⟨⟨bs, reason', f₂⟩, hbs, hlong⟩ := bind_eq_ok_iff.mp hlong
  cases hshort
  cases hlong
  obtain ⟨hmade, hadds, hsurvivors⟩ := opening_adds hopening
  have hcount : e₁.bench.ledger.evaluations =
      short.config.populationSize * 0 + b.evaluated.length := by
    rw [hadds.evaluations, hfresh, Nat.mul_zero]
  refine h.follow (h.opening he hopening hopening') hmade hcount hlasting has hbs
    fun hagree hcount' => ?_
  refine h.turns hpositive hagree hcount' hlasting ?_ has hbs
  rw [hadds.population, ← List.length_pos_iff, hsurvivors]
  rw [Nat.mul_zero, Nat.zero_add] at hcount
  rw [Nat.zero_add, Nat.mul_one] at hcount'
  omega

end Leads

end Search

end PatchSearch
