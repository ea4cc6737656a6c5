import PatchSearch.Proofs.Evaluation.Scores
import PatchSearch.Proofs.Numbers.FloatZero
import PatchSearch.Proofs.Search.PatchLog
import PatchSearch.Proofs.Search.Simulation

/-!
Lightweight novelty with nothing to add. With a diversity weight of zero the bonus for known
behavior is a zero, and with three objectives no objective holds it. Then a search that scores
novelty keeps an archive and draws from the random source of evaluations, but its scores are those
of a search without novelty; as whole suites need no draws, the two searches make, evaluate and
select the same candidates.
-/
namespace PatchSearch

variable {σ τ : Type}

section Scores

open FloatOrder

/-- No fitness is the negative zero. -/
theorem TestOutcome.unsunk_fitness (o : TestOutcome) (weight : Float) :
    Unsunk (o.fitness weight : Float) := by
  have hshare : Unsunk (o.negativeShare : Float) := by
    unfold negativeShare failedShare
    split
    · exact nofun
    · exact unsunk_proportion _ _
  exact hshare.add _

/-- A weight of zero makes the bonus of a share a zero. -/
theorem isZero_noveltyBonus {v weight : Float} (hv : Within 1 v) (hweight : IsZero weight) :
    IsZero (noveltyBonus v weight) :=
  isZero_mul (within_one_sub hv).1 hweight

/-- Lightweight novelty has nothing to add to scores. -/
structure Setup.Idle (s : Setup) : Prop where
  mode : s.novelty.mode = .lightweight
  nothing : (s.novelty.diversityWeight == 0.0) = true ∨ s.objectives = 3
  tests : s.tests.total < wordCount

namespace Setup

variable {s : Setup}

/-- The setup without novelty. -/
def plain (s : Setup) : Setup :=
  { s with novelty := { s.novelty with mode := .none } }

/-- A novelty that is a share leaves the objectives as they are. -/
theorem Idle.modeObjectives_eq (h : s.Idle) (edits : ℕ) (o : TestOutcome) {novelty : Option Float}
    (hv : ∀ v ∈ novelty, Within 1 v) :
    modeObjectives s edits o (o.fitness s.config.weight) novelty =
      plainObjectives s.objectives edits o (o.fitness s.config.weight : Float) := by
  unfold modeObjectives
  rw [h.mode]
  cases novelty with
  | none => rfl
  | some v =>
    dsimp only
    obtain hweight | hthree := h.nothing
    · have hzero := isZero_noveltyBonus (hv v rfl) (isZero_of_beq hweight)
      rw [(o.unsunk_fitness s.config.weight).sub_zero hzero]
    · rw [hthree]
      rfl

/-- What archives of the suite score are shares, and they stay archives of the suite. -/
theorem Idle.scoreBehavior (h : s.Idle) {b : Bench τ}
    (harchive : b.archive.Describes s.tests.ordered) (o : TestOutcome) :
    let x : Option Float × Bench τ := PatchSearch.scoreBehavior s o b
    (∀ v ∈ x.1, Within 1 v) ∧ x.2.archive.Describes s.tests.ordered ∧
      x.2.ledger = b.ledger ∧ x.2.world = b.world := by
  have hsize : (Float.ofNat s.tests.ordered.length).isFinite = true :=
    isFinite_ofNat (s.tests.length_ordered_le.trans_lt h.tests)
  have hdescribes : (Descriptor.ofOutcomes s.tests.ordered o.failed).Describes s.tests.ordered :=
    ⟨o.failed, rfl⟩
  unfold PatchSearch.scoreBehavior
  dsimp only
  cases hscored : b.archive.novelty (α := Float)
      (Descriptor.ofOutcomes s.tests.ordered o.failed) s.novelty.neighbors with
  | error err => exact ⟨nofun, harchive, rfl, rfl⟩
  | ok v =>
    refine ⟨?_, harchive.insert hdescribes _, rfl, rfl⟩
    rintro _ ⟨rfl⟩
    exact harchive.within_novelty hdescribes hscored (Or.inl hsize)

/-- Scores with idle novelty are those without novelty, whatever the archive of the suite holds. -/
theorem Idle.scoresAlike (h : s.Idle) (hwhole : ¬ s.config.percentage < 1.0)
    (R : τ → σ → Prop) :
    s.ScoresAlike Float s.plain R fun x _ => x.1.Describes s.tests.ordered where
  setup := rfl
  sample {b b'} hb := by
    rw [samplePositive_of_not_lt _ _ _ _ hwhole, samplePositive_of_not_lt _ _ _ _ hwhole]
    exact Alike.intro _ { hb with drawn := hb.drawn }
  score {b b'} edits o hb := by
    have hscored : ¬ s.novelty.mode = .none := by
      rw [h.mode]
      nofun
    have hplain : s.plain.novelty.mode = .none := rfl
    obtain ⟨hshares, harchive, hledger, hworld⟩ := h.scoreBehavior hb.drawn o
    unfold score
    simp only [if_neg hscored, if_pos hplain]
    refine ⟨⟨h.modeObjectives_eq edits o hshares, rfl, fun rejected => ?_⟩, ?_⟩
    · simp only [scoredStatus, h.mode, hplain]
      rfl
    · exact ⟨harchive, by rw [hledger]; exact hb.ledger, by rw [hworld]; exact hb.world⟩

end Setup

end Scores

/-- Idle novelty is invisible. Take two searches whose setups differ in that one has lightweight
novelty with nothing to add and the other has none, with whole suites and with toolchains that
mirror each other. From the same seed, with books that agree in all but time, they come to the same
fault, or they evaluate the same candidates to the same end and select the same populations, and
their results agree in all but times. -/
theorem idle_novelty_invisible (fine : Search Float τ) (coarse : Search Float σ)
    (hidle : fine.setup.Idle) (hwhole : ¬ fine.setup.config.percentage < 1.0)
    (hconfig : coarse.config = fine.config) (hsetup : coarse.setup = fine.setup.plain)
    (R : τ → σ → Prop) (htools : fine.tools.Mirrors coarse.tools R)
    (hcancelled : ∀ {w v}, R w v → Alike R (fine.tools.cancelled w) (coarse.tools.cancelled v))
    (hnotify : ∀ {w v} p, R w v → R (fine.notify p w) (coarse.notify p v))
    (b : Bench τ) (b' : Bench σ) (harchive : b.archive.Describes fine.setup.tests.ordered)
    (hledger : b.ledger.untimed = b'.ledger.untimed) (hworld : R b.world b'.world)
    (seed : UInt64) :
    SameCourse (fun x y => x.1 = y.1 ∧ x.2.1.untimed = y.2.1.untimed)
        (fine.chronicle (Search.engine b seed)) (coarse.chronicle (Search.engine b' seed)) ∧
      SameCourse (fun x y => x.1.untimed = y.1.untimed) (fine.run (Search.engine b seed))
        (coarse.run (Search.engine b' seed)) := by
  have hscores := hidle.scoresAlike hwhole R
  have htwins : fine.Twins coarse
      (Bench.Like (fun x _ => x.1.Describes fine.setup.tests.ordered) R) :=
    { config := by rw [hconfig]
      setup := by rw [hsetup]; rfl
      ledger := fun hb => hb.ledger
      evaluate := fun c hb => by
        rw [hsetup]
        exact htools.evaluate hscores hb c
      budget := by rw [hconfig]
      cancelled := fun hb => (hcancelled hb.world).worlds hb
      notify := fun p hb => { hb with world := hnotify p hb.world } }
  have hstart : Engine.Agree (Bench.Like (fun x _ => x.1.Describes fine.setup.tests.ordered) R)
      (Search.engine b seed) (Search.engine (α := Float) b' seed) :=
    ⟨b', rfl, harchive, hledger, hworld⟩
  have hchronicles := htwins.chronicle hstart
  refine ⟨hchronicles.mono fun x y h => ⟨h.1, h.2.1⟩, ?_⟩
  rw [Search.run_eq, Search.run_eq]
  exact hchronicles.map fun x y h => h.2.1

/-- The search over one line with one test, and lightweight novelty that weighs nothing. -/
def watchingSearch : Search Float Bool :=
  { loneLineSearch with
    setup := { loneLineSearch.setup with
      tests := ⟨[], ["T#broken"]⟩
      novelty := { mode := .lightweight, diversityWeight := 0.0 } } }

/-- The same without novelty, seven seconds later. -/
def laterSearch : Search Float Bool :=
  { watchingSearch with
    setup := watchingSearch.setup.plain
    tools := { hastyTools with clock := fun _ => 7000 } }

/-- A run over the line archives what it sees, and finds what the run without novelty finds. -/
theorem idle_novelty_invisible_of_line :
    let b : Bench Bool := .start 200 0 (.start .empty 0) false
    watchingSearch.setup.Idle ∧ ¬ watchingSearch.setup.config.percentage < 1.0 ∧
      laterSearch.config = watchingSearch.config ∧
      laterSearch.setup = watchingSearch.setup.plain ∧
      watchingSearch.tools.Mirrors laterSearch.tools (· = ·) ∧
      b.archive.Describes watchingSearch.setup.tests.ordered ∧
      ∃ batches r r' t t',
        watchingSearch.chronicle (Search.engine b 2) = .ok (batches, r, t) ∧
        laterSearch.chronicle (Search.engine b 2) = .ok (batches, r', t') ∧
        r.untimed = r'.untimed ∧ t.bench.archive.entries.length = 1 := by
  intro b
  have hidle : watchingSearch.setup.Idle :=
    ⟨rfl, Or.inl (by decide +kernel), by decide +kernel⟩
  have hwhole : ¬ watchingSearch.setup.config.percentage < 1.0 := by decide +kernel
  have htools : watchingSearch.tools.Mirrors laterSearch.tools (· = ·) :=
    { patch := by rintro w _ p o i rfl; exact Alike.intro _ rfl
      compile := by rintro w _ id sources rfl; exact Alike.intro _ rfl
      runTests := by rintro w _ artifact tests limit rfl; exact Alike.intro _ rfl
      write := by rintro w _ dir r r' - rfl; exact Alike.intro _ rfl }
  have harchive : b.archive.Describes watchingSearch.setup.tests.ordered := nofun
  obtain ⟨hsame, -⟩ := idle_novelty_invisible watchingSearch laterSearch hidle hwhole rfl rfl
    (· = ·) htools (by rintro w _ rfl; exact Alike.intro _ rfl) (by rintro w _ p rfl; rfl) b b
    harchive rfl rfl 2
  have hended : (watchingSearch.chronicle (Search.engine b 2)).toOption.map
      (·.2.2.bench.archive.entries.length) = some 1 := by
    decide +kernel
  obtain ⟨⟨batches, r, t⟩, hrun, hentries⟩ := toOption_map_eq_some_iff.mp hended
  obtain ⟨⟨batches', r', t'⟩, hlater, hbatches, hresult⟩ := hsame.exists_ok hrun
  dsimp only at hbatches hresult
  subst hbatches
  exact ⟨hidle, hwhole, rfl, rfl, htools, harchive, batches, r, r', t, t', hrun, hlater, hresult,
    hentries⟩

end PatchSearch
