import Mathlib.Analysis.Real.Sqrt
import PatchSearch.Proofs.Program.Localization

/-!
How scores answer to new evidence. Without rounding both formulas are made of two kinds of fractions:
the share of the tests of one side that execute a location, and the part that the failing tests have
in what executes it. A test with a new name moves the counts of its own side only, so each of these
fractions in one direction.
-/
namespace PatchSearch

section Shares

variable {a a' b b' : ℝ} {m n : ℕ}

/-- What one of two amounts contributes to their sum. -/
noncomputable def part (a b : ℝ) : ℝ :=
  a / (a + b)

theorem part_nonneg (ha : 0 ≤ a) (hb : 0 ≤ b) : 0 ≤ part a b :=
  div_nonneg ha (add_nonneg ha hb)

theorem part_le_one (ha : 0 ≤ a) (hb : 0 ≤ b) : part a b ≤ 1 := by
  apply div_le_one_of_le₀ _ (add_nonneg ha hb)
  linarith

/-- A part grows with its own amount and shrinks with the other one. -/
theorem part_le_part (ha : 0 ≤ a) (haa' : a ≤ a') (hb' : 0 ≤ b') (hb'b : b' ≤ b) :
    part a b ≤ part a' b' := by
  rcases ha.eq_or_lt with rfl | hpos
  · have hzero : part 0 b = 0 := zero_div _
    rw [hzero]
    exact part_nonneg haa' hb'
  · have hpos' : 0 < a' := hpos.trans_le haa'
    have hb : 0 ≤ b := hb'.trans hb'b
    unfold part
    rw [div_le_div_iff₀ (by linarith) (by linarith)]
    have hcross : a * b' ≤ a' * b := mul_le_mul haa' hb'b hb' hpos'.le
    linarith

theorem share_nonneg (m n : ℕ) : (0 : ℝ) ≤ m / n :=
  div_nonneg (Nat.cast_nonneg m) (Nat.cast_nonneg n)

theorem share_le_one (h : m ≤ n) : (m / n : ℝ) ≤ 1 :=
  div_le_one_of_le₀ (Nat.cast_le.mpr h) (Nat.cast_nonneg n)

/-- A share grows when what is added counts for it. -/
theorem share_le_of_counted (h : m ≤ n) : (m / n : ℝ) ≤ (m + 1 : ℕ) / (n + 1 : ℕ) := by
  rcases Nat.eq_zero_or_pos n with rfl | hpos
  · rw [Nat.cast_zero, div_zero]
    exact share_nonneg _ _
  · have hn : (0 : ℝ) < n := Nat.cast_pos.mpr hpos
    have hmn : (m : ℝ) ≤ n := Nat.cast_le.mpr h
    push_cast
    rw [div_le_div_iff₀ hn (by linarith)]
    linarith

/-- A share shrinks when what is added does not count for it. -/
theorem share_le_of_uncounted (h : m ≤ n) : (m / (n + 1 : ℕ) : ℝ) ≤ m / n := by
  rcases Nat.eq_zero_or_pos n with rfl | hpos
  · obtain rfl : m = 0 := by omega
    simp
  · have hn : (0 : ℝ) < n := Nat.cast_pos.mpr hpos
    have hmore : (n : ℝ) ≤ (n + 1 : ℕ) := Nat.cast_le.mpr (Nat.le_succ n)
    exact div_le_div_of_nonneg_left (Nat.cast_nonneg m) hn hmore

end Shares

/-- Arithmetic with real numbers. -/
@[reducible]
noncomputable def realArithmetic : Arithmetic ℝ where
  ofNat n := n

/-- The square root of real numbers. -/
@[reducible]
noncomputable def realRoot : SquareRoot ℝ where
  sqrt := Real.sqrt

namespace Formula

/-- The score of a spectrum by a formula, without rounding. -/
noncomputable def exactScore (f : Formula) (failed passed : ℕ) (s : Spectrum) : ℝ :=
  @score ℝ realArithmetic realRoot f failed passed s

variable {failed failed' passed passed' : ℕ} {s s' : Spectrum}

theorem exactScore_tarantula (failed passed : ℕ) (s : Spectrum) :
    tarantula.exactScore failed passed s = part (s.failing / failed) (s.passing / passed) := by
  change (if s.failing = 0 ∨ failed = 0 then ((0 : ℕ) : ℝ) else
    (s.failing / failed : ℝ) / (s.failing / failed +
      if 0 < passed then (s.passing / passed : ℝ) else ((0 : ℕ) : ℝ))) = _
  have hpassed : (if 0 < passed then (s.passing / passed : ℝ) else ((0 : ℕ) : ℝ)) =
      s.passing / passed := by
    split
    · rfl
    · next hnone =>
      obtain rfl : passed = 0 := by omega
      simp
  rw [hpassed]
  split
  · next hzero =>
    unfold part
    rcases hzero with hzero | hzero <;> simp [hzero]
  · rfl

/-- The square of a score by Ochiai is a product of a part and a share. -/
theorem exactScore_ochiai (h : s.failing ≤ failed) (passed : ℕ) :
    ochiai.exactScore failed passed s = √(part s.failing s.passing * (s.failing / failed)) := by
  change (if s.failing = 0 then ((0 : ℕ) : ℝ) else
    (s.failing : ℝ) / √((s.failing + s.passing) * (s.failing + (failed - s.failing : ℕ)))) = _
  by_cases hzero : s.failing = 0
  · rw [if_pos hzero]
    simp [hzero]
  · rw [if_neg hzero, Nat.cast_sub h, add_sub_cancel]
    have hsquare : part s.failing s.passing * (s.failing / failed) =
        (s.failing : ℝ) ^ 2 / ((s.failing + s.passing) * failed) := by
      unfold part
      rw [div_mul_div_comm, sq]
    rw [hsquare, Real.sqrt_div (sq_nonneg _), Real.sqrt_sq (Nat.cast_nonneg _)]

theorem exactScore_nonneg (f : Formula) (h : s.failing ≤ failed) :
    0 ≤ f.exactScore failed passed s := by
  cases f with
  | ochiai =>
    rw [exactScore_ochiai h]
    exact Real.sqrt_nonneg _
  | tarantula =>
    rw [exactScore_tarantula]
    exact part_nonneg (share_nonneg _ _) (share_nonneg _ _)

theorem exactScore_le_one (f : Formula) (h : s.failing ≤ failed) :
    f.exactScore failed passed s ≤ 1 := by
  cases f with
  | ochiai =>
    rw [exactScore_ochiai h]
    refine Real.sqrt_le_one.mpr ?_
    exact mul_le_one₀ (part_le_one (Nat.cast_nonneg _) (Nat.cast_nonneg _)) (share_nonneg _ _)
      (share_le_one h)
  | tarantula =>
    rw [exactScore_tarantula]
    exact part_le_one (share_nonneg _ _) (share_nonneg _ _)

/-- Evidence against a location in one spectrum is no weaker than in another: no fewer failing and
no more passing tests execute it, in number and as a share of all. -/
structure NoWeaker (failed passed : ℕ) (s : Spectrum) (failed' passed' : ℕ) (s' : Spectrum) :
    Prop where
  failing : s.failing ≤ s'.failing
  passing : s'.passing ≤ s.passing
  failing_share : (s.failing / failed : ℝ) ≤ s'.failing / failed'
  passing_share : (s'.passing / passed' : ℝ) ≤ s.passing / passed

/-- Both formulas follow the evidence. -/
theorem exactScore_le_of_noWeaker (f : Formula) (hle : s.failing ≤ failed)
    (hle' : s'.failing ≤ failed') (h : NoWeaker failed passed s failed' passed' s') :
    f.exactScore failed passed s ≤ f.exactScore failed' passed' s' := by
  cases f with
  | ochiai =>
    rw [exactScore_ochiai hle, exactScore_ochiai hle']
    have hpart : part s.failing s.passing ≤ part s'.failing s'.passing :=
      part_le_part (Nat.cast_nonneg _) (Nat.cast_le.mpr h.failing) (Nat.cast_nonneg _)
        (Nat.cast_le.mpr h.passing)
    exact Real.sqrt_le_sqrt (mul_le_mul hpart h.failing_share (share_nonneg _ _)
      (part_nonneg (Nat.cast_nonneg _) (Nat.cast_nonneg _)))
  | tarantula =>
    rw [exactScore_tarantula, exactScore_tarantula]
    exact part_le_part (share_nonneg _ _) h.failing_share (share_nonneg _ _) h.passing_share

namespace NoWeaker

/-- Without a passing test that executes the location. -/
theorem of_passing_covering (h : s.passing ≤ passed) :
    NoWeaker failed (passed + 1) ⟨s.failing, s.passing + 1⟩ failed passed s :=
  ⟨le_rfl, Nat.le_succ _, le_rfl, share_le_of_counted h⟩

/-- With a failing test that executes the location. -/
theorem of_failing_covering (h : s.failing ≤ failed) :
    NoWeaker failed passed s (failed + 1) passed ⟨s.failing + 1, s.passing⟩ :=
  ⟨Nat.le_succ _, le_rfl, share_le_of_counted h, le_rfl⟩

/-- Without a failing test that passes the location by. -/
theorem of_failing_elsewhere (h : s.failing ≤ failed) :
    NoWeaker (failed + 1) passed s failed passed s :=
  ⟨le_rfl, le_rfl, share_le_of_uncounted h, le_rfl⟩

/-- With a passing test that passes the location by. -/
theorem of_passing_elsewhere (h : s.passing ≤ passed) :
    NoWeaker failed passed s failed (passed + 1) s :=
  ⟨le_rfl, le_rfl, le_rfl, share_le_of_uncounted h⟩

end NoWeaker

end Formula

namespace CoverageReport

variable {r r' : CoverageReport} {t u : String} {l : Location}

/-- A report with entries on one more test, which it did not name before. -/
structure Adds (r : CoverageReport) (t : String) (r' : CoverageReport) : Prop where
  fresh : ∀ e ∈ r.tests, e.test ≠ t
  added : ∃ entries, entries ≠ [] ∧ (∀ e ∈ entries, e.test = t) ∧
    r'.tests.Perm (r.tests ++ entries)

namespace Adds

theorem named (h : r.Adds t r') : ∃ e ∈ r'.tests, e.test = t := by
  obtain ⟨entries, hsome, hname, hperm⟩ := h.added
  obtain ⟨e, he⟩ := List.exists_mem_of_ne_nil entries hsome
  exact ⟨e, hperm.mem_iff.mpr (List.mem_append_right _ he), hname e he⟩

/-- Of another test both reports say the same. -/
theorem says_iff (h : r.Adds t r') (hne : u ≠ t) (p : TestCoverage → Prop) :
    (∃ e ∈ r'.tests, e.test = u ∧ p e) ↔ ∃ e ∈ r.tests, e.test = u ∧ p e := by
  obtain ⟨entries, -, hname, hperm⟩ := h.added
  constructor
  · rintro ⟨e, he, rfl, hp⟩
    rcases List.mem_append.mp (hperm.mem_iff.mp he) with hold | hnew
    · exact ⟨e, hold, rfl, hp⟩
    · exact absurd (hname e hnew) hne
  · rintro ⟨e, he, heq, hp⟩
    exact ⟨e, hperm.mem_iff.mpr (List.mem_append_left _ he), heq, hp⟩

theorem mem_negative (h : r.Adds t r') (hne : u ≠ t) :
    u ∈ r'.suite.negative ↔ u ∈ r.suite.negative :=
  mem_negativeTests.trans ((h.says_iff hne _).trans mem_negativeTests.symm)

theorem mem_positive (h : r.Adds t r') (hne : u ≠ t) :
    u ∈ r'.suite.positive ↔ u ∈ r.suite.positive := by
  have hnamed := h.says_iff hne fun _ => True
  simp only [and_true] at hnamed
  by_cases hold : ∃ e ∈ r.tests, e.test = u
  · have hside := mem_positiveTests_iff_not_mem_negativeTests hold
    have hside' := mem_positiveTests_iff_not_mem_negativeTests (hnamed.mpr hold)
    exact hside'.trans ((not_congr (h.mem_negative hne)).trans hside.symm)
  · refine iff_of_false (fun hpositive => hold (hnamed.mp ?_)) (fun hpositive => hold ?_)
    · exact (r'.classifies_suite.covers u).mp (Or.inl hpositive)
    · exact (r.classifies_suite.covers u).mp (Or.inl hpositive)

theorem covers_iff (h : r.Adds t r') (hne : u ≠ t) : r'.Covers u l ↔ r.Covers u l :=
  h.says_iff hne _

theorem not_mem_negative (h : r.Adds t r') : t ∉ r.suite.negative := fun hmem => by
  obtain ⟨e, he, heq⟩ := (r.classifies_suite.covers t).mp (Or.inr hmem)
  exact h.fresh e he heq

theorem not_mem_positive (h : r.Adds t r') : t ∉ r.suite.positive := fun hmem => by
  obtain ⟨e, he, heq⟩ := (r.classifies_suite.covers t).mp (Or.inl hmem)
  exact h.fresh e he heq

end Adds

/-- A set that differs from another one by a new element at most has at most one element more. -/
theorem card_of_same_but {A A' : Finset String} (hfresh : t ∉ A)
    (hsame : ∀ u, u ≠ t → (u ∈ A' ↔ u ∈ A)) : A'.card = A.card + if t ∈ A' then 1 else 0 := by
  by_cases hmem : t ∈ A'
  · have hinsert : A' = insert t A := by
      ext u
      rw [Finset.mem_insert]
      by_cases heq : u = t
      · exact iff_of_true (heq ▸ hmem) (Or.inl heq)
      · exact (hsame u heq).trans (or_iff_right heq).symm
    rw [if_pos hmem, hinsert, Finset.card_insert_of_notMem hfresh]
  · have heq : A' = A := by
      ext u
      by_cases heq : u = t
      · exact iff_of_false (heq ▸ hmem) (heq ▸ hfresh)
      · exact hsame u heq
    rw [if_neg hmem, heq, Nat.add_zero]

theorem length_of_same_but {names names' : List String} (hnodup : names.Nodup)
    (hnodup' : names'.Nodup) (hfresh : t ∉ names)
    (hsame : ∀ u, u ≠ t → (u ∈ names' ↔ u ∈ names)) :
    names'.length = names.length + if t ∈ names' then 1 else 0 := by
  rw [← List.toFinset_card_of_nodup hnodup, ← List.toFinset_card_of_nodup hnodup']
  simp only [← List.mem_toFinset] at hfresh hsame ⊢
  exact card_of_same_but hfresh hsame

/-- A new test counts among the tests that cover a location if it does. -/
theorem Adds.card_covering (h : r.Adds t r') {names names' : List String} (hfresh : t ∉ names)
    (hsame : ∀ u, u ≠ t → (u ∈ names' ↔ u ∈ names)) :
    (names'.toFinset.filter (r'.Covers · l)).card =
      (names.toFinset.filter (r.Covers · l)).card +
        if t ∈ names' ∧ r'.Covers t l then 1 else 0 := by
  have hmem {r : CoverageReport} {names : List String} {u : String} :
      u ∈ names.toFinset.filter (r.Covers · l) ↔ u ∈ names ∧ r.Covers u l := by
    rw [Finset.mem_filter, List.mem_toFinset]
  rw [card_of_same_but (t := t) (A := names.toFinset.filter (r.Covers · l))]
  · simp only [hmem]
  · exact fun hold => hfresh (hmem.mp hold).1
  · intro u hne
    rw [hmem, hmem, hsame u hne, h.covers_iff hne]

/-- A new test counts once more on its side, and there in a spectrum if it covers the location. -/
theorem Adds.counts (h : r.Adds t r') (l : Location) :
    (r'.suite.negative.length =
      r.suite.negative.length + if t ∈ r'.suite.negative then 1 else 0) ∧
    (r'.suite.positive.length =
      r.suite.positive.length + if t ∈ r'.suite.positive then 1 else 0) ∧
    ((r'.spectrum l).failing = (r.spectrum l).failing +
      if t ∈ r'.suite.negative ∧ r'.Covers t l then 1 else 0) ∧
    (r'.spectrum l).passing = (r.spectrum l).passing +
      if t ∈ r'.suite.positive ∧ r'.Covers t l then 1 else 0 := by
  have hsuite := r.classifies_suite
  have hsuite' := r'.classifies_suite
  have hnegative (u : String) (hne : u ≠ t) := h.mem_negative hne
  have hpositive (u : String) (hne : u ≠ t) := h.mem_positive hne
  refine ⟨?_, ?_, ?_, ?_⟩
  · exact length_of_same_but hsuite.nodup_negative hsuite'.nodup_negative h.not_mem_negative
      hnegative
  · exact length_of_same_but hsuite.nodup_positive hsuite'.nodup_positive h.not_mem_positive
      hpositive
  · rw [(r.counts_spectrum l).failing, (r'.counts_spectrum l).failing]
    exact h.card_covering h.not_mem_negative hnegative
  · rw [(r.counts_spectrum l).passing, (r'.counts_spectrum l).passing]
    exact h.card_covering h.not_mem_positive hpositive

/-- The score of a location by a formula, without rounding. -/
noncomputable def exactScore (r : CoverageReport) (f : Formula) (l : Location) : ℝ :=
  f.exactScore r.suite.negative.length r.suite.positive.length (r.spectrum l)

theorem Adds.exactScore_eq (h : r.Adds t r') (f : Formula) (l : Location) :
    r'.exactScore f l = f.exactScore
      (r.suite.negative.length + if t ∈ r'.suite.negative then 1 else 0)
      (r.suite.positive.length + if t ∈ r'.suite.positive then 1 else 0)
      ⟨(r.spectrum l).failing + if t ∈ r'.suite.negative ∧ r'.Covers t l then 1 else 0,
        (r.spectrum l).passing + if t ∈ r'.suite.positive ∧ r'.Covers t l then 1 else 0⟩ := by
  obtain ⟨hnegative, hpositive, hfailing, hpassing⟩ := h.counts l
  rw [← hnegative, ← hpositive, ← hfailing, ← hpassing]
  rfl

/-- Suspicion follows the evidence. The score that a localization gives to a location is that of a
formula for its spectrum, with roundings. Without them it lies between zero and one, and a report
on one test more moves it in one direction only, by both formulas: a passing test that covers the
location does not raise it and one that does not cover it does not lower it, a failing test that
covers the location does not lower it and one that does not cover it does not raise it. -/
theorem score_follows_evidence (r : CoverageReport) (f : Formula) (l : Location) :
    (r.tests.length < wordCount → (Localization.ofReport r f).score l =
      f.score r.suite.negative.length r.suite.positive.length (r.spectrum l)) ∧
    0 ≤ r.exactScore f l ∧ r.exactScore f l ≤ 1 ∧
    ∀ t r', r.Adds t r' →
      (t ∈ r'.suite.positive ↔ t ∉ r'.suite.negative) ∧
      (t ∈ r'.suite.positive → r'.Covers t l → r'.exactScore f l ≤ r.exactScore f l) ∧
      (t ∈ r'.suite.negative → r'.Covers t l → r.exactScore f l ≤ r'.exactScore f l) ∧
      (t ∈ r'.suite.negative → ¬ r'.Covers t l → r'.exactScore f l ≤ r.exactScore f l) ∧
      (t ∈ r'.suite.positive → ¬ r'.Covers t l → r.exactScore f l ≤ r'.exactScore f l) := by
  have hspectrum := r.counts_spectrum l
  refine ⟨fun hsize => ?_, f.exactScore_nonneg hspectrum.failing_le,
    f.exactScore_le_one hspectrum.failing_le, fun t r' h => ?_⟩
  · unfold Localization.score
    rw [Localization.score?_ofReport f hsize]
    split
    · rfl
    · next hnone =>
      rw [f.score_of_no_failing (Nat.eq_zero_of_not_pos hnone)]
      rfl
  · have hside : t ∈ r'.suite.positive ↔ t ∉ r'.suite.negative :=
      mem_positiveTests_iff_not_mem_negativeTests h.named
    obtain ⟨-, -, hfailing, hpassing⟩ := hspectrum
    rw [h.exactScore_eq]
    refine ⟨hside, fun hpos hcovers => ?_, fun hneg hcovers => ?_, fun hneg hmisses => ?_,
      fun hpos hmisses => ?_⟩
    · have hneg := hside.mp hpos
      rw [if_neg hneg, if_pos hpos, if_neg fun hboth => hneg hboth.1, if_pos ⟨hpos, hcovers⟩]
      exact f.exactScore_le_of_noWeaker hfailing hfailing (.of_passing_covering hpassing)
    · have hpos := mt hside.mp (not_not.mpr hneg)
      rw [if_pos hneg, if_neg hpos, if_pos ⟨hneg, hcovers⟩, if_neg fun hboth => hpos hboth.1]
      exact f.exactScore_le_of_noWeaker hfailing (Nat.succ_le_succ hfailing)
        (.of_failing_covering hfailing)
    · have hpos := mt hside.mp (not_not.mpr hneg)
      rw [if_pos hneg, if_neg hpos, if_neg fun hboth => hmisses hboth.2,
        if_neg fun hboth => hmisses hboth.2]
      exact f.exactScore_le_of_noWeaker (Nat.le_succ_of_le hfailing) hfailing
        (.of_failing_elsewhere hfailing)
    · have hneg := hside.mp hpos
      rw [if_neg hneg, if_pos hpos, if_neg fun hboth => hmisses hboth.2,
        if_neg fun hboth => hmisses hboth.2]
      exact f.exactScore_le_of_noWeaker hfailing hfailing (.of_passing_elsewhere hpassing)

/-- A test that failed on the first line. -/
def failedReport : CoverageReport :=
  ⟨[⟨"T#a", false, [⟨"A.java", 1⟩]⟩]⟩

/-- The same with entries on another test, which passed on that line and failed elsewhere. -/
def mixedReport : CoverageReport :=
  ⟨[⟨"T#b", true, [⟨"A.java", 1⟩]⟩, ⟨"T#a", false, [⟨"A.java", 1⟩]⟩, ⟨"T#b", false, []⟩]⟩

/-- The other test counts as a failing one that covers the line. -/
theorem score_follows_evidence_of_mixed :
    failedReport.tests.length < wordCount ∧ failedReport.Adds "T#b" mixedReport ∧
      "T#b" ∈ mixedReport.suite.negative ∧ mixedReport.Covers "T#b" ⟨"A.java", 1⟩ ∧
      ∀ f, failedReport.exactScore f ⟨"A.java", 1⟩ ≤ mixedReport.exactScore f ⟨"A.java", 1⟩ := by
  have hadds : failedReport.Adds "T#b" mixedReport := by
    refine ⟨by decide, [⟨"T#b", true, [⟨"A.java", 1⟩]⟩, ⟨"T#b", false, []⟩], by decide, by decide,
      ?_⟩
    exact List.Perm.swap _ _ _
  have hnegative : "T#b" ∈ mixedReport.suite.negative := mem_negativeTests.mpr (by decide)
  have hcovers : mixedReport.Covers "T#b" ⟨"A.java", 1⟩ := by decide
  refine ⟨by decide, hadds, hnegative, hcovers, fun f => ?_⟩
  obtain ⟨-, -, -, hmoves⟩ := score_follows_evidence failedReport f ⟨"A.java", 1⟩
  obtain ⟨-, -, hraised, -⟩ := hmoves _ _ hadds
  exact hraised hnegative hcovers

end CoverageReport

end PatchSearch
