import PatchSearch.Proofs.Numbers.FloatRoot
import PatchSearch.Proofs.SortedList
import PatchSearch.Program.Suspicion

/-!
What fault localization makes of a coverage report. Entries are read as facts about tests: that a
test is reported with an outcome, and that it covers a location. Suites and spectra count tests by
these facts, so a report may repeat, split and reorder its entries as it likes. A location has a
score exactly when a negative test covers it, and the ranked list of scores descends strictly.
-/
namespace PatchSearch

open FloatOrder

namespace CoverageReport

/-- Some entry of a test covers a location. -/
def Covers (r : CoverageReport) (t : String) (l : Location) : Prop :=
  ∃ e ∈ r.tests, e.test = t ∧ l ∈ e.covered

instance (r : CoverageReport) (t : String) (l : Location) : Decidable (r.Covers t l) :=
  inferInstanceAs (Decidable (∃ e ∈ r.tests, e.test = t ∧ l ∈ e.covered))

variable {r r' : CoverageReport} {t : String} {l : Location}

theorem mem_negativeTests :
    t ∈ r.negativeTests ↔ ∃ e ∈ r.tests, e.test = t ∧ e.passed = false := by
  simp only [negativeTests, failing, mem_textSet, List.mem_map, List.mem_filter,
    Bool.not_eq_true']
  constructor
  · rintro ⟨e, ⟨he, hfailed⟩, rfl⟩
    exact ⟨e, he, rfl, hfailed⟩
  · rintro ⟨e, he, rfl, hfailed⟩
    exact ⟨e, ⟨he, hfailed⟩, rfl⟩

theorem mem_positiveTests :
    t ∈ r.positiveTests ↔
      (∃ e ∈ r.tests, e.test = t) ∧ ∀ e ∈ r.tests, e.test = t → e.passed = true := by
  simp only [positiveTests, passing, List.mem_filter, mem_textSet, List.mem_map,
    Bool.not_eq_true', List.contains_eq_mem, decide_eq_false_iff_not, mem_negativeTests]
  constructor
  · rintro ⟨⟨e, ⟨he, -⟩, rfl⟩, hnone⟩
    refine ⟨⟨e, he, rfl⟩, fun e' he' heq => ?_⟩
    by_contra hfailed
    exact hnone ⟨e', he', heq, by simpa using hfailed⟩
  · rintro ⟨⟨e, he, rfl⟩, hall⟩
    refine ⟨⟨e, ⟨he, hall e he rfl⟩, rfl⟩, ?_⟩
    rintro ⟨e', he', heq, hfailed⟩
    rw [hall e' he' heq] at hfailed
    cases hfailed

theorem mem_testsCovering : t ∈ r.testsCovering l ↔ r.Covers t l := by
  simp only [testsCovering, Covers, mem_textSet, List.mem_map, List.mem_filter,
    List.contains_eq_mem, decide_eq_true_eq]
  constructor
  · rintro ⟨e, ⟨he, hcovered⟩, rfl⟩
    exact ⟨e, he, rfl, hcovered⟩
  · rintro ⟨e, he, rfl, hcovered⟩
    exact ⟨e, ⟨he, hcovered⟩, rfl⟩

theorem mem_locations : l ∈ r.locations ↔ ∃ t, r.Covers t l := by
  unfold locations Location.setOf
  rw [mem_sortedSet, List.mem_flatMap]
  constructor
  · rintro ⟨e, he, hcovered⟩
    exact ⟨e.test, e, he, rfl, hcovered⟩
  · rintro ⟨t, e, he, -, hcovered⟩
    exact ⟨e, he, hcovered⟩

theorem nodup_positiveTests (r : CoverageReport) : r.positiveTests.Nodup :=
  (nodup_textSet _).filter _

/-- A test of the report is on exactly one side. -/
theorem mem_positiveTests_iff_not_mem_negativeTests (h : ∃ e ∈ r.tests, e.test = t) :
    t ∈ r.positiveTests ↔ t ∉ r.negativeTests := by
  rw [mem_positiveTests, mem_negativeTests, and_iff_right h]
  constructor
  · rintro hall ⟨e, he, heq, hfailed⟩
    rw [hall e he heq] at hfailed
    cases hfailed
  · intro hnone e he heq
    by_contra hfailed
    exact hnone ⟨e, he, heq, by simpa using hfailed⟩

/-- What a suite makes of the tests of a report: a test with an entry that failed is negative, one
all of whose entries passed is positive. -/
structure Classifies (r : CoverageReport) (s : TestSuite) : Prop where
  negative : ∀ t, t ∈ s.negative ↔ ∃ e ∈ r.tests, e.test = t ∧ e.passed = false
  positive : ∀ t, t ∈ s.positive ↔
    (∃ e ∈ r.tests, e.test = t) ∧ ∀ e ∈ r.tests, e.test = t → e.passed = true
  nodup_negative : s.negative.Nodup
  nodup_positive : s.positive.Nodup
  disjoint : s.positive.Disjoint s.negative
  covers : ∀ t, t ∈ s.positive ∨ t ∈ s.negative ↔ ∃ e ∈ r.tests, e.test = t

theorem classifies_suite (r : CoverageReport) : r.Classifies r.suite where
  negative _ := mem_negativeTests
  positive _ := mem_positiveTests
  nodup_negative := nodup_textSet _
  nodup_positive := r.nodup_positiveTests
  disjoint t hpositive hnegative :=
    (mem_positiveTests_iff_not_mem_negativeTests (mem_positiveTests.mp hpositive).1).mp hpositive
      hnegative
  covers t := by
    constructor
    · rintro (hpositive | hnegative)
      · exact (mem_positiveTests.mp hpositive).1
      · obtain ⟨e, he, heq, -⟩ := mem_negativeTests.mp hnegative
        exact ⟨e, he, heq⟩
    · intro hnamed
      by_cases hnegative : t ∈ r.negativeTests
      · exact Or.inr hnegative
      · exact Or.inl ((mem_positiveTests_iff_not_mem_negativeTests hnamed).mpr hnegative)

theorem overlap_suite (r : CoverageReport) : r.suite.overlap = [] := by
  unfold TestSuite.overlap
  rw [List.filter_eq_nil_iff]
  intro t hpositive hnegative
  exact r.classifies_suite.disjoint hpositive (List.contains_iff_mem.mp hnegative)

theorem negative_eq_nil_iff (r : CoverageReport) :
    r.suite.negative = [] ↔ ∀ e ∈ r.tests, e.passed = true := by
  rw [List.eq_nil_iff_forall_not_mem]
  constructor
  · intro hnone e he
    by_contra hfailed
    exact hnone e.test (mem_negativeTests.mpr ⟨e, he, rfl, by simpa using hfailed⟩)
  · intro hall t ht
    obtain ⟨e, he, -, hfailed⟩ := mem_negativeTests.mp ht
    rw [hall e he] at hfailed
    cases hfailed

/-- A spectrum counts the negative and the positive tests that cover a location, each once. -/
structure Counts (r : CoverageReport) (l : Location) (s : Spectrum) : Prop where
  failing : s.failing = (r.suite.negative.toFinset.filter (r.Covers · l)).card
  passing : s.passing = (r.suite.positive.toFinset.filter (r.Covers · l)).card
  failing_le : s.failing ≤ r.suite.negative.length
  passing_le : s.passing ≤ r.suite.positive.length

theorem counts_spectrum (r : CoverageReport) (l : Location) : r.Counts l (r.spectrum l) := by
  have hnodup : (r.testsCovering l).Nodup := nodup_textSet _
  have hfailing : (r.spectrum l).failing =
      (r.suite.negative.toFinset.filter (r.Covers · l)).card := by
    unfold spectrum
    dsimp only
    rw [← List.toFinset_card_of_nodup (hnodup.filter _)]
    congr 1
    ext t
    simp [mem_testsCovering, suite, and_comm]
  have hpassing : (r.spectrum l).passing =
      (r.suite.positive.toFinset.filter (r.Covers · l)).card := by
    unfold spectrum
    dsimp only
    rw [← List.toFinset_card_of_nodup (hnodup.filter _)]
    congr 1
    ext t
    simp only [List.mem_toFinset, List.mem_filter, Finset.mem_filter, mem_testsCovering,
      Bool.not_eq_true', List.contains_eq_mem, decide_eq_false_iff_not, suite]
    rw [and_comm]
    refine and_congr_left fun ⟨e, he, heq, _⟩ => ?_
    exact (mem_positiveTests_iff_not_mem_negativeTests ⟨e, he, heq⟩).symm
  refine ⟨hfailing, hpassing, ?_, ?_⟩
  · rw [hfailing]
    exact (Finset.card_filter_le _ _).trans (List.toFinset_card_le _)
  · rw [hpassing]
    exact (Finset.card_filter_le _ _).trans (List.toFinset_card_le _)

/-- A location with negative tests on it is covered by one of them. -/
theorem failing_pos_iff : 0 < (r.spectrum l).failing ↔ ∃ t ∈ r.negativeTests, r.Covers t l := by
  rw [(r.counts_spectrum l).failing, Finset.card_pos]
  constructor
  · rintro ⟨t, ht⟩
    obtain ⟨hnegative, hcovers⟩ := Finset.mem_filter.mp ht
    exact ⟨t, List.mem_toFinset.mp hnegative, hcovers⟩
  · rintro ⟨t, hnegative, hcovers⟩
    exact ⟨t, Finset.mem_filter.mpr ⟨List.mem_toFinset.mpr hnegative, hcovers⟩⟩

/-- There are no more tests on a side than the report has entries. -/
theorem length_le_of_named {names : List String} (hnodup : names.Nodup)
    (h : ∀ t ∈ names, ∃ e ∈ r.tests, e.test = t) : names.length ≤ r.tests.length := by
  have hsubset : names ⊆ r.tests.map (·.test) := fun t ht => List.mem_map.mpr (h t ht)
  have hle := (hnodup.subperm hsubset).length_le
  rwa [List.length_map] at hle

theorem length_negative_le (r : CoverageReport) : r.suite.negative.length ≤ r.tests.length :=
  length_le_of_named r.classifies_suite.nodup_negative fun t ht =>
    (r.classifies_suite.covers t).mp (Or.inr ht)

theorem length_positive_le (r : CoverageReport) : r.suite.positive.length ≤ r.tests.length :=
  length_le_of_named r.classifies_suite.nodup_positive fun t ht =>
    (r.classifies_suite.covers t).mp (Or.inl ht)

/-- Reports that state the same facts about their tests. -/
structure SameFacts (r r' : CoverageReport) : Prop where
  outcomes : ∀ t p, (∃ e ∈ r.tests, e.test = t ∧ e.passed = p) ↔
    ∃ e ∈ r'.tests, e.test = t ∧ e.passed = p
  covers : ∀ t l, r.Covers t l ↔ r'.Covers t l

theorem SameFacts.trans {r'' : CoverageReport} (h : r.SameFacts r') (h' : r'.SameFacts r'') :
    r.SameFacts r'' :=
  ⟨fun t p => (h.outcomes t p).trans (h'.outcomes t p),
    fun t l => (h.covers t l).trans (h'.covers t l)⟩

/-- Entries that may stand for one another: they state the same facts. -/
def SameEntries (es es' : List TestCoverage) : Prop :=
  (∀ t p, (∃ e ∈ es, e.test = t ∧ e.passed = p) ↔ ∃ e ∈ es', e.test = t ∧ e.passed = p) ∧
    ∀ t l, (∃ e ∈ es, e.test = t ∧ l ∈ e.covered) ↔ ∃ e ∈ es', e.test = t ∧ l ∈ e.covered

/-- Entries that state the same facts may stand for one another within a report. -/
theorem SameFacts.of_entries {es es' : List TestCoverage} (h : SameEntries es es')
    (before after : List TestCoverage) :
    SameFacts ⟨before ++ es ++ after⟩ ⟨before ++ es' ++ after⟩ := by
  have hreplace {P : TestCoverage → Prop} (hP : (∃ e ∈ es, P e) ↔ ∃ e ∈ es', P e) :
      (∃ e ∈ before ++ es ++ after, P e) ↔ ∃ e ∈ before ++ es' ++ after, P e := by
    simp only [List.mem_append, or_and_right, exists_or, hP]
  exact ⟨fun t p => hreplace (h.1 t p), fun t l => hreplace (h.2 t l)⟩

/-- Ways to write the same report: in another order, with an entry repeated, or with an entry split
over several of the same test and outcome that cover together what it covered. -/
inductive Rewritten : CoverageReport → CoverageReport → Prop
  | permuted {es es'} (perm : es.Perm es') : Rewritten ⟨es⟩ ⟨es'⟩
  | repeated {before after e} :
      Rewritten ⟨before ++ [e] ++ after⟩ ⟨before ++ [e, e] ++ after⟩
  | split {before after e parts} (some : parts ≠ [])
      (same : ∀ p ∈ parts, p.test = e.test ∧ p.passed = e.passed)
      (covered : ∀ l, l ∈ e.covered ↔ ∃ p ∈ parts, l ∈ p.covered) :
      Rewritten ⟨before ++ [e] ++ after⟩ ⟨before ++ parts ++ after⟩

theorem Rewritten.sameFacts (h : Rewritten r r') : r.SameFacts r' := by
  cases h with
  | permuted perm =>
    have hmem {P : TestCoverage → Prop} : (∃ e ∈ _, P e) ↔ ∃ e ∈ _, P e :=
      exists_congr fun e => and_congr_left fun _ => perm.mem_iff
    exact ⟨fun _ _ => hmem, fun _ _ => hmem⟩
  | repeated => exact .of_entries ⟨by simp, by simp⟩ _ _
  | @split before after e parts some same covered =>
    refine .of_entries ⟨fun t p => ?_, fun t l => ?_⟩ before after
    · obtain ⟨q, hq⟩ := List.exists_mem_of_ne_nil parts some
      obtain ⟨hname, hpassed⟩ := same q hq
      constructor
      · rintro ⟨e', he', rfl, rfl⟩
        rw [List.mem_singleton.mp he']
        exact ⟨q, hq, hname, hpassed⟩
      · rintro ⟨q', hq', rfl, rfl⟩
        exact ⟨e, List.mem_singleton_self e, (same q' hq').1.symm, (same q' hq').2.symm⟩
    · constructor
      · rintro ⟨e', he', rfl, hl⟩
        rw [List.mem_singleton.mp he'] at hl ⊢
        obtain ⟨q, hq, hl⟩ := (covered l).mp hl
        exact ⟨q, hq, (same q hq).1, hl⟩
      · rintro ⟨q, hq, rfl, hl⟩
        exact ⟨e, List.mem_singleton_self e, (same q hq).1.symm, (covered l).mpr ⟨q, hq, hl⟩⟩

namespace SameFacts

theorem suite (h : r.SameFacts r') : r.suite = r'.suite := by
  have hnegative : r.negativeTests = r'.negativeTests := by
    refine textSet_ext fun t => ?_
    exact mem_negativeTests.trans ((h.outcomes t false).trans mem_negativeTests.symm)
  have hpassing : textSet (r.passing.map (·.test)) = textSet (r'.passing.map (·.test)) := by
    refine textSet_ext fun t => ?_
    have hfact := h.outcomes t true
    simpa only [passing, mem_textSet, List.mem_map, List.mem_filter, and_assoc, and_comm,
      and_left_comm] using hfact
  unfold CoverageReport.suite positiveTests
  rw [hnegative, hpassing]

theorem spectrum (h : r.SameFacts r') (l : Location) : r.spectrum l = r'.spectrum l := by
  have hnegative : r.negativeTests = r'.negativeTests := congrArg TestSuite.negative h.suite
  have htests : r.testsCovering l = r'.testsCovering l := by
    refine textSet_ext fun t => ?_
    exact mem_testsCovering.trans ((h.covers t l).trans mem_testsCovering.symm)
  unfold CoverageReport.spectrum
  rw [hnegative, htests]

theorem locations (h : r.SameFacts r') : r.locations = r'.locations := by
  refine Location.orders_le.sortedSet_ext fun l => ?_
  exact mem_locations.trans ((exists_congr fun t => h.covers t l).trans mem_locations.symm)

end SameFacts

end CoverageReport

/-- The facts of a report decide its localization. -/
theorem CoverageReport.SameFacts.localization {r r' : CoverageReport} (h : r.SameFacts r')
    (f : Formula) : Localization.ofReport r f = Localization.ofReport r' f := by
  unfold Localization.ofReport
  simp only [h.suite, h.spectrum, h.locations]

section Scores

variable {ef ep nf totalFailed totalPassed : ℕ}

theorem ochiai_between (hpos : 0 < ef) (hef : ef < wordCount) (hep : ep < wordCount)
    (hnf : nf < wordCount) : Between (-66) 65 (ochiai ef ep nf : Float) := by
  have hfailing := between_ofNat hpos hef
  obtain ⟨hfinite, hnonneg, hle⟩ := ofNat_bounds hep
  obtain ⟨hfinite', hnonneg', hle'⟩ := ofNat_bounds hnf
  have hrun := hfailing.add hfinite hnonneg hle (by decide) (by decide)
  have hfailed := hfailing.add hfinite' hnonneg' hle' (by decide) (by decide)
  have hproduct : Between (2 * 0) (2 * 65)
      ((Float.ofNat ef + Float.ofNat ep) * (Float.ofNat ef + Float.ofNat nf)) :=
    hrun.mul hfailed (by decide) (by decide)
  have hroot := hproduct.sqrt (by decide) (by decide)
  have hscore := hfailing.div hroot (by decide) (by decide)
  unfold ochiai
  rw [if_neg hpos.ne']
  exact hscore

theorem tarantula_between (hpos : 0 < ef) (hef : ef ≤ totalFailed) (hep : ep ≤ totalPassed)
    (hfailed : totalFailed < wordCount) (hpassed : totalPassed < wordCount) :
    Between (-129) 128 (tarantula ef ep totalFailed totalPassed : Float) := by
  have hcount : 0 < totalFailed := hpos.trans_le hef
  have hratio : Between (-64) 64 (proportion ef totalFailed : Float) :=
    (between_ofNat hpos (hef.trans_lt hfailed)).div (between_ofNat hcount hfailed) (by decide)
      (by decide)
  have hshare : Within 1 (if 0 < totalPassed then proportion ep totalPassed
      else Arithmetic.ofNat 0 : Float) := by
    split
    · next hsome => exact within_proportion hep hsome (Or.inl (isFinite_ofNat hpassed))
    · obtain ⟨hfinite, hvalue⟩ := value_ofNat (n := 0) (by decide)
      change Within 1 (Float.ofNat 0)
      refine ⟨hfinite, ?_, ?_⟩ <;> rw [hvalue] <;> norm_num
  have hone : (1 : ℚ) ≤ 2 ^ (64 : ℤ) := one_le_zpow₀ one_le_two (by decide)
  have hsum := hratio.add hshare.1 hshare.2.1 (hshare.2.2.trans hone) (by decide) (by decide)
  have hscore := hratio.div hsum (by decide) (by decide)
  unfold tarantula
  rw [if_neg (by omega)]
  exact hscore

theorem Formula.score_of_no_failing (f : Formula) {s : Spectrum} (h : s.failing = 0) :
    f.score totalFailed totalPassed s = Float.ofNat 0 := by
  cases f with
  | ochiai => exact if_pos h
  | tarantula => exact if_pos (Or.inl h)

theorem Formula.score_of_failing (f : Formula) {s : Spectrum} (hpos : 0 < s.failing)
    (hfailing : s.failing ≤ totalFailed) (hpassing : s.passing ≤ totalPassed)
    (hfailed : totalFailed < wordCount) (hpassed : totalPassed < wordCount) :
    ∃ i j, Between i j (f.score totalFailed totalPassed s) := by
  cases f with
  | ochiai => exact ⟨_, _, ochiai_between hpos (by omega) (by omega) (by omega)⟩
  | tarantula => exact ⟨_, _, tarantula_between hpos hfailing hpassing hfailed hpassed⟩

end Scores

namespace ScoreMap

theorem rankLE_iff (a b : Location × Float) : rankLE a b = true ↔
    floatPlace b.2 < floatPlace a.2 ∨ floatPlace b.2 = floatPlace a.2 ∧ a.1.le b.1 = true := by
  have hcompare : Scalar.compareTotal b.2 a.2 = compare (floatPlace b.2) (floatPlace a.2) := rfl
  unfold rankLE
  rw [hcompare]
  rcases lt_trichotomy (floatPlace b.2) (floatPlace a.2) with h | h | h
  · simp [compare_lt_iff_lt.mpr h, h]
  · simp [h]
  · simp [compare_gt_iff_gt.mpr h, h.not_gt, h.ne']

theorem pairwise_mergeSort_rankLE (m : ScoreMap) :
    m.ranked.Pairwise fun a b => rankLE a b = true := by
  refine List.pairwise_mergeSort (fun a b c hab hbc => ?_) (fun a b => ?_) m
  · rw [rankLE_iff] at hab hbc ⊢
    rcases hab with hab | ⟨hab, hle⟩ <;> rcases hbc with hbc | ⟨hbc, hle'⟩
    · exact Or.inl (hbc.trans hab)
    · exact Or.inl (hbc ▸ hab)
    · exact Or.inl (hab ▸ hbc)
    · exact Or.inr ⟨hbc.trans hab, Location.orders_le.trans _ _ _ hle hle'⟩
  · rw [Bool.or_eq_true, rankLE_iff, rankLE_iff]
    have htotal := Location.orders_le.total a.1 b.1
    rw [Bool.or_eq_true] at htotal
    rcases lt_trichotomy (floatPlace b.2) (floatPlace a.2) with h | h | h
    · exact Or.inl (Or.inl h)
    · exact htotal.imp (fun hle => Or.inr ⟨h, hle⟩) fun hle => Or.inr ⟨h.symm, hle⟩
    · exact Or.inr (Or.inl h)

/-- Positive scores of distinct locations are ranked strictly: by descending score, and equal scores
by location. -/
theorem pairwise_ranked {m : ScoreMap} (hkeys : (m.map Prod.fst).Nodup)
    (hscores : ∀ e ∈ m, e.2.isFinite = true ∧ 0 < value e.2) :
    m.ranked.Pairwise fun a b => b.2 < a.2 ∨ a.2 = b.2 ∧ a.1.Before b.1 := by
  have hperm : m.ranked.Perm m := List.mergeSort_perm m rankLE
  have hdistinct : m.ranked.Pairwise fun a b => a.1 ≠ b.1 :=
    List.pairwise_map.mp ((hperm.map Prod.fst).nodup_iff.mpr hkeys)
  refine (m.pairwise_mergeSort_rankLE.and hdistinct).imp_of_mem fun {a b} ha hb h => ?_
  obtain ⟨hle, hne⟩ := h
  obtain ⟨hfinite, hpos⟩ := hscores a (hperm.mem_iff.mp ha)
  obtain ⟨hfinite', hpos'⟩ := hscores b (hperm.mem_iff.mp hb)
  unfold rankLE at hle
  rw [compareTotal_eq_compare hfinite' hfinite hpos'] at hle
  rcases lt_trichotomy (value b.2) (value a.2) with hlt | heq | hgt
  · exact Or.inl ((lt_iff_value_lt hfinite' hfinite).mpr hlt)
  · rw [compare_eq_iff_eq.mpr heq] at hle
    refine Or.inr ⟨eq_of_value_eq hfinite hfinite' hpos heq.symm, ?_⟩
    exact ((a.1.le_iff b.1).mp hle).resolve_right hne
  · rw [compare_gt_iff_gt.mpr hgt] at hle
    cases hle

theorem score?_map (f : Location → Float) (ls : List Location) (l : Location) :
    score? (ls.map fun l => (l, f l)) l = if l ∈ ls then some (f l) else none := by
  unfold score?
  induction ls with
  | nil => rfl
  | cons k ls ih =>
    rw [List.map_cons, List.lookup_cons, ih]
    by_cases h : l = k
    · simp [h]
    · simp [beq_false_of_ne h, h]

end ScoreMap

namespace Localization

variable (r : CoverageReport) (f : Formula)

/-- The score of a location by a formula. -/
def scoreOf (l : Location) : Float :=
  f.score r.suite.negative.length r.suite.positive.length (r.spectrum l)

theorem scoreOf_of_no_failing {l : Location} (h : (r.spectrum l).failing = 0) :
    ¬ 0.0 < scoreOf r f l := by
  have hzero : scoreOf r f l = Float.ofNat 0 := f.score_of_no_failing h
  obtain ⟨hfinite, hvalue⟩ := value_ofNat (n := 0) (by decide)
  rw [hzero, lt_iff_value_lt isFinite_zero hfinite, value_zero, hvalue]
  simp

variable {r}

theorem scoreOf_of_failing (hsize : r.tests.length < wordCount) {l : Location}
    (h : 0 < (r.spectrum l).failing) : ∃ i j, Between i j (scoreOf r f l) := by
  obtain ⟨-, -, hfailing, hpassing⟩ := r.counts_spectrum l
  exact f.score_of_failing h hfailing hpassing (r.length_negative_le.trans_lt hsize)
    (r.length_positive_le.trans_lt hsize)

/-- A score is positive exactly when a failing test executes the location. -/
theorem scoreOf_pos_iff (hsize : r.tests.length < wordCount) (l : Location) :
    0.0 < scoreOf r f l ↔ 0 < (r.spectrum l).failing := by
  constructor
  · intro hpos
    by_contra hnone
    exact scoreOf_of_no_failing r f (Nat.eq_zero_of_not_pos hnone) hpos
  · intro hpos
    obtain ⟨i, j, hbetween⟩ := scoreOf_of_failing f hsize hpos
    exact hbetween.lt

variable (r)

/-- The scores are those of the locations with a positive one. -/
theorem scores_ofReport : (ofReport r f).scores =
    (r.locations.filter fun l => decide (0.0 < scoreOf r f l)).map fun l => (l, scoreOf r f l) := by
  have hfilter : (fun l => decide (0.0 < scoreOf r f l)) =
      (fun e => decide (0.0 < e.2)) ∘ fun l => (l, scoreOf r f l) := rfl
  rw [hfilter, ← List.filter_map]
  unfold ofReport
  dsimp only
  split
  · next hnone =>
    symm
    rw [List.filter_eq_nil_iff]
    intro e he
    obtain ⟨l, -, rfl⟩ := List.mem_map.mp he
    have hfailing := (r.counts_spectrum l).failing_le
    rw [hnone] at hfailing
    exact mt of_decide_eq_true (scoreOf_of_no_failing r f (Nat.le_zero.mp hfailing))
  · rfl

variable {r}

/-- The scores of a report: those of the locations that a failing test executes. -/
theorem score?_ofReport (hsize : r.tests.length < wordCount) (l : Location) :
    (ofReport r f).scores.score? l =
      if 0 < (r.spectrum l).failing then some (scoreOf r f l) else none := by
  rw [scores_ofReport, ScoreMap.score?_map]
  by_cases hpos : 0 < (r.spectrum l).failing
  · obtain ⟨t, -, hcovers⟩ := CoverageReport.failing_pos_iff.mp hpos
    have hmem : l ∈ r.locations.filter fun l => decide (0.0 < scoreOf r f l) :=
      List.mem_filter.mpr ⟨CoverageReport.mem_locations.mpr ⟨t, hcovers⟩,
        decide_eq_true ((scoreOf_pos_iff f hsize l).mpr hpos)⟩
    rw [if_pos hmem, if_pos hpos]
  · have hmem : l ∉ r.locations.filter fun l => decide (0.0 < scoreOf r f l) := by
      intro hmem
      have hscore := of_decide_eq_true (List.mem_filter.mp hmem).2
      exact hpos ((scoreOf_pos_iff f hsize l).mp hscore)
    rw [if_neg hmem, if_neg hpos]

theorem nodup_scores (r : CoverageReport) (f : Formula) :
    ((ofReport r f).scores.map Prod.fst).Nodup := by
  rw [scores_ofReport, List.map_map]
  exact List.Nodup.map (fun _ _ h => h) ((Location.orders_le.nodup_sortedSet _).filter _)

theorem mem_scores (hsize : r.tests.length < wordCount) {e : Location × Float}
    (h : e ∈ (ofReport r f).scores) :
    0 < (r.spectrum e.1).failing ∧ e.2 = scoreOf r f e.1 := by
  rw [scores_ofReport] at h
  obtain ⟨l, hl, rfl⟩ := List.mem_map.mp h
  have hscore := of_decide_eq_true (List.mem_filter.mp hl).2
  exact ⟨(scoreOf_pos_iff f hsize l).mp hscore, rfl⟩

end Localization

end PatchSearch
