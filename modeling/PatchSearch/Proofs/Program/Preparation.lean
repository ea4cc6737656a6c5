import Mathlib.Logic.Relation
import PatchSearch.Proofs.Evaluation.Adequate
import PatchSearch.Proofs.Program.Localization
import PatchSearch.Proofs.Random.Draws
import PatchSearch.Session

/-!
From coverage to a program model. Preparing a session ends in one of a few ways, each with its own
error. The points of a catalog that survive are those at a location that a failing test executes and
with a score that reaches the threshold; trimming keeps the best of them, the ones that a stable
ranking by descending score puts first.
-/
namespace PatchSearch

open FloatOrder

variable {α σ : Type} [Scalar α]

/-- How the preparation of a session ends: the suite is refused, no point is suspicious, files
cannot be read or written, or there is a search over the trimmed points. -/
inductive RepairSession.Prepared (s : RepairSession) (sources : Sources) :
    Except RepairError (Search α σ × Engine α σ) → Prop
  | unguided (tests : s.localization.tests.negative = []) :
      Prepared s sources (.error (.model .noFailingTests))
  | overlapping (tests : s.localization.tests.negative ≠ [])
      (overlap : s.localization.tests.overlap ≠ []) :
      Prepared s sources (.error (.model (.overlappingTests s.localization.tests.overlap.length)))
  | pointless (tests : s.localization.tests.negative ≠ [])
      (points : suspiciousPoints s.catalog
        (s.localization.suspicious s.config.localization.threshold) = []) :
      Prepared s sources (.error (.model .noModificationPoints))
  | unread {e} (tests : s.localization.tests.negative ≠ [])
      (points : suspiciousPoints s.catalog
        (s.localization.suspicious s.config.localization.threshold) ≠ [])
      (stored : (∃ path, sources = .root path) ∨ s.config.output.patchDir ≠ none) :
      Prepared s sources (.error (.io e))
  | ready {search engine g} (tests : s.localization.tests.negative ≠ [])
      (points : suspiciousPoints s.catalog
        (s.localization.suspicious s.config.localization.threshold) ≠ [])
      (model : search.setup.model.points = (trim (suspiciousPoints s.catalog
        (s.localization.suspicious s.config.localization.threshold))
          s.config.localization.maxPoints g).1.map Point.normalize) :
      Prepared s sources (.ok (search, engine))

omit [Scalar α] in
theorem RepairSession.readSources_error {files : Storage σ} {model : ProgramModel} {world : σ}
    {sources : Sources} {e : RepairError} (h : readSources files model world sources = .error e) :
    ∃ cause, e = .io cause ∧ ∃ path, sources = .root path := by
  cases sources with
  | inMemory tree => cases h
  | root path =>
    simp only [readSources] at h
    split at h
    · cases h
    · cases h
      exact ⟨_, rfl, path, rfl⟩

omit [Scalar α] in
theorem RepairSession.openStore_error {files : Storage σ} {output : OutputConfig} {world : σ}
    {e : RepairError} (h : openStore files output world = .error e) :
    ∃ cause, e = .io cause ∧ output.patchDir ≠ none := by
  unfold openStore at h
  split at h
  · cases h
  · next hdir =>
    split at h
    · cases h
    · cases h
      exact ⟨_, rfl, by rw [hdir]; nofun⟩

/-- Every preparation ends in one of these ways. -/
theorem RepairSession.prepare_prepared (s : RepairSession) (tools : Toolchain σ)
    (notify : SearchProgress α → σ → σ) (sources : Sources) (entropy : UInt64) (world : σ) :
    s.Prepared sources (s.prepare tools notify sources entropy world) := by
  unfold prepare
  dsimp only
  by_cases hnegative : s.localization.tests.negative = []
  · have hsuite : checkSuite s.localization.tests = .error (.model .noFailingTests) :=
      if_pos (List.isEmpty_iff.mpr hnegative)
    rw [hsuite]
    exact .unguided hnegative
  by_cases hoverlap : s.localization.tests.overlap = []
  swap
  · have hsuite : checkSuite s.localization.tests =
        .error (.model (.overlappingTests s.localization.tests.overlap.length)) := by
      unfold checkSuite
      rw [if_neg (by simpa using hnegative), if_pos (List.length_pos_of_ne_nil hoverlap)]
    rw [hsuite]
    exact .overlapping hnegative hoverlap
  have hsuite : checkSuite s.localization.tests = .ok () := by
    unfold checkSuite
    rw [if_neg (by simpa using hnegative), if_neg (by simp [hoverlap])]
  rw [hsuite]
  by_cases hpoints : suspiciousPoints s.catalog
      (s.localization.suspicious s.config.localization.threshold) = []
  · have hmodel (g : Random) : s.model g = .error (.model .noModificationPoints) := by
      unfold model ProgramModel.ofCatalog
      simp [hpoints]
    simp only [hmodel]
    exact .pointless hnegative hpoints
  have hmodel (g : Random) : s.model g = .ok
      (⟨(trim (suspiciousPoints s.catalog
        (s.localization.suspicious s.config.localization.threshold))
          s.config.localization.maxPoints g).1.map Point.normalize⟩,
        (trim (suspiciousPoints s.catalog
          (s.localization.suspicious s.config.localization.threshold))
            s.config.localization.maxPoints g).2) := by
    unfold model ProgramModel.ofCatalog
    dsimp only
    rw [if_neg (by simpa using hpoints)]
  simp only [hmodel]
  -- What is left are two steps that can fail, and those only for files.
  generalize Random.ofSeed _ = g
  change s.Prepared sources (readSources tools.files _ world sources >>= fun tree => _)
  rcases hread : readSources tools.files _ world sources with e | tree
  · obtain ⟨e, rfl, hroot⟩ := readSources_error hread
    exact .unread hnegative hpoints (Or.inl hroot)
  change s.Prepared sources (openStore tools.files s.config.output world >>= fun store => _)
  rcases hstore : openStore tools.files s.config.output world with e | ⟨store, world'⟩
  · obtain ⟨e, rfl, hdir⟩ := openStore_error hstore
    exact .unread hnegative hpoints (Or.inr hdir)
  exact .ready hnegative hpoints rfl

section Outcome

omit [Scalar α]

variable {s : RepairSession} {sources : Sources}
variable {answer : Except RepairError (Search α σ × Engine α σ)}

theorem RepairSession.Prepared.noFailingTests_iff (h : s.Prepared sources answer) :
    answer = .error (.model .noFailingTests) ↔ s.localization.tests.negative = [] := by
  cases h with
  | unguided tests => exact iff_of_true rfl tests
  | overlapping tests _ | pointless tests _ | unread tests _ _ | ready tests _ _ =>
    exact iff_of_false (fun hfails => by cases hfails) tests

theorem RepairSession.Prepared.noModificationPoints_iff (h : s.Prepared sources answer)
    (htests : s.localization.tests.negative ≠ []) (hoverlap : s.localization.tests.overlap = []) :
    answer = .error (.model .noModificationPoints) ↔ suspiciousPoints s.catalog
      (s.localization.suspicious s.config.localization.threshold) = [] := by
  cases h with
  | unguided tests => exact absurd tests htests
  | overlapping _ overlap => exact absurd hoverlap overlap
  | pointless _ points => exact iff_of_true rfl points
  | unread _ points _ | ready _ points _ =>
    exact iff_of_false (fun hfails => by cases hfails) points

/-- With a guiding suite and a suspicious point only the files can stand in the way of a search. -/
theorem RepairSession.Prepared.ready_or_unread (h : s.Prepared sources answer)
    (htests : s.localization.tests.negative ≠ []) (hoverlap : s.localization.tests.overlap = [])
    (hpoints : suspiciousPoints s.catalog
      (s.localization.suspicious s.config.localization.threshold) ≠ []) :
    (∃ search engine, answer = .ok (search, engine)) ∨
      (∃ e, answer = .error (.io e)) ∧
        ((∃ path, sources = .root path) ∨ s.config.output.patchDir ≠ none) := by
  cases h with
  | unguided tests => exact absurd tests htests
  | overlapping _ overlap => exact absurd hoverlap overlap
  | pointless _ points => exact absurd points hpoints
  | @unread e _ _ stored => exact Or.inr ⟨⟨e, rfl⟩, stored⟩
  | @ready search engine _ _ _ _ => exact Or.inl ⟨search, engine, rfl⟩

theorem RepairSession.Prepared.model_points (h : s.Prepared sources answer) {search : Search α σ}
    {engine : Engine α σ} (hready : answer = .ok (search, engine)) :
    ∃ g, search.setup.model.points = (trim (suspiciousPoints s.catalog
      (s.localization.suspicious s.config.localization.threshold))
        s.config.localization.maxPoints g).1.map Point.normalize := by
  cases h with
  | unguided | overlapping | pointless | unread => cases hready
  | @ready _ _ g _ _ model =>
    cases hready
    exact ⟨g, model⟩

end Outcome

/-- Fault localization counts tests, not entries. A test is negative as soon as one of its entries
failed, so no test is on both sides and preparing a session never finds one that is. Spectra count
the tests of either side that some entry of theirs puts on a location. If a machine word can count
the entries, a location has a score by either formula exactly when a negative test covers it, and
the ranked scores descend strictly, by score and then by location. Nothing changes when entries are
permuted, repeated or split. -/
theorem report_counts_tests (r : CoverageReport) :
    r.Classifies r.suite ∧
    (∀ (f : Formula) (config : RepairConfig) (catalog : List Point) (tools : Toolchain σ)
      (notify : SearchProgress α → σ → σ) (sources : Sources) (entropy : UInt64) (world : σ)
      (n : ℕ),
      RepairSession.prepare ⟨config, .ofReport r f, catalog⟩ tools notify sources entropy world ≠
        .error (.model (.overlappingTests n))) ∧
    (∀ l, r.Counts l (r.spectrum l)) ∧
    (r.tests.length < wordCount → ∀ f : Formula,
      (∀ l, ((Localization.ofReport r f).scores.score? l).isSome ↔ 0 < (r.spectrum l).failing) ∧
      (Localization.ofReport r f).scores.ranked.Perm (Localization.ofReport r f).scores ∧
      (Localization.ofReport r f).scores.ranked.Pairwise fun a b =>
        b.2 < a.2 ∨ a.2 = b.2 ∧ a.1.Before b.1) ∧
    ∀ r', Relation.ReflTransGen CoverageReport.Rewritten r r' → ∀ f : Formula,
      Localization.ofReport r' f = Localization.ofReport r f := by
  refine ⟨r.classifies_suite, fun f config catalog tools notify sources entropy world n hprepared =>
    ?_, r.counts_spectrum, fun hsize f => ⟨fun l => ?_, ?_, ?_⟩, fun r' hsteps f => ?_⟩
  · have hends := RepairSession.prepare_prepared ⟨config, .ofReport r f, catalog⟩ tools notify
      sources entropy world
    rw [hprepared] at hends
    cases hends with
    | overlapping _ overlap => exact overlap r.overlap_suite
  · rw [Localization.score?_ofReport f hsize]
    split
    · next hpos => exact iff_of_true rfl hpos
    · next hnone => exact iff_of_false Bool.false_ne_true hnone
  · exact List.mergeSort_perm _ _
  · refine ScoreMap.pairwise_ranked (Localization.nodup_scores r f) fun e he => ?_
    obtain ⟨hpos, hscore⟩ := Localization.mem_scores f hsize he
    obtain ⟨i, j, hbetween⟩ := Localization.scoreOf_of_failing f hsize hpos
    rw [hscore]
    exact ⟨hbetween.finite, hbetween.pos⟩
  · have hfacts : r.SameFacts r' := by
      induction hsteps with
      | refl => exact ⟨fun _ _ => Iff.rfl, fun _ _ => Iff.rfl⟩
      | tail _ step ih => exact ih.trans step.sameFacts
    exact (hfacts.localization f).symm

/-- A test that is reported passing on one line and failing on another, beside one that passes. -/
def clashReport : CoverageReport :=
  ⟨[⟨"T#a", true, [⟨"A.java", 1⟩]⟩, ⟨"T#a", false, [⟨"A.java", 2⟩]⟩,
    ⟨"T#b", true, [⟨"A.java", 1⟩, ⟨"A.java", 1⟩]⟩, ⟨"T#b", true, [⟨"A.java", 3⟩]⟩]⟩

/-- The entry that passed counts as failing on the first line, and both lines are ranked. -/
theorem report_counts_tests_of_clash :
    clashReport.tests.length < wordCount ∧
      clashReport.spectrum ⟨"A.java", 1⟩ = ⟨1, 1⟩ ∧
      ((Localization.ofReport clashReport .ochiai).scores.score? ⟨"A.java", 1⟩).isSome ∧
      (Localization.ofReport clashReport .ochiai).scores.ranked.Pairwise fun a b =>
        b.2 < a.2 ∨ a.2 = b.2 ∧ a.1.Before b.1 := by
  have hsize : clashReport.tests.length < wordCount := by decide
  have hspectrum : clashReport.spectrum ⟨"A.java", 1⟩ = ⟨1, 1⟩ := by cbv
  obtain ⟨-, -, -, hscores, -⟩ := report_counts_tests (α := Float) (σ := Unit) clashReport
  obtain ⟨hscored, -, hranked⟩ := hscores hsize .ochiai
  refine ⟨hsize, hspectrum, (hscored _).mpr ?_, hranked⟩
  rw [hspectrum]
  exact Nat.one_pos

section Trimming

theorem Point.suspicionGE_iff (p q : Point) :
    p.suspicionGE q = true ↔ floatPlace q.suspiciousness ≤ floatPlace p.suspiciousness :=
  totalLE_iff _ _

theorem Point.suspicionGE_total (p q : Point) : (p.suspicionGE q || q.suspicionGE p) = true := by
  rw [Bool.or_eq_true, suspicionGE_iff, suspicionGE_iff]
  exact le_total _ _

theorem Point.suspicionGE_trans (p q s : Point) (hpq : p.suspicionGE q = true)
    (hqs : q.suspicionGE s = true) : p.suspicionGE s = true := by
  rw [suspicionGE_iff] at hpq hqs ⊢
  exact hqs.trans hpq

/-- Trimming keeps as many points as fit, and the most suspicious ones. -/
theorem trim_spec (points : List Point) (budget : ℕ) (g : Random) :
    (trim points budget g).1.length = min budget points.length ∧
      ∃ left, ((trim points budget g).1 ++ left).Perm points ∧
        ∀ p ∈ (trim points budget g).1, ∀ q ∈ left, p.suspicionGE q = true := by
  unfold trim
  by_cases hfits : points.length ≤ budget
  · rw [if_pos hfits]
    refine ⟨(Nat.min_eq_right hfits).symm, [], ?_, nofun⟩
    rw [List.append_nil]
  · rw [if_neg hfits]
    have hshuffled := Random.shuffle_perm ((points.mergeSort Point.suspicionGE).take budget) g
    have hsorted := List.pairwise_mergeSort Point.suspicionGE_trans Point.suspicionGE_total points
    refine ⟨?_, (points.mergeSort Point.suspicionGE).drop budget, ?_, fun p hp q hq => ?_⟩
    · rw [hshuffled.length_eq, List.length_take, List.length_mergeSort]
    · refine (hshuffled.append_right _).trans ?_
      rw [List.take_append_drop]
      exact List.mergeSort_perm _ _
    · rw [← List.take_append_drop budget (points.mergeSort Point.suspicionGE),
        List.pairwise_append] at hsorted
      exact hsorted.2.2 p (hshuffled.mem_iff.mp hp) q hq

/-- A point with its place in a list comes before another one: it has the higher score in the total
order, or it has the same score and stands earlier. -/
def Point.Precedes (a b : Point × ℕ) : Prop :=
  floatPlace b.1.suspiciousness < floatPlace a.1.suspiciousness ∨
    floatPlace a.1.suspiciousness = floatPlace b.1.suspiciousness ∧ a.2 < b.2

/-- A stable ranking of points by descending score: all of them with their places, and each before
the ones it precedes. -/
structure Ranking (points : List Point) (ranked : List (Point × ℕ)) : Prop where
  perm : ranked.Perm points.zipIdx
  descends : ranked.Pairwise Point.Precedes

theorem Ranking.unique {points : List Point} {ranked ranked' : List (Point × ℕ)}
    (h : Ranking points ranked) (h' : Ranking points ranked') : ranked = ranked' := by
  refine (h.perm.trans h'.perm.symm).eq_of_pairwise (fun a b _ _ hab hba => ?_) h.descends h'.descends
  unfold Point.Precedes at hab hba
  omega

/-- Sorting points with their places ranks them. -/
theorem ranking_mergeSort (points : List Point) :
    Ranking points (points.zipIdx.mergeSort (List.zipIdxLE Point.suspicionGE)) := by
  have hperm := List.mergeSort_perm points.zipIdx (List.zipIdxLE Point.suspicionGE)
  have hplaces : points.zipIdx.Pairwise fun a b => a.2 ≠ b.2 := by
    have hnodup : (points.zipIdx.map Prod.snd).Nodup := by
      rw [List.zipIdx_map_snd]
      exact List.nodup_range'
    exact List.pairwise_map.mp hnodup
  have hdistinct := hplaces.perm hperm.symm fun hne => hne.symm
  have hsorted := List.pairwise_mergeSort (List.zipIdxLE_trans Point.suspicionGE_trans)
    (List.zipIdxLE_total Point.suspicionGE_total) points.zipIdx
  refine ⟨hperm, (hsorted.and hdistinct).imp fun {a b} h => ?_⟩
  obtain ⟨hle, hne⟩ := h
  unfold List.zipIdxLE at hle
  unfold Point.Precedes
  split at hle
  · next hge =>
    rw [Point.suspicionGE_iff] at hge
    split at hle
    · next hle' =>
      rw [Point.suspicionGE_iff] at hle'
      have hplace := of_decide_eq_true hle
      omega
    · next hlt =>
      rw [Point.suspicionGE_iff] at hlt
      omega
  · cases hle

/-- Trimming keeps exactly the most suspicious points. Points within the budget are left as they are
and nothing is drawn. Of more points there is one stable ranking by descending score in the total
order, where the value that is no number comes first and the two zeros are apart. For every random
source as many are kept as the budget allows, which are, in some order, those ranked first. What is
left out is ranked behind, so it has no higher score than what is kept, also not as a number, and of
an equal score the points that stood earlier are kept. -/
theorem trim_keeps_first (points : List Point) (budget : ℕ) (g : Random) :
    (points.length ≤ budget → trim points budget g = (points, g)) ∧
    (budget < points.length → ∃ ranked, Ranking points ranked ∧
      (∀ other, Ranking points other → other = ranked) ∧
      (trim points budget g).1.length = budget ∧
      (trim points budget g).1.Perm ((ranked.take budget).map Prod.fst) ∧
      ((trim points budget g).1 ++ (ranked.drop budget).map Prod.fst).Perm points ∧
      ∀ kept ∈ ranked.take budget, ∀ dropped ∈ ranked.drop budget, Point.Precedes kept dropped ∧
        ¬ kept.1.suspiciousness < dropped.1.suspiciousness) := by
  refine ⟨trim_of_length_le points budget g, fun hover => ?_⟩
  have hranking := ranking_mergeSort points
  have hsorted : (points.zipIdx.mergeSort (List.zipIdxLE Point.suspicionGE)).map Prod.fst =
      points.mergeSort Point.suspicionGE := List.mergeSort_zipIdx
  generalize points.zipIdx.mergeSort (List.zipIdxLE Point.suspicionGE) = ranked at *
  have hkept : (trim points budget g).1.Perm ((ranked.take budget).map Prod.fst) := by
    unfold trim
    rw [if_neg hover.not_ge, List.map_take, hsorted]
    exact Random.shuffle_perm _ g
  refine ⟨ranked, hranking, fun other h => h.unique hranking, ?_, hkept, ?_,
    fun kept hk dropped hd => ?_⟩
  · rw [hkept.length_eq, List.length_map, List.length_take, hranking.perm.length_eq,
      List.length_zipIdx]
    omega
  · refine (hkept.append_right _).trans ?_
    rw [← List.map_append, List.take_append_drop, hsorted]
    exact List.mergeSort_perm points Point.suspicionGE
  · have hdescends := hranking.descends
    rw [← List.take_append_drop budget ranked, List.pairwise_append] at hdescends
    have hprecedes := hdescends.2.2 kept hk dropped hd
    refine ⟨hprecedes, fun hlt => ?_⟩
    have hplace := place_lt_of_lt hlt
    unfold Point.Precedes at hprecedes
    omega

/-- A point of a file with so much suspicion. -/
def scoredPoint (line : ℕ) (suspiciousness : Float) : Point :=
  ⟨⟨"A.java", line⟩, "", suspiciousness, [], [.delete]⟩

/-- Of a negative zero, two zeros and a score that is no number the last one and the first zero are
kept. -/
theorem trim_keeps_first_of_zeros :
    let points := [scoredPoint 1 (-0.0), scoredPoint 2 0.0, scoredPoint 3 0.0,
      scoredPoint 4 (0.0 / 0.0)]
    2 < points.length ∧
      ∀ g, (trim points 2 g).1.Perm [scoredPoint 4 (0.0 / 0.0), scoredPoint 2 0.0] := by
  intro points
  refine ⟨by decide, fun g => ?_⟩
  obtain ⟨ranked, -, hunique, -, hkept, -⟩ := (trim_keeps_first points 2 g).2 (by decide)
  have hranking : Ranking points [(scoredPoint 4 (0.0 / 0.0), 3), (scoredPoint 2 0.0, 1),
      (scoredPoint 3 0.0, 2), (scoredPoint 1 (-0.0), 0)] := by
    constructor
    · change ([(scoredPoint 4 (0.0 / 0.0), 3)] ++ ([(scoredPoint 2 0.0, 1), (scoredPoint 3 0.0, 2)] ++
        [(scoredPoint 1 (-0.0), 0)])).Perm (([(scoredPoint 1 (-0.0), 0)] ++
          [(scoredPoint 2 0.0, 1), (scoredPoint 3 0.0, 2)]) ++ [(scoredPoint 4 (0.0 / 0.0), 3)])
      exact List.perm_append_comm.trans (List.perm_append_comm.append_right _)
    · have hnone : floatPlace 0.0 < floatPlace (0.0 / 0.0) := by decide +kernel
      have hsign : floatPlace (-0.0) < floatPlace 0.0 := by decide +kernel
      have hlowest := hsign.trans hnone
      simp [Point.Precedes, scoredPoint, hnone, hsign, hlowest]
  rwa [← hunique _ hranking] at hkept

end Trimming

section Narrowing

variable {r : CoverageReport} {f : Formula} {threshold : Float}

/-- A point may be kept: a failing test executes its location, whose score reaches the threshold. -/
def Point.Eligible (r : CoverageReport) (f : Formula) (threshold : Float) (p : Point) : Prop :=
  (∃ t ∈ r.suite.negative, r.Covers t p.location) ∧
    threshold ≤ Localization.scoreOf r f p.location

instance (r : CoverageReport) (f : Formula) (threshold : Float) :
    DecidablePred (Point.Eligible r f threshold) := fun p =>
  inferInstanceAs (Decidable (_ ∧ threshold ≤ Localization.scoreOf r f p.location))

/-- A point with the score of its location. -/
def Point.scored (r : CoverageReport) (f : Formula) (p : Point) : Point :=
  p.withSuspiciousness (Localization.scoreOf r f p.location)

/-- The eligible points of a catalog, with their scores. -/
def eligiblePoints (r : CoverageReport) (f : Formula) (threshold : Float) (catalog : List Point) :
    List Point :=
  (catalog.filter (Point.Eligible r f threshold ·)).map (Point.scored r f)

theorem score?_suspicious (hsize : r.tests.length < wordCount) (p : Point) :
    ((Localization.ofReport r f).suspicious threshold).score? p.location =
      if p.Eligible r f threshold then some (Localization.scoreOf r f p.location) else none := by
  have hfilter : (fun e : Location × Float => decide (threshold ≤ e.2)) ∘
      (fun l => (l, Localization.scoreOf r f l)) =
        fun l => decide (threshold ≤ Localization.scoreOf r f l) := rfl
  unfold Localization.suspicious ScoreMap.atLeast
  rw [Localization.scores_ofReport, List.filter_map, hfilter, ScoreMap.score?_map]
  have hiff : (p.location ∈ (r.locations.filter fun l =>
      decide (0.0 < Localization.scoreOf r f l)).filter fun l =>
        decide (threshold ≤ Localization.scoreOf r f l)) ↔ p.Eligible r f threshold := by
    rw [List.mem_filter, List.mem_filter, decide_eq_true_eq, decide_eq_true_eq,
      Localization.scoreOf_pos_iff f hsize, CoverageReport.failing_pos_iff,
      CoverageReport.mem_locations]
    constructor
    · exact fun ⟨⟨_, hfailing⟩, hscore⟩ => ⟨hfailing, hscore⟩
    · exact fun ⟨⟨t, hnegative, hcovers⟩, hscore⟩ => ⟨⟨⟨t, hcovers⟩, t, hnegative, hcovers⟩, hscore⟩
  by_cases h : p.Eligible r f threshold
  · rw [if_pos h, if_pos (hiff.mpr h)]
  · rw [if_neg h, if_neg (mt hiff.mp h)]

/-- The suspicious points of a catalog are its eligible ones, with the scores of their locations. -/
theorem suspiciousPoints_ofReport (hsize : r.tests.length < wordCount) (catalog : List Point) :
    suspiciousPoints catalog ((Localization.ofReport r f).suspicious threshold) =
      eligiblePoints r f threshold catalog := by
  unfold suspiciousPoints eligiblePoints
  induction catalog with
  | nil => rfl
  | cons p ps ih =>
    rw [List.filterMap_cons, ih, score?_suspicious hsize]
    by_cases h : p.Eligible r f threshold
    · rw [if_pos h, List.filter_cons_of_pos (by simpa using h)]
      rfl
    · rw [if_neg h, List.filter_cons_of_neg (by simpa using h)]
      rfl

/-- Some points are the best of others: as many as fit, none with a lower score than one left out,
and all of them, as they are, when all fit. -/
structure BestOf (limit : ℕ) (points kept : List Point) : Prop where
  length : kept.length = min limit points.length
  best : ∃ left, (kept ++ left).Perm points ∧
    ∀ p ∈ kept, ∀ q ∈ left, ¬ p.suspiciousness < q.suspiciousness
  whole : points.length ≤ limit → kept = points

theorem bestOf_trim {points : List Point} (budget : ℕ) (g : Random)
    (hfinite : ∀ p ∈ points, p.suspiciousness.isFinite = true) :
    BestOf budget points (trim points budget g).1 := by
  obtain ⟨hlength, left, hperm, hbest⟩ := trim_spec points budget g
  refine ⟨hlength, ⟨left, hperm, fun p hp q hq hlt => ?_⟩, fun hfits => ?_⟩
  · have hp' := hfinite p (hperm.mem_iff.mp (List.mem_append_left _ hp))
    have hq' := hfinite q (hperm.mem_iff.mp (List.mem_append_right _ hq))
    have hplace := (totalLE_iff _ _).mp (hbest p hp q hq)
    exact (value_le_of_place_le hq' hp' hplace).not_gt ((lt_iff_value_lt hp' hq').mp hlt)
  · rw [trim_of_length_le _ _ _ hfits]

theorem isFinite_of_mem_eligiblePoints (hsize : r.tests.length < wordCount) {catalog : List Point}
    {p : Point} (h : p ∈ eligiblePoints r f threshold catalog) :
    p.suspiciousness.isFinite = true := by
  obtain ⟨q, hq, rfl⟩ := List.mem_map.mp h
  obtain ⟨hfailing, -⟩ := of_decide_eq_true (List.mem_filter.mp hq).2
  obtain ⟨i, j, hbetween⟩ :=
    Localization.scoreOf_of_failing f hsize (CoverageReport.failing_pos_iff.mpr hfailing)
  exact hbetween.finite

theorem eligiblePoints_eq_nil_iff {catalog : List Point} :
    eligiblePoints r f threshold catalog = [] ↔ ∀ p ∈ catalog, ¬ p.Eligible r f threshold := by
  unfold eligiblePoints
  rw [List.map_eq_nil_iff, List.filter_eq_nil_iff]
  simp only [decide_eq_true_eq]

/-- A prepared model holds the best of the eligible points of a catalog: those at a location that a
failing test executes and whose score reaches the threshold. For every report whose entries a
machine word can count, preparing a session fails for want of failing tests exactly when no test
fails, and else for want of points exactly when none is eligible. Else it ends with a search or, if
files are to be read or written, with an error about these. The points of the search are, before
their operators are normalized, the best of the eligible points, each with the score of its
location, as many as are allowed. -/
theorem prepared_model (r : CoverageReport) (hsize : r.tests.length < wordCount) (f : Formula)
    (config : RepairConfig) (catalog : List Point) (tools : Toolchain σ)
    (notify : SearchProgress α → σ → σ) (sources : Sources) (entropy : UInt64) (world : σ) :
    let answer := RepairSession.prepare ⟨config, .ofReport r f, catalog⟩ tools notify sources
      entropy world
    let threshold := config.localization.threshold
    (answer = .error (.model .noFailingTests) ↔ ∀ e ∈ r.tests, e.passed = true) ∧
    ((∃ e ∈ r.tests, e.passed = false) →
      (answer = .error (.model .noModificationPoints) ↔
        ∀ p ∈ catalog, ¬ p.Eligible r f threshold) ∧
      ((∃ p ∈ catalog, p.Eligible r f threshold) →
        ((∃ search engine, answer = .ok (search, engine)) ∨ ∃ e, answer = .error (.io e)) ∧
        (∀ tree, sources = .inMemory tree → config.output.patchDir = none →
          ∃ search engine, answer = .ok (search, engine)))) ∧
    ∀ search engine, answer = .ok (search, engine) →
      ∃ kept, search.setup.model.points = kept.map Point.normalize ∧
        BestOf config.localization.maxPoints (eligiblePoints r f threshold catalog) kept := by
  intro answer threshold
  have hends : RepairSession.Prepared ⟨config, .ofReport r f, catalog⟩ sources answer :=
    RepairSession.prepare_prepared _ tools notify sources entropy world
  -- From here on only the way the preparation ended counts, not how it was computed.
  clear_value answer
  have hpoints : suspiciousPoints catalog ((Localization.ofReport r f).suspicious threshold) =
      eligiblePoints r f threshold catalog := suspiciousPoints_ofReport hsize catalog
  have hnone : eligiblePoints r f threshold catalog = [] ↔
      ∀ p ∈ catalog, ¬ p.Eligible r f threshold := eligiblePoints_eq_nil_iff
  rw [← hpoints] at hnone
  refine ⟨hends.noFailingTests_iff.trans r.negative_eq_nil_iff, fun ⟨e, he, hfailed⟩ => ?_,
    fun search engine hready => ?_⟩
  · have htests : r.suite.negative ≠ [] := fun hnil => by
      rw [r.negative_eq_nil_iff.mp hnil e he] at hfailed
      cases hfailed
    refine ⟨(hends.noModificationPoints_iff htests r.overlap_suite).trans hnone,
      fun ⟨p, hp, heligible⟩ => ?_⟩
    have hsearch := hends.ready_or_unread htests r.overlap_suite fun hnil =>
      hnone.mp hnil p hp heligible
    refine ⟨hsearch.imp_right And.left, fun tree htree hdir => hsearch.resolve_right ?_⟩
    rintro ⟨-, ⟨path, hroot⟩ | hstored⟩
    · rw [htree] at hroot
      cases hroot
    · exact hstored hdir
  · obtain ⟨g, hmodel⟩ := hends.model_points hready
    refine ⟨_, hmodel, ?_⟩
    rw [← hpoints]
    refine bestOf_trim _ g fun p hp => ?_
    rw [hpoints] at hp
    exact isFinite_of_mem_eligiblePoints hsize hp

/-- A point on the first line of the clash. -/
def clashPoint : Point := ⟨⟨"A.java", 1⟩, "x++;", 0.0, [], [.delete]⟩

/-- A point that no test executes. -/
def unseenPoint : Point := ⟨⟨"B.java", 1⟩, "y++;", 0.0, [], [.delete]⟩

theorem eligible_of_clash :
    clashPoint.Eligible clashReport .ochiai 0.1 ∧
      ¬ unseenPoint.Eligible clashReport .ochiai 0.1 := by
  have hsuite : clashReport.suite = ⟨["T#b"], ["T#a"]⟩ := by cbv
  have hclash : clashReport.spectrum clashPoint.location = ⟨1, 1⟩ := by
    change clashReport.spectrum ⟨"A.java", 1⟩ = _
    cbv
  have hunseen : clashReport.spectrum unseenPoint.location = ⟨0, 0⟩ := by
    change clashReport.spectrum ⟨"B.java", 1⟩ = _
    cbv
  constructor
  · refine ⟨CoverageReport.failing_pos_iff.mp (by rw [hclash]; exact Nat.one_pos), ?_⟩
    unfold Localization.scoreOf
    rw [hclash, hsuite]
    decide +kernel
  · rintro ⟨hfailing, -⟩
    have hpos := CoverageReport.failing_pos_iff.mpr hfailing
    rw [hunseen] at hpos
    exact Nat.not_lt_zero _ hpos

/-- The search is prepared over the point of the clash alone, with the score of its line. -/
theorem prepared_model_of_clash :
    clashReport.tests.length < wordCount ∧
    ∃ (search : Search Float Unit) (engine : Engine Float Unit),
      RepairSession.prepare ⟨{}, .ofReport clashReport .ochiai, [clashPoint, unseenPoint]⟩ idleTools
        (fun _ w => w) (.inMemory (SourceTree.ofFiles [])) 0 () = .ok (search, engine) ∧
      search.setup.model.points = [(clashPoint.scored clashReport .ochiai).normalize] := by
  have hsize : clashReport.tests.length < wordCount := by decide
  have hfails : ∃ e ∈ clashReport.tests, e.passed = false := by decide
  obtain ⟨-, hsearch, hmodel⟩ := prepared_model clashReport hsize .ochiai {}
    [clashPoint, unseenPoint] idleTools (fun (_ : SearchProgress Float) w => w)
    (.inMemory (SourceTree.ofFiles [])) 0 ()
  obtain ⟨hkept, hdropped⟩ := eligible_of_clash
  have hpoints : eligiblePoints clashReport .ochiai 0.1 [clashPoint, unseenPoint] =
      [clashPoint.scored clashReport .ochiai] := by
    simp [eligiblePoints, hkept, hdropped]
  obtain ⟨search, engine, hready⟩ :=
    ((hsearch hfails).2 ⟨clashPoint, List.mem_cons_self, hkept⟩).2 _ rfl rfl
  obtain ⟨kept, hmade, hbest⟩ := hmodel search engine hready
  refine ⟨hsize, search, engine, hready, ?_⟩
  have hfits : (eligiblePoints clashReport .ochiai 0.1 [clashPoint, unseenPoint]).length ≤ 40 := by
    rw [hpoints]
    decide
  rw [hmade, hbest.whole hfits, hpoints]
  rfl

end Narrowing

end PatchSearch
