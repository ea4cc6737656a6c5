import PatchSearch.Proofs.Search.WellFormed
import PatchSearch.Proofs.Search.Growth

/-!
The arithmetic of a run under a valid configuration. There are two whole numbers that may not fit,
the budget of evaluations and the number of pairs of a population, and coins are thrown with three
kinds of probabilities. Everything else that a run does comes to other faults, if to any.
-/
namespace PatchSearch

section Genes

variable {F : Fault → Prop} (hindex : F .indexOutOfRange)

include hindex

namespace Chromosome

theorem faultsOnly_splice {β : Type} (cut : ℕ) (a b : List β) : FaultsOnly F (splice cut a b) := by
  unfold splice
  split
  · exact .ok _
  · exact .error hindex

theorem faultsOnly_child (cut : ℕ) (a b : Chromosome) : FaultsOnly F (child cut a b) := by
  unfold child
  refine (faultsOnly_splice hindex _ _ _).bind fun active _ => ?_
  refine (faultsOnly_splice hindex _ _ _).bind fun operator _ => ?_
  refine (faultsOnly_splice hindex _ _ _).bind fun ingredient _ => ?_
  exact .pure _

theorem faultsOnly_crossover (a b : Chromosome) (g : Random) : FaultsOnly F (a.crossover b g) := by
  unfold crossover
  dsimp only
  split
  · exact .pure _
  · refine (faultsOnly_child hindex _ _ _).bind fun first _ => ?_
    refine (faultsOnly_child hindex _ _ _).bind fun second _ => ?_
    exact .pure _

variable {rate : Float}

theorem faultsOnly_mutateIndex (hrate : Random.IsProbability rate) (bound : ℕ) (old : Option ℕ)
    (g : Random) : FaultsOnly F (mutateIndex rate bound old g) := by
  unfold mutateIndex
  split
  · exact .pure _
  · refine (FaultsOnly.of_yields (Random.yields_chance _ _ hrate)).bind fun drawn _ => ?_
    obtain ⟨hit, g⟩ := drawn
    dsimp only
    split
    · exact .pure _
    · cases old with
      | some o => exact .pure _
      | none => exact .error hindex

theorem faultsOnly_mutateGenes (hrate : Random.IsProbability rate) (bounds : List GeneBounds)
    (as : List Bool) (os ks : List ℕ) (g : Random) :
    FaultsOnly F (mutateGenes rate bounds as os ks g) := by
  induction as generalizing bounds os ks g with
  | nil =>
    cases bounds <;> exact .ok _
  | cons a as ih =>
    cases bounds with
    | nil => exact .error hindex
    | cons b bs =>
      unfold mutateGenes
      refine (FaultsOnly.of_yields (Random.yields_chance _ _ hrate)).bind fun flip _ => ?_
      refine (faultsOnly_mutateIndex hindex hrate _ _ _).bind fun o _ => ?_
      refine (faultsOnly_mutateIndex hindex hrate _ _ _).bind fun k _ => ?_
      exact (ih _ _ _ _).bind fun rest _ => .pure _

theorem faultsOnly_differsAt (a b : Chromosome) (i : ℕ) : FaultsOnly F (a.differsAt b i) := by
  unfold differsAt
  refine (faultsOnly_itemAt hindex _ _).bind fun x _ => ?_
  refine (faultsOnly_itemAt hindex _ _).bind fun y _ => ?_
  split
  · exact .pure _
  · refine (faultsOnly_itemAt hindex _ _).bind fun o _ => ?_
    refine (faultsOnly_itemAt hindex _ _).bind fun o' _ => ?_
    split
    · exact .pure _
    · refine (faultsOnly_itemAt hindex _ _).bind fun k _ => ?_
      exact (faultsOnly_itemAt hindex _ _).bind fun k' _ => .pure _
  · exact .pure _

theorem faultsOnly_distance {α : Type} [Arithmetic α] (a b : Chromosome) :
    FaultsOnly F (a.distance b : Except Fault α) := by
  have hdifferences (is : List ℕ) : FaultsOnly F (a.differences b is) := by
    induction is with
    | nil => exact .ok _
    | cons i is ih =>
      unfold differences
      refine (faultsOnly_differsAt hindex _ _ _).bind fun d _ => ?_
      exact ih.bind fun n _ => .pure _
  unfold distance
  dsimp only
  split
  · exact .pure _
  · exact (hdifferences _).bind fun d _ => .pure _

/-- Selecting edits finds a gene missing or comes to no fault. -/
theorem faultsOnly_decodeGene (filter : Bool) (c : Chromosome) (i : ℕ) (p : Point) :
    FaultsOnly F (decodeGene filter c i p) := by
  unfold decodeGene
  split
  · exact .pure _
  · refine (faultsOnly_itemAt hindex _ _).bind fun number _ => ?_
    refine (faultsOnly_itemAt hindex _ _).bind fun operator _ => ?_
    split
    · exact .pure _
    · have hfiltered (ingredient : Option ℕ) : FaultsOnly F
          (if filter then Pure.pure (filterEdit c i p (number % p.operators.length) operator
            ingredient)
          else Pure.pure (some (appliedEdit i p (number % p.operators.length) operator
            ingredient), c)) := by
        split
        · exact .pure _
        · exact .pure _
      dsimp only
      split
      · refine (faultsOnly_itemAt hindex _ _).bind fun k _ => ?_
        exact hfiltered _
      · exact hfiltered _

theorem faultsOnly_selectEdits (points : List Point) (filter : Bool) (limit : Option ℕ)
    (c : Chromosome) : FaultsOnly F (selectEdits points filter limit c) := by
  have hdecode (i : ℕ) (ps : List Point) (c : Chromosome) :
      FaultsOnly F (decodeFrom filter i ps c) := by
    induction ps generalizing i c with
    | nil => exact .ok _
    | cons p ps ih =>
      unfold decodeFrom
      split
      · exact .ok _
      · exact ih _ _
      · refine (faultsOnly_decodeGene hindex _ _ _ _).bind fun edit _ => ?_
        exact (ih _ _).bind fun edits _ => .pure _
  unfold selectEdits
  refine (hdecode _ _ _).bind fun edits _ => ?_
  cases limit with
  | none => exact .pure _
  | some limit => exact .pure _

end Chromosome

section Evaluations

variable {α σ : Type} [Scalar α]

omit hindex in
theorem faultsOnly_evaluateEdits (hbreakdown : F .breakdown) (s : Setup) (tools : Toolchain σ)
    (id : ℕ) (edits : List AppliedEdit) (b : Bench σ) :
    FaultsOnly F (evaluateEdits (α := α) s tools id edits b).1 := by
  unfold evaluateEdits
  dsimp only
  split
  · exact .ok _
  · split
    · exact .error hbreakdown
    · exact .ok _
    · split
      · exact .ok _
      · exact .ok _
      · split
        · exact .ok _
        · exact .ok _

/-- An evaluation finds a gene missing, or its patcher breaks down, or it comes to no fault. -/
theorem faultsOnly_evaluate (hbreakdown : F .breakdown) (s : Setup) (tools : Toolchain σ)
    (c : Chromosome) (b : Bench σ) : FaultsOnly F (evaluate (α := α) s tools c b).1 := by
  unfold evaluate
  dsimp only
  split
  · next fault h =>
    exact .error (Chromosome.faultsOnly_selectEdits hindex _ _ _ _ fault h)
  · exact (faultsOnly_evaluateEdits hbreakdown _ _ _ _ _).map _

end Evaluations

section Pools

variable {α : Type} [Scalar α]

theorem faultsOnly_crowding (front : List ℕ) (vs : List (Objectives α)) :
    FaultsOnly F (crowding front vs) := by
  unfold crowding
  split
  · exact .pure _
  · refine (faultsOnly_itemAt hindex _ _).bind fun first _ => ?_
    split
    · exact .pure _
    · refine (FaultsOnly.mapM fun i _ => faultsOnly_itemAt hindex _ _).bind fun members _ => ?_
      refine (FaultsOnly.mapM fun k _ => ?_).bind fun columns _ => .pure _
      exact FaultsOnly.mapM fun v _ => faultsOnly_itemAt hindex _ _

theorem faultsOnly_survivors (size : ℕ) (pool : List (Candidate α)) :
    FaultsOnly F (survivors size pool) := by
  have hfronts (vs : List (Objectives α)) (rank : ℕ) (fs : List (List ℕ))
      (cs : Array (Candidate α)) : FaultsOnly F (rankFronts vs rank fs cs) := by
    induction fs generalizing rank cs with
    | nil => exact .ok _
    | cons front fs ih =>
      unfold rankFronts
      exact (faultsOnly_crowding hindex _ _).bind fun distances _ => ih _ _
  unfold survivors ranked
  refine FaultsOnly.bind ?_ fun cs _ => .pure _
  refine (FaultsOnly.of_yields (yields_fronts _)).bind fun fs _ => ?_
  exact (hfronts _ _ _ _).bind fun cs _ => .pure _

theorem faultsOnly_tournament (population : List (Candidate α)) (g : Random) :
    FaultsOnly F (tournament population g) := by
  unfold tournament
  dsimp only
  refine (faultsOnly_itemAt hindex _ _).bind fun a _ => ?_
  refine (faultsOnly_itemAt hindex _ _).bind fun b _ => ?_
  split
  · exact .pure _
  · split
    · exact .pure _
    · split
      · exact .pure _
      · refine (FaultsOnly.of_yields (Random.yields_chance _ _ isProbability_half)).bind
          fun coin _ => .pure _

theorem faultsOnly_diversity (population : List (Candidate α))
    (hpairs : 65536 < population.length → F .arithmeticOverflow) :
    FaultsOnly F (diversity population) := by
  have hdistances (c : Chromosome) (ds : List Chromosome) (sum : α) :
      FaultsOnly F (addDistances c ds sum) := by
    induction ds generalizing sum with
    | nil => exact .ok _
    | cons d ds ih =>
      unfold addDistances
      exact (Chromosome.faultsOnly_distance hindex _ _).bind fun x _ => ih _
  have hpairDistances (cs : List Chromosome) (sum : α) :
      FaultsOnly F (addPairDistances cs sum) := by
    induction cs generalizing sum with
    | nil => exact .ok _
    | cons c cs ih =>
      unfold addPairDistances
      exact (hdistances _ _ _).bind fun x _ => ih _
  unfold diversity
  dsimp only
  split
  · exact .pure _
  · refine (hpairDistances _ _).bind fun sum _ => ?_
    refine FaultsOnly.bind ?_ fun pairs _ => .pure _
    unfold fitting
    split
    · exact .ok _
    · next hmany => exact .error (hpairs (by rwa [pairs_lt_iff, not_le] at hmany))

end Pools

end Genes

section Runs

variable {α σ : Type}

/-- What the faults of a run are laid to: an overflow to a budget or to a population that cannot be
counted, and a coin that cannot be thrown to a gene of a new chromosome. -/
def Search.Explains (s : Search α σ) : Fault → Prop
  | .arithmeticOverflow =>
    wordCount ≤ s.config.populationSize * s.config.maxGenerations ∨
      65536 < s.config.populationSize
  | .invalidProbability =>
    ∃ b ∈ s.bounds, ¬ Random.IsProbability (s.config.initialization.activation s.config.mu b)
  | _ => True

/-- The coins for crossing and changing chromosomes can be thrown. -/
structure Search.Rated (s : Search α σ) : Prop where
  crossover : Random.IsProbability (clampUnit s.config.crossoverProbability)
  mutation : s.mutationRate.isNaN = false

namespace Search

variable [Scalar α] {s : Search α σ}

omit [Scalar α] in
theorem faultsOnly_maxEvaluations (s : Search α σ) :
    FaultsOnly s.Explains s.config.maxEvaluations := by
  by_cases hmany : wordCount ≤ s.config.populationSize * s.config.maxGenerations
  · rw [SearchConfig.maxEvaluations_of_le hmany]
    exact .error (Or.inl hmany)
  · exact .of_yields (yields_fitting (Nat.lt_of_not_le hmany))

theorem faultsOnly_populate (s : Search α σ) (e : Engine α σ) :
    FaultsOnly s.Explains (s.populate e) := by
  have hrandom (bs : List GeneBounds) (hbs : bs ⊆ s.bounds) (g : Random) :
      FaultsOnly s.Explains (Chromosome.random s.config.initialization s.config.mu bs g) := by
    induction bs generalizing g with
    | nil => exact .ok _
    | cons b bs ih =>
      obtain ⟨hb, hbs⟩ := List.cons_subset.mp hbs
      unfold Chromosome.random
      refine FaultsOnly.bind ?_ fun active _ => (ih hbs _).bind fun rest _ => .pure _
      by_cases hp : Random.IsProbability (s.config.initialization.activation s.config.mu b)
      · exact .of_yields (Random.yields_chance _ _ hp)
      · rw [Random.chance_of_not_isProbability hp]
        exact .error ⟨b, hb, hp⟩
  have hcandidates (n : ℕ) (e : Engine α σ) :
      FaultsOnly s.Explains (s.randomCandidates n e) := by
    induction n generalizing e with
    | zero => exact .ok _
    | succ n ih =>
      unfold randomCandidates
      refine (hrandom _ (List.Subset.refl _) _).bind fun c _ => ?_
      exact (ih _).bind fun rest _ => .pure _
  exact (hcandidates _ _).bind fun drawn _ => .pure _

omit [Scalar α] in
theorem faultsOnly_stopReason? (s : Search α σ) (e : Engine α σ) :
    FaultsOnly s.Explains (s.stopReason? e) := by
  unfold stopReason?
  dsimp only
  split
  · exact .pure _
  · exact s.faultsOnly_maxEvaluations.bind fun budget _ => .pure _

omit [Scalar α] in
theorem faultsOnly_tell (s : Search α σ) (e : Engine α σ) :
    FaultsOnly s.Explains (s.tell e) := by
  unfold tell progressWhen
  refine FaultsOnly.bind ?_ fun p _ => .pure _
  exact s.faultsOnly_maxEvaluations.bind fun budget _ => .pure _

theorem faultsOnly_evaluateAll (s : Search α σ) (cs : List (Candidate α)) (e : Engine α σ) :
    FaultsOnly s.Explains (s.evaluateAll cs e) := by
  induction cs generalizing e with
  | nil => exact .ok _
  | cons c cs ih =>
    unfold evaluateAll
    refine (s.faultsOnly_stopReason? e).bind fun looked _ => ?_
    obtain ⟨reason, e⟩ := looked
    cases reason with
    | some reason => exact .pure _
    | none =>
      refine FaultsOnly.bind ?_ fun evaluated _ => (ih _).bind fun rest _ => .pure _
      exact (faultsOnly_evaluate trivial trivial _ _ _ _).bind fun evaluation _ => .pure _

theorem faultsOnly_mate (h : s.Rated) (e : Engine α σ) :
    FaultsOnly s.Explains (s.mate e) := by
  have hindex : s.Explains .indexOutOfRange := trivial
  have hrate := isProbability_clampUnit _ h.mutation
  unfold mate
  refine (faultsOnly_tournament hindex _ _).bind fun i _ => ?_
  refine (faultsOnly_tournament hindex _ _).bind fun j _ => ?_
  refine (faultsOnly_itemAt hindex _ _).bind fun p _ => ?_
  refine (faultsOnly_itemAt hindex _ _).bind fun q _ => ?_
  refine (FaultsOnly.of_yields (Random.yields_chance _ _ h.crossover)).bind fun coin _ => ?_
  obtain ⟨crossed, g⟩ := coin
  dsimp only
  split
  · refine (Chromosome.faultsOnly_crossover hindex _ _ _).bind fun pair _ => ?_
    refine (Chromosome.faultsOnly_mutateGenes hindex hrate _ _ _ _ _).bind fun a _ => ?_
    exact (Chromosome.faultsOnly_mutateGenes hindex hrate _ _ _ _ _).bind fun b _ => .pure _
  · refine (Chromosome.faultsOnly_mutateGenes hindex hrate _ _ _ _ _).bind fun a _ => ?_
    exact (Chromosome.faultsOnly_mutateGenes hindex hrate _ _ _ _ _).bind fun b _ => .pure _

theorem faultsOnly_offspring (h : s.Rated) (n : ℕ) (e : Engine α σ) :
    FaultsOnly s.Explains (s.offspring n e) := by
  induction n using Nat.twoStepInduction generalizing e with
  | zero => exact .ok _
  | one => exact (faultsOnly_mate h _).bind fun pair _ => .pure _
  | more n ih _ =>
    unfold offspring
    refine (faultsOnly_mate h _).bind fun pair _ => ?_
    exact (ih _).bind fun rest _ => .pure _

/-- The end of a generation counts the pairs of a population that is no larger than it may be. -/
theorem faultsOnly_close (s : Search α σ) (pool : List (Candidate α)) (e : Engine α σ) :
    FaultsOnly s.Explains (do
      let e ← s.survive pool e
      let e ← recordHistory e
      s.tell e) := by
  have hsurvive : FaultsOnly s.Explains (s.survive pool e) :=
    (faultsOnly_survivors trivial _ _).bind fun population _ => .pure _
  refine hsurvive.bind fun e₁ hsurvived => ?_
  obtain ⟨population, hsurvivors, rfl⟩ := survive_engine hsurvived
  -- Pairs are counted among the survivors, and there are no more of them than there is room for.
  have hlength := length_survivors hsurvivors
  have hrecord : FaultsOnly s.Explains (recordHistory { e with population }) := by
    refine (faultsOnly_diversity trivial _ fun hmany => ?_).bind fun spread _ => .pure _
    change 65536 < population.length at hmany
    exact Or.inr (by omega)
  exact hrecord.bind fun e₂ _ => s.faultsOnly_tell e₂

theorem faultsOnly_begin (s : Search α σ) (e : Engine α σ) :
    FaultsOnly s.Explains (s.begin e) := by
  refine (s.faultsOnly_populate e).bind fun e₁ _ => ?_
  refine (s.faultsOnly_tell e₁).bind fun e₂ _ => ?_
  refine (s.faultsOnly_evaluateAll _ e₂).bind fun evaluated _ => ?_
  exact s.faultsOnly_close _ _

theorem faultsOnly_generation (h : s.Rated) (e : Engine α σ) :
    FaultsOnly s.Explains (s.generation e) := by
  refine (faultsOnly_offspring h _ _).bind fun children _ => ?_
  refine (s.faultsOnly_evaluateAll _ _).bind fun evaluated _ => ?_
  exact s.faultsOnly_close _ _

theorem faultsOnly_generations (h : s.Rated) (fuel : ℕ) (e : Engine α σ) :
    FaultsOnly s.Explains (s.generations fuel e) := by
  induction fuel generalizing e with
  | zero => exact .error trivial
  | succ fuel ih =>
    unfold generations
    refine (s.faultsOnly_stopReason? e).bind fun looked _ => ?_
    obtain ⟨reason, e₁⟩ := looked
    cases reason with
    | some reason => exact .pure _
    | none =>
      dsimp only
      split
      · exact .pure _
      · exact (faultsOnly_generation h e₁).bind fun e₂ _ => ih e₂

/-- Every fault of a run has its explanation. -/
theorem faultsOnly_run (h : s.Rated) (e : Engine α σ) : FaultsOnly s.Explains (s.run e) := by
  refine s.faultsOnly_maxEvaluations.bind fun budget _ => ?_
  refine (s.faultsOnly_begin e).bind fun e₁ _ => ?_
  exact (faultsOnly_generations h _ e₁).bind fun ended _ => .pure _

section Crowds

variable {e e' : Engine α σ}

/-- A run that started with the books of `e₀` has as many members in its population as it has
evaluated since, up to the size of a population, and their pairs were counted. -/
structure Counted (s : Search α σ) (e₀ e : Engine α σ) : Prop where
  grown : e₀.bench.ledger.evaluations ≤ e.bench.ledger.evaluations
  population : e.population.length = min s.config.populationSize
    (e.bench.ledger.evaluations - e₀.bench.ledger.evaluations)
  few : e.population.length ≤ 65536

theorem few_of_close {pool : List (Candidate α)} (h : (do
      let e ← s.survive pool e
      let e ← recordHistory e
      s.tell e) = .ok e') : e'.population.length ≤ 65536 := by
  obtain ⟨e₁, -, h⟩ := bind_eq_ok_iff.mp h
  obtain ⟨e₂, hrecord, htell⟩ := bind_eq_ok_iff.mp h
  obtain ⟨spread, hspread, -⟩ := bind_eq_ok_iff.mp hrecord
  obtain ⟨history, rfl⟩ := recordHistory_engine hrecord
  obtain ⟨world, rfl⟩ := tell_engine htell
  exact length_le_of_diversity hspread

theorem counted_begin (h : s.begin e = .ok e') : s.Counted e e' := by
  have hfew : e'.population.length ≤ 65536 := by
    obtain ⟨e₁, -, h⟩ := bind_eq_ok_iff.mp h
    obtain ⟨e₂, -, h⟩ := bind_eq_ok_iff.mp h
    obtain ⟨⟨evaluated, e₃⟩, -, h⟩ := bind_eq_ok_iff.mp h
    exact few_of_close h
  rw [begin_eq] at h
  obtain ⟨⟨b, _⟩, hopening, rfl⟩ := map_eq_ok_iff.mp h
  obtain ⟨-, hadds, hsurvivors⟩ := opening_adds hopening
  refine ⟨?_, ?_, hfew⟩
  · rw [hadds.evaluations]
    exact Nat.le_add_right _ _
  · rw [hadds.population, hsurvivors, hadds.evaluations, Nat.add_sub_cancel_left]

theorem Counted.generation {e₀ : Engine α σ} (he : s.Counted e₀ e)
    (h : s.generation e = .ok e') : s.Counted e₀ e' := by
  have hfew : e'.population.length ≤ 65536 := by
    obtain ⟨⟨children, e₁⟩, -, h⟩ := bind_eq_ok_iff.mp h
    obtain ⟨⟨evaluated, e₂⟩, -, h⟩ := bind_eq_ok_iff.mp h
    exact few_of_close h
  -- A population that was cut short has room for as many survivors as are evaluated on top of it.
  rw [generation_eq] at h
  obtain ⟨⟨b, _⟩, hturn, rfl⟩ := map_eq_ok_iff.mp h
  obtain ⟨-, hadds, hsurvivors⟩ := turn_adds hturn
  obtain ⟨hgrown, hpopulation, -⟩ := he
  refine ⟨?_, ?_, hfew⟩
  · rw [hadds.evaluations]
    omega
  · rw [hadds.population, hsurvivors, hadds.evaluations]
    omega

omit [Scalar α] in
theorem stopReason?_cancelled {reason : StopReason} (h : s.stopReason? e = .ok (some reason, e')) :
    reason = .cancelled ∨
      s.config.populationSize * s.config.maxGenerations ≤ e'.bench.ledger.evaluations := by
  unfold stopReason? at h
  dsimp only at h
  split at h
  · cases h
    exact Or.inl rfl
  · obtain ⟨budget, hbudget, h⟩ := bind_eq_ok_iff.mp h
    obtain ⟨rfl, -⟩ := SearchConfig.maxEvaluations_eq_ok hbudget
    split at h
    · next hused =>
      cases h
      exact Or.inr hused
    · cases h

theorem Counted.generations {e₀ : Engine α σ} (he : s.Counted e₀ e) {fuel : ℕ}
    {reason : StopReason} (h : s.generations fuel e = .ok (reason, e')) :
    s.Counted e₀ e' ∧ (reason = .cancelled ∨
      s.config.populationSize * s.config.maxGenerations ≤ e'.bench.ledger.evaluations) := by
  induction fuel generalizing e with
  | zero => cases h
  | succ fuel ih =>
    obtain ⟨⟨found, e₁⟩, hstop, h⟩ := bind_eq_ok_iff.mp h
    obtain rfl := stopReason?_engine hstop
    have hlooked : s.Counted e₀ (s.look e).2 := ⟨he.grown, he.population, he.few⟩
    cases found with
    | some found =>
      cases h
      exact ⟨hlooked, stopReason?_cancelled hstop⟩
    | none =>
      dsimp only at h
      split at h
      · cases h
        exact ⟨hlooked, Or.inl rfl⟩
      · obtain ⟨e₂, hgeneration, h⟩ := bind_eq_ok_iff.mp h
        exact ih (hlooked.generation hgeneration) h

/-- With room for more than 65536 candidates a run that comes to a result was stopped before it
had evaluated that many. -/
theorem run_of_crowded (hlarge : 65536 < s.config.populationSize)
    (hlasting : 1 ≤ s.config.maxGenerations) {r : SearchResult α} (h : s.run e = .ok (r, e')) :
    r.stats.totalEvaluations ≤ e.bench.ledger.evaluations + 65536 ∧
      (e.bench.ledger.evaluations = 0 → r.stats.stopReason = .cancelled) := by
  obtain ⟨budget, -, h⟩ := bind_eq_ok_iff.mp h
  obtain ⟨e₁, hbegin, h⟩ := bind_eq_ok_iff.mp h
  obtain ⟨⟨reason, e₂⟩, hgenerations, h⟩ := bind_eq_ok_iff.mp h
  cases h
  obtain ⟨hcounted, hreason⟩ := (counted_begin hbegin).generations hgenerations
  obtain ⟨hgrown, hpopulation, hfew⟩ := hcounted
  have htotal : e'.bench.ledger.evaluations ≤ e.bench.ledger.evaluations + 65536 := by omega
  refine ⟨htotal, fun hfresh => hreason.resolve_right fun hused => ?_⟩
  have hroom : s.config.populationSize ≤ s.config.populationSize * s.config.maxGenerations :=
    Nat.le_mul_of_pos_right _ hlasting
  omega

end Crowds

end Search

end Runs

section Configured

variable {σ : Type}

/-- A coin can be thrown with the numbers of the unit interval. -/
theorem isProbability_iff (p : Float) :
    Random.IsProbability p ↔ inUnitInterval p = true := by
  have hone : (1.0 : Float).isNaN = false := by decide +kernel
  have hpos : (0.0 : Float) ≤ 1.0 := by decide +kernel
  unfold Random.IsProbability inUnitInterval
  rw [Bool.and_eq_true, decide_eq_true_eq, decide_eq_true_eq]
  constructor
  · rintro (hcertain | ⟨hlow, hhigh⟩)
    · obtain ⟨hp, -, hrank⟩ := (FloatOrder.beq_iff _ _).mp hcertain
      obtain ⟨hzero, -, hle⟩ := (FloatOrder.le_iff _ _).mp hpos
      exact ⟨(FloatOrder.le_iff _ _).mpr ⟨hzero, hp, hrank ▸ hle⟩,
        (FloatOrder.le_iff _ _).mpr ⟨hp, hone, hrank.le⟩⟩
    · exact ⟨hlow, FloatOrder.le_of_lt hhigh⟩
  · rintro ⟨hlow, hhigh⟩
    by_cases hlt : p < 1.0
    · exact Or.inr ⟨hlow, hlt⟩
    · exact Or.inl (FloatOrder.beq_of_le_of_not_lt hhigh hlt)

theorem clampUnit_of_isNaN {x : Float} (h : x.isNaN = true) : clampUnit x = x := by
  have hlow : ¬ x < 0.0 := fun hlt =>
    Bool.false_ne_true (((FloatOrder.lt_iff _ _).mp hlt).1.symm.trans h)
  have hhigh : ¬ 1.0 < x := fun hlt =>
    Bool.false_ne_true (((FloatOrder.lt_iff _ _).mp hlt).2.1.symm.trans h)
  unfold clampUnit
  rw [if_neg hlow, if_neg hhigh]

/-- The coins for switching genes on are thrown with one half or with scores times a number. -/
def SearchConfig.Numbered (c : SearchConfig) : Prop :=
  c.initialization = .random ∨ c.mu.isNaN = false

theorem isProbability_activation_iff {c : SearchConfig} {b : GeneBounds}
    (hpos : 0.0 < b.suspiciousness) (hone : b.suspiciousness ≤ 1.0) :
    Random.IsProbability (c.initialization.activation c.mu b) ↔ c.Numbered := by
  unfold SearchConfig.Numbered
  cases c.initialization with
  | random => exact iff_of_true isProbability_half (Or.inl rfl)
  | prior =>
    change Random.IsProbability (clampUnit (b.suspiciousness * c.mu)) ↔ _
    cases hmu : c.mu.isNaN with
    | false =>
      exact iff_of_true (isProbability_clampUnit _ (FloatOrder.isNaN_mul_of_unit hpos hone hmu))
        (Or.inr rfl)
    | true =>
      have hproduct := FloatOrder.isNaN_mul_of_isNaN b.suspiciousness hmu
      refine iff_of_false ?_ (by simp)
      rw [clampUnit_of_isNaN hproduct, isProbability_iff]
      exact fun hunit => Bool.false_ne_true ((isNaN_of_inUnitInterval hunit).symm.trans hproduct)

/-- A run whose first coin cannot be thrown ends with it. -/
theorem Search.run_of_not_isProbability {s : Search Float σ} (e : Engine Float σ)
    (hlarge : 2 ≤ s.config.populationSize)
    (hbudget : s.config.populationSize * s.config.maxGenerations < wordCount)
    (hbounds : s.bounds ≠ []) (hactivation : ∀ b ∈ s.bounds,
      ¬ Random.IsProbability (s.config.initialization.activation s.config.mu b)) :
    s.run e = .error .invalidProbability := by
  obtain ⟨n, hsize⟩ := Nat.exists_eq_add_of_le' (Nat.le_of_succ_le hlarge)
  obtain ⟨b, bs, hcons⟩ := List.exists_cons_of_ne_nil hbounds
  have hcoin := hactivation b (hcons ▸ List.mem_cons_self)
  have hrandom (g : Random) :
      Chromosome.random s.config.initialization s.config.mu s.bounds g =
        .error .invalidProbability := by
    rw [hcons]
    unfold Chromosome.random
    rw [Random.chance_of_not_isProbability hcoin]
    rfl
  have hpopulate : s.populate e = .error .invalidProbability := by
    unfold populate
    rw [hsize]
    unfold randomCandidates
    rw [hrandom]
    rfl
  unfold run SearchConfig.maxEvaluations fitting begin
  rw [if_pos hbudget, hpopulate]
  rfl

theorem Search.run_of_budget {s : Search Float σ} (e : Engine Float σ)
    (hbudget : wordCount ≤ s.config.populationSize * s.config.maxGenerations) :
    s.run e = .error .arithmeticOverflow := by
  unfold run
  rw [SearchConfig.maxEvaluations_of_le hbudget]
  rfl

/-- What validation leaves open in the arithmetic of a run, and nothing else. Crossover and
mutation throw their coins with numbers of the unit interval; new chromosomes do so exactly if the
coins are even or the factor of the scores is a number. A run overflows at once if a machine word
cannot hold its budget. Otherwise it overflows only when it counts the pairs of more than 65536
members: with a larger population it either was stopped before it had evaluated that many
candidates or comes to no result. And it throws an impossible coin only, and always, when the factor
is no number. -/
theorem run_arithmetic (config : RepairConfig) (model : ProgramModel) (tests : TestSuite)
    (sources : SourceTree) (tools : Toolchain σ) (notify : SearchProgress Float → σ → σ)
    (hvalid : config.validate = .ok ())
    (hscores : ∀ p ∈ model.points, 0.0 < p.suspiciousness ∧ p.suspiciousness ≤ 1.0)
    (e : Engine Float σ) :
    let s := Search.ofConfig config model tests sources tools notify
    let c := config.search
    let budget := c.populationSize * c.maxGenerations
    (inUnitInterval (clampUnit c.crossoverProbability) = true ∧
      inUnitInterval (clampUnit s.mutationRate) = true ∧
      ∀ b ∈ s.bounds, inUnitInterval (c.initialization.activation c.mu b) = true ↔ c.Numbered) ∧
    (wordCount ≤ budget → s.run e = .error .arithmeticOverflow) ∧
    (s.run e = .error .arithmeticOverflow → wordCount ≤ budget ∨ 65536 < c.populationSize) ∧
    (65536 < c.populationSize → ∀ r t, s.run e = .ok (r, t) →
      r.stats.totalEvaluations ≤ e.bench.ledger.evaluations + 65536 ∧
        (e.bench.ledger.evaluations = 0 → r.stats.stopReason = .cancelled)) ∧
    (s.run e = .error .invalidProbability → ¬ c.Numbered) ∧
    (budget < wordCount → model.points ≠ [] → ¬ c.Numbered →
      s.run e = .error .invalidProbability) := by
  intro s c budget
  obtain ⟨hlarge, hlasting, -⟩ := RepairConfig.search_of_validate hvalid
  have hactivation (b : GeneBounds) (hb : b ∈ s.bounds) :
      Random.IsProbability (c.initialization.activation c.mu b) ↔ c.Numbered := by
    obtain ⟨p, hp, rfl⟩ := List.mem_map.mp hb
    exact isProbability_activation_iff (hscores p hp).1 (hscores p hp).2
  have hrated : s.Rated :=
    ⟨isProbability_clampUnit _ (isNaN_of_inUnitInterval (RepairConfig.rates_of_validate hvalid).1),
      Search.mutationRate_of_validate hvalid rfl⟩
  have hfaults := Search.faultsOnly_run hrated e
  refine ⟨⟨(isProbability_iff _).mp hrated.crossover,
    (isProbability_iff _).mp (isProbability_clampUnit _ hrated.mutation),
    fun b hb => (isProbability_iff _).symm.trans (hactivation b hb)⟩,
    Search.run_of_budget (s := s) e, hfaults _,
    fun hcrowd r t => Search.run_of_crowded hcrowd hlasting,
    fun hrun hnumbered => ?_, fun hbudget hpoints hnumbered => ?_⟩
  · obtain ⟨b, hb, himproper⟩ := hfaults _ hrun
    exact himproper ((hactivation b hb).mpr hnumbered)
  · refine Search.run_of_not_isProbability e hlarge hbudget (fun hnil => ?_) fun b hb hp => ?_
    · exact hpoints (List.map_eq_nil_iff.mp hnil)
    · exact hnumbered ((hactivation b hb).mp hp)

/-- The default configuration but for a factor that is no number. -/
def nanConfig : RepairConfig := { search := { mu := 0.0 / 0.0 } }

/-- Its first coin cannot be thrown. -/
theorem run_arithmetic_of_nan :
    nanConfig.validate = .ok () ∧
      (∀ p ∈ oneLineSetup.model.points, 0.0 < p.suspiciousness ∧ p.suspiciousness ≤ 1.0) ∧
      (Search.ofConfig nanConfig oneLineSetup.model oneLineSetup.tests oneLineSetup.sources
        idleTools fun _ w => w).run (Search.engine (.start 200 0 (.start .empty 0) ()) 0) =
          .error .invalidProbability := by
  have hvalid : nanConfig.validate = .ok () := rfl
  have hscores : ∀ p ∈ oneLineSetup.model.points,
      0.0 < p.suspiciousness ∧ p.suspiciousness ≤ 1.0 := by decide +kernel
  have hnumbered : ¬ nanConfig.search.Numbered := by
    rintro (hrandom | hnumber)
    · cases hrandom
    · exact absurd hnumber (by decide +kernel)
  refine ⟨hvalid, hscores, ?_⟩
  exact (run_arithmetic nanConfig oneLineSetup.model oneLineSetup.tests oneLineSetup.sources
    idleTools (fun _ w => w) hvalid hscores _).2.2.2.2.2 (by decide +kernel) (by decide) hnumbered

/-- A valid configuration with a budget of two to the power of 64. -/
def boundlessConfig : RepairConfig :=
  { search := { populationSize := 2, maxGenerations := 2 ^ 63 } }

/-- Its budget does not fit. -/
theorem budget_overflows :
    boundlessConfig.validate = .ok () ∧
      (∀ p ∈ oneLineSetup.model.points, 0.0 < p.suspiciousness ∧ p.suspiciousness ≤ 1.0) ∧
      boundlessConfig.search.maxEvaluations = .error .arithmeticOverflow ∧
      (Search.ofConfig boundlessConfig oneLineSetup.model oneLineSetup.tests oneLineSetup.sources
        idleTools fun _ w => w).run (Search.engine (.start 200 0 (.start .empty 0) ()) 0) =
          .error .arithmeticOverflow := by
  have hbudget : wordCount ≤
      boundlessConfig.search.populationSize * boundlessConfig.search.maxGenerations := by
    decide
  exact ⟨rfl, by decide +kernel, SearchConfig.maxEvaluations_of_le hbudget,
    Search.run_of_budget _ hbudget⟩

end Configured

end PatchSearch
