import PatchSearch.Config.Validate
import PatchSearch.Proofs.Yields

/-!
What a validated configuration promises. Validation runs check after check, so what each of them
asks for holds of any configuration that passes.
-/
namespace PatchSearch

namespace SearchConfig

variable {c : SearchConfig}

theorem maxEvaluations_eq_ok {budget : Nat} (h : c.maxEvaluations = .ok budget) :
    budget = c.populationSize * c.maxGenerations ∧
      c.populationSize * c.maxGenerations < wordCount := by
  unfold maxEvaluations fitting at h
  split at h
  · next hroom =>
    cases h
    exact ⟨rfl, hroom⟩
  · cases h

theorem maxEvaluations_of_le (h : wordCount ≤ c.populationSize * c.maxGenerations) :
    c.maxEvaluations = .error .arithmeticOverflow :=
  if_neg (Nat.not_lt_of_le h)

end SearchConfig

namespace RepairConfig

variable {config : RepairConfig}

/-- Validation sees to a population, a generation and one to three objectives. -/
theorem search_of_validate (h : config.validate = .ok ()) :
    2 ≤ config.search.populationSize ∧ 1 ≤ config.search.maxGenerations ∧
      1 ≤ config.search.objectives ∧ config.search.objectives ≤ 3 := by
  obtain ⟨_, -, h⟩ := bind_eq_ok_iff.mp h
  obtain ⟨_, hsearch, -⟩ := bind_eq_ok_iff.mp h
  obtain ⟨_, hpopulation, hsearch⟩ := bind_eq_ok_iff.mp hsearch
  obtain ⟨_, hgenerations, hsearch⟩ := bind_eq_ok_iff.mp hsearch
  obtain ⟨_, hobjectives, -⟩ := bind_eq_ok_iff.mp hsearch
  rw [require_eq_ok_iff] at hpopulation hgenerations hobjectives
  simp only [decide_eq_true_eq, bne_iff_ne, Bool.and_eq_true]
    at hpopulation hgenerations hobjectives
  omega

/-- It lets no rate through that is outside the unit interval. -/
theorem rates_of_validate (h : config.validate = .ok ()) :
    inUnitInterval config.search.crossoverProbability = true ∧
      ∀ p, config.search.mutationProbability = some p → inUnitInterval p = true := by
  obtain ⟨_, -, h⟩ := bind_eq_ok_iff.mp h
  obtain ⟨_, hsearch, -⟩ := bind_eq_ok_iff.mp h
  obtain ⟨_, -, hsearch⟩ := bind_eq_ok_iff.mp hsearch
  obtain ⟨_, -, hsearch⟩ := bind_eq_ok_iff.mp hsearch
  obtain ⟨_, -, hsearch⟩ := bind_eq_ok_iff.mp hsearch
  obtain ⟨_, -, hsearch⟩ := bind_eq_ok_iff.mp hsearch
  obtain ⟨_, hcrossover, hmutation⟩ := bind_eq_ok_iff.mp hsearch
  refine ⟨(require_eq_ok_iff _ _ _).mp hcrossover, fun p hp => ?_⟩
  rw [hp] at hmutation
  exact (require_eq_ok_iff _ _ _).mp hmutation

/-- Nor does it let a weight through that is below zero. -/
theorem weights_of_validate (h : config.validate = .ok ()) :
    isBelowZero config.evaluation.weight = false ∧
      isBelowZero config.novelty.diversityWeight = false := by
  obtain ⟨_, -, h⟩ := bind_eq_ok_iff.mp h
  obtain ⟨_, -, h⟩ := bind_eq_ok_iff.mp h
  obtain ⟨_, hevaluation, hnovelty⟩ := bind_eq_ok_iff.mp h
  obtain ⟨_, hweight, -⟩ := bind_eq_ok_iff.mp hevaluation
  obtain ⟨_, -, hdiversity⟩ := bind_eq_ok_iff.mp hnovelty
  rw [require_eq_ok_iff] at hweight hdiversity
  exact ⟨by simpa using hweight, by simpa using hdiversity⟩

end RepairConfig

end PatchSearch
