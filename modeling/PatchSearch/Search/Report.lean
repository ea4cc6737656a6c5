import PatchSearch.Json.Record
import PatchSearch.Program.Patch
import PatchSearch.Scalar

/-!
What a search reports: its progress while it runs, and at the end the front of its population,
the patches it found, the history of its generations and summary figures.
-/
namespace PatchSearch

inductive SearchPhase where
  | initializing
  | evaluating
  | complete
  | stopped
  deriving DecidableEq, Repr, Inhabited

inductive StopReason where
  | maxEvaluations
  | cancelled
  deriving DecidableEq, Repr, Inhabited

/-- The state of a run as it is told while the run goes on. -/
structure SearchProgress (α : Type) where
  generation : Nat
  totalGenerations : Nat
  evaluations : Nat
  maxEvaluations : Nat
  bestFitness : α
  frontSize : Nat
  patchesFound : Nat
  phase : SearchPhase

/-- A candidate as it is reported. Without a rank it has not been sorted yet. -/
structure CandidateSnapshot (α : Type) where
  id : Nat
  generation : Nat
  objectives : List α
  rank : Option Nat
  activePoints : List Nat
  parents : List Nat

/-- One entry per sorted population, the oldest first. -/
structure SearchHistory (α : Type) where
  bestFitness : List α := []
  frontSize : List Nat := []
  meanEdits : List α := []
  diversity : List α := []
  patchesFound : List Nat := []

structure SearchStats (α : Type) where
  generations : Nat
  totalEvaluations : Nat
  bestFitness : α
  elapsedSeconds : Float
  evaluationsPerSecond : Float
  stopReason : StopReason

structure SearchResult (α : Type) where
  front : List (CandidateSnapshot α)
  patches : List PatchRecord
  stats : SearchStats α
  history : SearchHistory α

namespace SearchPhase

def name : SearchPhase → String
  | initializing => "Initializing"
  | evaluating => "Evaluating"
  | complete => "Complete"
  | stopped => "Stopped"

def decode : Json.Decoder SearchPhase :=
  Json.toName [("Initializing", initializing), ("Evaluating", evaluating),
    ("Complete", complete), ("Stopped", stopped)]

def encode (p : SearchPhase) : Json :=
  .text p.name

end SearchPhase

namespace StopReason

def name : StopReason → String
  | maxEvaluations => "MaxEvaluations"
  | cancelled => "Cancelled"

def decode : Json.Decoder StopReason :=
  Json.toName [("MaxEvaluations", maxEvaluations), ("Cancelled", cancelled)]

def encode (r : StopReason) : Json :=
  .text r.name

end StopReason

namespace SearchProgress

def decode : Json.Decoder (SearchProgress Float) := fun j => do
  let f ← Json.fields? [["generation"], ["total_generations"], ["evaluations"],
    ["max_evaluations"], ["best_fitness"], ["front_size"], ["patches_found"], ["phase"]] j
  let generation ← f.required "generation" Json.toWord
  let totalGenerations ← f.required "total_generations" Json.toWord
  let evaluations ← f.required "evaluations" Json.toWord
  let maxEvaluations ← f.required "max_evaluations" Json.toWord
  let bestFitness ← f.required "best_fitness" Json.toFloat
  let frontSize ← f.required "front_size" Json.toWord
  let patchesFound ← f.required "patches_found" Json.toWord
  let phase ← f.required "phase" SearchPhase.decode
  return { generation, totalGenerations, evaluations, maxEvaluations, bestFitness, frontSize,
           patchesFound, phase }

def encode (p : SearchProgress Float) : Json :=
  .object [("generation", .nat p.generation), ("total_generations", .nat p.totalGenerations),
    ("evaluations", .nat p.evaluations), ("max_evaluations", .nat p.maxEvaluations),
    ("best_fitness", Json.ofFloat p.bestFitness), ("front_size", .nat p.frontSize),
    ("patches_found", .nat p.patchesFound), ("phase", p.phase.encode)]

end SearchProgress

/-- The rank that stands for no rank: the largest 64-bit number. -/
def unranked : Nat :=
  wordCount - 1

def encodeRank (rank : Option Nat) : Json :=
  .nat (rank.getD unranked)

def decodeRank : Json.Decoder (Option Nat) := fun j => do
  let n ← Json.toWord j
  return if n = unranked then none else some n

theorem decodeRank_encodeRank (rank : Option Nat) (h : ∀ n, rank = some n → n < unranked) :
    decodeRank (encodeRank rank) = some rank := by
  cases rank with
  | none => rfl
  | some n =>
    have hn : n < unranked := h n rfl
    have hb : n < wordCount := by unfold unranked at hn; omega
    simp [decodeRank, encodeRank, Json.toWord_nat n hb, Nat.ne_of_lt hn]

namespace CandidateSnapshot

def decode : Json.Decoder (CandidateSnapshot Float) := fun j => do
  let f ← Json.fields? [["id"], ["generation"], ["objectives"], ["rank"], ["active_points"],
    ["parents"]] j
  let id ← f.required "id" Json.toWord
  let generation ← f.required "generation" Json.toWord
  let objectives ← f.required "objectives" (Json.toArray Json.toFloat)
  let rank ← f.required "rank" decodeRank
  let activePoints ← f.required "active_points" (Json.toArray Json.toWord)
  let parents ← f.required "parents" (Json.toArray Json.toWord)
  return { id, generation, objectives, rank, activePoints, parents }

def encode (c : CandidateSnapshot Float) : Json :=
  .object [("id", .nat c.id), ("generation", .nat c.generation),
    ("objectives", Json.ofList Json.ofFloat c.objectives), ("rank", encodeRank c.rank),
    ("active_points", Json.ofList .nat c.activePoints), ("parents", Json.ofList .nat c.parents)]

end CandidateSnapshot

namespace SearchHistory

def decode : Json.Decoder (SearchHistory Float) := fun j => do
  let f ← Json.fields? [["best_fitness"], ["front_size"], ["mean_edits"], ["diversity"],
    ["patches_found"]] j
  let bestFitness ← f.required "best_fitness" (Json.toArray Json.toFloat)
  let frontSize ← f.required "front_size" (Json.toArray Json.toWord)
  let meanEdits ← f.required "mean_edits" (Json.toArray Json.toFloat)
  let diversity ← f.required "diversity" (Json.toArray Json.toFloat)
  let patchesFound ← f.required "patches_found" (Json.toArray Json.toWord)
  return { bestFitness, frontSize, meanEdits, diversity, patchesFound }

def encode (h : SearchHistory Float) : Json :=
  .object [("best_fitness", Json.ofList Json.ofFloat h.bestFitness),
    ("front_size", Json.ofList .nat h.frontSize),
    ("mean_edits", Json.ofList Json.ofFloat h.meanEdits),
    ("diversity", Json.ofList Json.ofFloat h.diversity),
    ("patches_found", Json.ofList .nat h.patchesFound)]

end SearchHistory

namespace SearchStats

def decode : Json.Decoder (SearchStats Float) := fun j => do
  let f ← Json.fields? [["generations"], ["total_evaluations"], ["best_fitness"],
    ["elapsed_seconds"], ["evaluations_per_second"], ["stop_reason"]] j
  let generations ← f.required "generations" Json.toWord
  let totalEvaluations ← f.required "total_evaluations" Json.toWord
  let bestFitness ← f.required "best_fitness" Json.toFloat
  let elapsedSeconds ← f.required "elapsed_seconds" Json.toFloat
  let evaluationsPerSecond ← f.required "evaluations_per_second" Json.toFloat
  let stopReason ← f.required "stop_reason" StopReason.decode
  return { generations, totalEvaluations, bestFitness, elapsedSeconds, evaluationsPerSecond,
           stopReason }

def encode (s : SearchStats Float) : Json :=
  .object [("generations", .nat s.generations), ("total_evaluations", .nat s.totalEvaluations),
    ("best_fitness", Json.ofFloat s.bestFitness),
    ("elapsed_seconds", Json.ofFloat s.elapsedSeconds),
    ("evaluations_per_second", Json.ofFloat s.evaluationsPerSecond),
    ("stop_reason", s.stopReason.encode)]

end SearchStats

namespace SearchResult

def decode : Json.Decoder (SearchResult Float) := fun j => do
  let f ← Json.fields? [["front"], ["patches"], ["stats"], ["history"]] j
  let front ← f.required "front" (Json.toArray CandidateSnapshot.decode)
  let patches ← f.required "patches" (Json.toArray PatchRecord.decode)
  let stats ← f.required "stats" SearchStats.decode
  let history ← f.required "history" SearchHistory.decode
  return { front, patches, stats, history }

def encode (r : SearchResult Float) : Json :=
  .object [("front", Json.ofList CandidateSnapshot.encode r.front),
    ("patches", Json.ofList PatchRecord.encode r.patches), ("stats", r.stats.encode),
    ("history", r.history.encode)]

end SearchResult

end PatchSearch
