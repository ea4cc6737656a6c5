import PatchSearch.Documents
import PatchSearch.Json.Compact
import PatchSearch.Main
import PatchSearch.Proofs.Command.Placeholders
import PatchSearch.Proofs.Command.Reports
import PatchSearch.Proofs.Command.Workspace
import PatchSearch.Proofs.Config.Spelling
import PatchSearch.Proofs.Evaluation.Archive
import PatchSearch.Proofs.Evaluation.Order
import PatchSearch.Proofs.Evaluation.StoredRecords
import PatchSearch.Proofs.Genome.Crossover
import PatchSearch.Proofs.Novelty.Nearest
import PatchSearch.Proofs.Program.Evidence
import PatchSearch.Proofs.Program.Patch
import PatchSearch.Proofs.Program.Preparation
import PatchSearch.Proofs.Program.Replacement
import PatchSearch.Proofs.Search.Anytime
import PatchSearch.Proofs.Search.Arithmetic
import PatchSearch.Proofs.Search.Diversity
import PatchSearch.Proofs.Search.Genealogy
import PatchSearch.Proofs.Search.Genotype
import PatchSearch.Proofs.Search.Invisible
import PatchSearch.Proofs.Search.PatchLog
import PatchSearch.Proofs.Search.Records
import PatchSearch.Proofs.Search.ScoredFirst
import PatchSearch.Proofs.Search.ZeroFitness
import PatchSearch.Search.Rehearsal
