import PatchSearch.Config.Codec
import PatchSearch.Manifest
import PatchSearch.Program.Model
import PatchSearch.Program.Suspicion
import PatchSearch.Search.Report

/-!
The kinds of documents by their names. A document of a kind has a normal form: what is written
for the value that it is read as, with all members, in their order and under their own names.
-/
namespace PatchSearch

/-- What is written for the value of a document. -/
def renewed {β : Type} (decode : Json.Decoder β) (encode : β → Json) (j : Json) : Option Json :=
  (decode j).map encode

/-- The kinds of documents, with their normal forms. -/
def documentKinds : List (String × (Json → Option Json)) :=
  [("Location", renewed Location.decode Location.encode),
    ("Operator", renewed Operator.decode Operator.encode),
    ("Ingredient", renewed Ingredient.decode Ingredient.encode),
    ("ModificationPoint", renewed Point.decode Point.encode),
    ("TestSets", renewed TestSuite.decode TestSuite.encode),
    ("PatchEdit", renewed PatchEdit.decode PatchEdit.encode),
    ("Patch", renewed Patch.decode Patch.encode),
    ("RecordedEdit", renewed RecordedEdit.decode RecordedEdit.encode),
    ("PatchRecord", renewed PatchRecord.decode PatchRecord.encode),
    ("CoverageReport", renewed CoverageReport.decode CoverageReport.encode),
    ("RepairConfig", renewed RepairConfig.decode RepairConfig.encode),
    ("RunManifest", renewed RunManifest.decode RunManifest.encode),
    ("CommandSpec", renewed CommandSpec.decode CommandSpec.encode),
    ("SbflFormula", renewed Formula.decode Formula.encode),
    ("InitializationStrategy", renewed Initialization.decode Initialization.encode),
    ("NoveltyMode", renewed NoveltyMode.decode NoveltyMode.encode),
    ("SearchPhase", renewed SearchPhase.decode SearchPhase.encode),
    ("StopReason", renewed StopReason.decode StopReason.encode),
    ("SearchProgress", renewed SearchProgress.decode SearchProgress.encode),
    ("CandidateSnapshot", renewed CandidateSnapshot.decode CandidateSnapshot.encode),
    ("SearchHistory", renewed SearchHistory.decode SearchHistory.encode),
    ("SearchStats", renewed SearchStats.decode SearchStats.encode),
    ("SearchResult", renewed SearchResult.decode SearchResult.encode)]

/-- The normal form of a document of a kind. -/
def normalForm? (kind : String) (j : Json) : Option Json :=
  (documentKinds.lookup kind).bind (· j)

theorem renewed_encode {β : Type} (decode : Json.Decoder β) (encode : β → Json)
    (h : ∀ b, decode (encode b) = some b) (j : Json) (k : Json)
    (hk : renewed decode encode j = some k) : renewed decode encode k = some k := by
  obtain ⟨b, _, rfl⟩ := Option.map_eq_some_iff.mp hk
  simp [renewed, h]

end PatchSearch
