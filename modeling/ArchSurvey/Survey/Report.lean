import ArchSurvey.Model.Codec
import ArchSurvey.Survey.Run

/-!
# Scan reports

The written form of what comes of a survey: the model, its quality and one entry for each scanner.
A report or a bare model can be read back.
-/

namespace ArchSurvey

/-- The version that reports bear. -/
def version : String := "0.1.0"

/-- What a report says of one scanner; its findings are in the model. -/
structure ScannerEntry where
  id : String
  success : Bool
  findings : Nat
  warnings : List String := []
  errors : List String := []
  statistics : Statistics
  deriving DecidableEq, Repr

/-- The written form of what comes of a survey. -/
structure ReportDocument where
  version : String
  project : String
  root : String
  milliseconds : Nat
  success : Bool
  model : Model
  quality : Quality
  scanners : List ScannerEntry
  deriving DecidableEq, Repr

open Json

namespace ScannerEntry

/-- What a report says of a result. -/
def ofResult (result : ScanResult) : ScannerEntry :=
  { id := result.scanner
    success := result.success
    findings := result.findings.size
    warnings := result.warnings
    errors := result.errors
    statistics := result.statistics }

/-- A list that is left out when empty. -/
def unlessEmpty (name : String) (texts : List String) : List (String × Json) :=
  if texts.isEmpty then [] else [(name, ofStrings texts)]

/-- Writes an entry. -/
def toJson (entry : ScannerEntry) : Json :=
  obj ([("id", str entry.id), ("success", bool entry.success), ("findings", nat entry.findings)] ++
    unlessEmpty "warnings" entry.warnings ++ unlessEmpty "errors" entry.errors ++
    [("statistics", entry.statistics.toJson)])

/-- Reads an entry. -/
def ofJson? : Decoder ScannerEntry := fun value => do
  let fields ← record ["id", "success", "findings", "warnings", "errors", "statistics"] value
  some
    { id := ← fields.required "id" string
      success := ← fields.required "success" truth
      findings := ← fields.required "findings" natural
      warnings := ← fields.listOf "warnings" string
      errors := ← fields.listOf "errors" string
      statistics := ← fields.required "statistics" Statistics.ofJson? }

end ScannerEntry

namespace ReportDocument

/-- The written form of a report of a survey that took some time. -/
def ofReport (report : SurveyReport) (milliseconds : Nat) : ReportDocument :=
  { version := ArchSurvey.version
    project := report.projectName
    root := report.root
    milliseconds
    success := !report.hasFailures
    model := report.model
    quality := report.quality
    scanners := report.results.map ScannerEntry.ofResult }

/-- Writes a report. -/
def toJson (document : ReportDocument) : Json :=
  obj [("version", str document.version), ("project", str document.project),
    ("root", str document.root), ("duration_ms", nat document.milliseconds),
    ("success", bool document.success), ("model", document.model.toJson),
    ("quality", document.quality.toJson),
    ("scanners", arr (document.scanners.map ScannerEntry.toJson))]

/-- Reads a report. -/
def ofJson? : Decoder ReportDocument := fun value => do
  let fields ← record
    ["version", "project", "root", "duration_ms", "success", "model", "quality", "scanners"] value
  some
    { version := ← fields.required "version" string
      project := ← fields.required "project" string
      root := ← fields.required "root" string
      milliseconds := ← fields.required "duration_ms" natural
      success := ← fields.required "success" truth
      model := ← fields.required "model" Model.ofJson?
      quality := ← fields.required "quality" Quality.ofJson?
      scanners := ← fields.required "scanners" (list ScannerEntry.ofJson?) }

end ReportDocument

/-- Reads a model, with its quality where the document is a report. -/
def Model.ofDocument? (value : Json) : Option (Model × Option Quality) :=
  match ReportDocument.ofJson? value with
  | some document => some (document.model, some document.quality)
  | none => (Model.ofJson? value).map (·, none)

end ArchSurvey
