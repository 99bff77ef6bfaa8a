import ArchSurvey.Proofs.CommandLine.Documents
import ArchSurvey.Proofs.Survey.Codec
import ArchSurvey.CommandLine.Run

/-!
# Saved reports

What is loaded from the file of a report is its model with its quality, and
from the file of a model the model alone.  A report with a field missing is not
taken for a model.
-/

namespace ArchSurvey

/-- The parts can be stored: numbers fit a word and maps are in order. -/
structure SurveyReport.Storable (report : SurveyReport) : Prop where
  model : report.model.Storable
  quality : report.quality.Storable
  findings : ∀ result ∈ report.results, result.findings.size ≤ Json.maxWord
  statistics : ∀ result ∈ report.results, result.statistics.Storable

theorem ReportDocument.storable_ofReport {report : SurveyReport}
    (storable : report.Storable) {milliseconds : Nat}
    (fits : milliseconds ≤ Json.maxWord) :
    (ofReport report milliseconds).Storable where
  milliseconds := fits
  model := storable.model
  quality := storable.quality
  scanners := by
    intro entry member
    obtain ⟨result, among, rfl⟩ := List.mem_map.mp member
    exact ⟨storable.findings result among, storable.statistics result among⟩

namespace CommandLine

theorem readText_of_writeText {path text : String} {disk final : Disk}
    (written : writeText path text disk = (.ok (), final)) :
    final.readText path = .ok text.toList := by
  rw [writeText] at written
  split at written
  · next done =>
      cases written
      rw [Disk.readText, Disk.read_of_write done]
      simp [bind, Except.bind, Text.Utf8.decode?_encode]
  · cases written

/-- What is loaded from a file is what its text stands for. -/
theorem load_of_writeText {path text : String} {disk final : Disk}
    (written : writeText path text disk = (.ok (), final)) {value : Json}
    (parsed : Json.parseChars? text.toList = some value) :
    Model.load final path =
      match Model.ofDocument? value with
      | some loaded => .ok loaded
      | none => .error (.malformed path) := by
  rw [Model.load, readText_of_writeText written]
  cases loaded : Model.ofDocument? value <;> simp [parsed, loaded]

/-- Saved reports and models are loaded as they were, a report with a field
missing is refused, and a result is read from its own text. -/
theorem load_saved :
    (∀ (session : Session) (report : SurveyReport) (path : String)
      (disk final : Disk), report.Storable →
      session.milliseconds ≤ Json.maxWord →
      writeText path (reportText session report) disk = (.ok (), final) →
      Model.load final path = .ok (report.model, some report.quality)) ∧
    (∀ (model : Model) (path text : String) (disk final : Disk),
      model.Storable → text ∈ [model.toJson.pretty, model.toJson.compact] →
      writeText path text disk = (.ok (), final) →
      Model.load final path = .ok (model, none)) ∧
    (∀ (session : Session) (report : SurveyReport) (value : Json)
      (path text : String) (disk final : Disk), report.Storable →
      session.milliseconds ≤ Json.maxWord →
      Json.Omits ReportDocument.shape
        (ReportDocument.ofReport report session.milliseconds).toJson value →
      text ∈ [value.pretty, value.compact] →
      writeText path text disk = (.ok (), final) →
      Model.load final path = .error (.malformed path)) ∧
    ∀ (result : ScanResult) (text : String), result.Storable →
      text ∈ [result.toJson.pretty, result.toJson.compact] →
      (Json.parse? text).bind ScanResult.ofJson? = some result := by
  have parse {value : Json} {text : String} (printable : value.Printable)
      (printed : text ∈ [value.pretty, value.compact]) :
      Json.parseChars? text.toList = some value := by
    simp only [List.mem_cons, List.not_mem_nil, or_false] at printed
    rcases printed with rfl | rfl
    · exact printable.parse_pretty
    · exact printable.parse_compact
  refine ⟨?reports, ?models, ?damaged, ?results⟩
  case reports =>
    intro session report path disk final storable fits written
    have document := ReportDocument.storable_ofReport storable fits
    rw [load_of_writeText written document.printable.parse_pretty,
      Model.ofDocument?_report document]
    rfl
  case models =>
    intro model path text disk final storable printed written
    rw [load_of_writeText written (parse storable.printable printed),
      Model.ofDocument?_model storable]
  case damaged =>
    intro session report value path text disk final storable fits omits printed
      written
    have document := ReportDocument.storable_ofReport storable fits
    have printable := omits.printable document.printable
    rw [load_of_writeText written (parse printable printed),
      Model.ofDocument?_of_omits omits]
  case results =>
    intro result text storable printed
    rw [Json.parse?, parse storable.printable printed, Option.bind_some,
      ScanResult.ofJson?_toJson storable]

/-- The report on a shop is loaded and so is its model alone, the report without
its quality is not, and a result is read. -/
theorem load_saved_shop :
    let shop : Component :=
      { id := "1", name := "shop", kind := .service
        metadata := [("framework", "flask"), ("port", "80")] }
    let model : Model :=
      { projectName := "shop", components := [shop]
        statistics := [("flask-routes", { errorCounts := [("read", 1)] })] }
    let result : ScanResult :=
      { scanner := "flask-routes", success := true
        findings := { components := [shop] } }
    let report : SurveyReport :=
      { projectName := "shop", root := "/shop", model
        quality := .ofResults 1 [result], results := [result] }
    let disk : Disk := { tree := .emptyDirectory, current := [] }
    let saved (text : String) : Disk :=
      { disk with tree :=
          .directory [("a", .file (Text.Utf8.encode text.toList))] }
    Model.load (saved (reportText { disk } report)) "/a" =
      .ok (model, some report.quality) ∧
    Model.load (saved model.toJson.compact) "/a" = .ok (model, none) ∧
    (∃ value, Json.Omits ReportDocument.shape
        (ReportDocument.ofReport report 0).toJson value ∧
      Model.load (saved value.pretty) "/a" = .error (.malformed "/a")) ∧
    (Json.parse? result.toJson.pretty).bind ScanResult.ofJson? =
      some result := by
  intro shop model result report disk saved
  have component : shop.Storable := by
    unfold Component.Storable Keyed.Sorted
    decide
  have components : ∀ other ∈ [shop], other.Storable := by
    intro other member
    rwa [List.mem_singleton.mp member]
  have noStatistics : Statistics.Storable {} := ⟨by decide, .nil, by decide⟩
  have storedModel : model.Storable := by
    refine ⟨components, List.pairwise_singleton _ _, ?_⟩
    intro entry member
    rw [List.mem_singleton.mp member]
    exact ⟨by decide, List.pairwise_singleton _ _, by decide⟩
  have storedQuality : report.quality.Storable := by
    refine ⟨by decide +kernel, by decide +kernel, by decide +kernel, ?_,
      by decide +kernel⟩
    unfold Keyed.Sorted
    decide +kernel
  have results : ∀ other ∈ [result], other.findings.size ≤ Json.maxWord ∧
      other.statistics.Storable := by
    intro other member
    rw [List.mem_singleton.mp member]
    exact ⟨by decide, noStatistics⟩
  have storedReport : report.Storable :=
    ⟨storedModel, storedQuality, fun other member => (results other member).1,
      fun other member => (results other member).2⟩
  have written (text : String) : writeText "/a" text disk =
      (.ok (), saved text) := rfl
  obtain ⟨reports, models, damaged, read⟩ := load_saved
  obtain ⟨value, omits⟩ : ∃ value, Json.Omits ReportDocument.shape
      (ReportDocument.ofReport report 0).toJson value :=
    ⟨_, @Json.Omits.field _ _ _ "quality" (by decide)⟩
  refine ⟨?_, ?_, ⟨value, omits, ?_⟩, ?_⟩
  · exact reports { disk } report "/a" disk _ storedReport (Nat.zero_le _)
      (written _)
  · exact models model "/a" _ disk _ storedModel (by simp) (written _)
  · exact damaged { disk } report value "/a" _ disk _ storedReport
      (Nat.zero_le _) omits (by simp) (written _)
  · exact read result _ ⟨components, noStatistics⟩ (by simp)

end CommandLine

end ArchSurvey
