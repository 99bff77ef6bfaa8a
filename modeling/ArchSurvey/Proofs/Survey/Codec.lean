import ArchSurvey.Proofs.Finding.Codec
import ArchSurvey.Survey.Report

/-!
# Written reports

Results, models and reports are read back as they were written.  A report from
which a field that has to be given is left out is neither a report nor a model.
-/

namespace ArchSurvey

open Json

namespace Statistics

/-- The counters fit a word and the types of error stand in order. -/
structure Storable (s : Statistics) : Prop where
  counters : ∀ n ∈ [s.discovered, s.scanned, s.parsed, s.fallback, s.failed],
    n ≤ maxWord
  sorted : Keyed.Sorted s.errorCounts
  counts : ∀ entry ∈ s.errorCounts, entry.2 ≤ maxWord

theorem map_countsToJson {counts : List (String × Nat)}
    (sorted : Keyed.Sorted counts) :
    map natural (countsToJson counts) = some counts :=
  map_encode (fun _ _ => rfl) sorted

theorem printable_countsToJson {counts : List (String × Nat)}
    (fits : ∀ entry ∈ counts, entry.2 ≤ maxWord) :
    Printable (countsToJson counts) :=
  .obj_map fun entry member => .nat (fits entry member)

theorem ofJson?_toJson {s : Statistics} (storable : s.Storable) :
    ofJson? s.toJson = some s := by
  rw [ofJson?, toJson, record_obj _ (by simp)]
  simp [map_countsToJson storable.sorted]

theorem Storable.printable {s : Statistics} (storable : s.Storable) :
    Printable s.toJson := by
  have counters := storable.counters
  simp only [List.forall_mem_cons] at counters
  simp [toJson, counters, printable_countsToJson storable.counts]

/-- The fields of statistics that have to be given. -/
def shape : Shape :=
  .record ["files_discovered", "files_scanned", "files_parsed_successfully",
    "files_parsed_with_fallback", "files_failed"] fun _ => .plain

theorem demands : Demands ofJson? shape := by
  refine .record (fun _ _ => rfl) ?_ fun _ _ _ _ => nofun
  intro fields name member absent
  simp only [List.mem_cons, List.not_mem_nil, or_false] at member
  rcases member with rfl | rfl | rfl | rfl | rfl <;>
    simp [Fields.required, absent]

end Statistics

namespace ScanResult

/-- The findings and the statistics can be stored. -/
structure Storable (result : ScanResult) : Prop where
  findings : result.findings.Storable
  statistics : result.statistics.Storable

theorem ofJson?_toJson {result : ScanResult} (storable : result.Storable) :
    ofJson? result.toJson = some result := by
  have statistics := Statistics.ofJson?_toJson storable.statistics
  have findings : Findings.ofFields? ⟨[("scanner_id", str result.scanner),
      ("success", bool result.success)] ++ result.findings.toMembers ++
        [("warnings", ofStrings result.warnings),
          ("errors", ofStrings result.errors),
          ("statistics", result.statistics.toJson)]⟩ = some result.findings := by
    apply Findings.ofFields?_of_lookup storable.findings
    simp [Findings.toMembers]
  simp only [Findings.toMembers, List.cons_append, List.nil_append] at findings
  rw [ofJson?, toJson, Findings.toMembers, objectRecord_obj _ (by simp)]
  simp [findings, statistics]

theorem Storable.printable {result : ScanResult} (storable : result.Storable) :
    Printable result.toJson := by
  rw [toJson, Printable.obj_iff]
  intro member inside
  simp only [List.mem_append, List.mem_cons, List.not_mem_nil, or_false]
    at inside
  rcases inside with ((rfl | rfl) | finding) | rfl | rfl | rfl
  · exact .str _
  · exact .bool _
  · exact Findings.printable_of_mem finding
  · exact Printable.ofStrings_iff.mpr trivial
  · exact Printable.ofStrings_iff.mpr trivial
  · exact storable.statistics.printable

end ScanResult

namespace Model

/-- The findings can be stored, and so can the statistics of every scanner,
which stand in the order of the scanners. -/
structure Storable (model : Model) : Prop where
  findings : model.findings.Storable
  sorted : Keyed.Sorted model.statistics
  statistics : ∀ entry ∈ model.statistics, entry.2.Storable

theorem map_statistics {model : Model} (storable : model.Storable) :
    map Statistics.ofJson? (obj (model.statistics.map
      fun (scanner, s) => (scanner, s.toJson))) = some model.statistics :=
  map_encode (fun entry member =>
    Statistics.ofJson?_toJson (storable.statistics entry member))
    storable.sorted

theorem ofFields?_findings {model : Model} (storable : model.Storable)
    (statistics : Json) :
    Findings.ofFields? ⟨("project_name", str model.projectName) ::
      model.findings.toMembers ++ [("scanner_statistics", statistics)]⟩ =
        some model.findings := by
  apply Findings.ofFields?_of_lookup storable.findings
  simp [Findings.toMembers]

theorem ofJson?_toJson {model : Model} (storable : model.Storable) :
    ofJson? model.toJson = some model := by
  have findings := ofFields?_findings storable
  simp only [Findings.toMembers, List.cons_append, List.nil_append] at findings
  rw [ofJson?, toJson, Findings.toMembers, record_obj _ (by simp)]
  simp only [Option.bind_eq_bind, Option.bind_some, List.cons_append,
    List.nil_append, findings]
  simp [map_statistics storable, Model.findings]

theorem Storable.printable {model : Model} (storable : model.Storable) :
    Printable model.toJson := by
  rw [toJson, Printable.obj_iff]
  intro member inside
  simp only [List.cons_append, List.mem_append, List.mem_cons,
    List.not_mem_nil, or_false] at inside
  rcases inside with rfl | finding | rfl
  · exact .str _
  · exact Findings.printable_of_mem finding
  · exact .obj_map fun entry member =>
      (storable.statistics entry member).printable

theorem ofJson?_of_absent {members : List (String × Json)}
    (absent : ∀ member ∈ members, member.1 ≠ "project_name") :
    ofJson? (obj members) = none := by
  have missing : members.lookup "project_name" = none := by
    apply List.lookup_eq_none_iff.mpr
    intro member inside
    simpa using (absent member inside).symm
  rw [ofJson?, record, objectRecord]
  split
  · simp [missing]
  · rfl
  · simp

/-- The fields of a model that have to be given. -/
def shape : Shape :=
  .record ["project_name"] fun name =>
    if name = "scanner_statistics" then .map Statistics.shape
    else Findings.shapeOf name

theorem demands : Demands ofJson? shape := by
  refine .record ?_ ?_ ?_
  · intro name unknown
    simp only [List.cons_append, List.mem_cons, List.mem_append, not_or]
      at unknown
    obtain ⟨-, finding, statistics, -⟩ := unknown
    rw [if_neg statistics, Findings.shapeOf_of_not_mem finding]
  · intro fields name member absent
    obtain rfl := List.mem_singleton.mp member
    simp [Fields.required, absent]
  · intro fields name value value' omits held
    split at omits
    · next same =>
        subst same
        have refused := Statistics.demands.map _ _ omits
        simp [Fields.withDefault, held, refused]
    · have refused := Findings.ofFields?_of_omits omits held
      simp [refused]

end Model

theorem Confidence.ofName?_name (confidence : Confidence) :
    ofName? confidence.name = some confidence := by
  cases confidence <;> rfl

theorem Severity.ofName?_name (severity : Severity) :
    ofName? severity.name = some severity := by
  cases severity <;> rfl

namespace Quality

/-- The numbers fit a word, the confidences stand from the highest to the
lowest, each at most once, and the categories stand in order. -/
structure Storable (quality : Quality) : Prop where
  counters : ∀ n ∈ [quality.totalFiles, quality.filesAnalyzed,
    quality.filesSkipped, quality.scannersRun, quality.scannersFailed],
    n ≤ maxWord
  confidences : (quality.filesByConfidence.map Prod.fst).Sublist Confidence.all
  files : ∀ entry ∈ quality.filesByConfidence, entry.2 ≤ maxWord
  sorted : Keyed.Sorted quality.findingsByCategory
  findings : ∀ entry ∈ quality.findingsByCategory, entry.2 ≤ maxWord

theorem gapOfJson?_gapToJson (gap : Gap) :
    gapOfJson? (gapToJson gap) = some gap := by
  rw [gapOfJson?, gapToJson, record_obj _ (by simp)]
  simp [Severity.ofName?_name]

theorem printable_gapToJson (gap : Gap) : Printable (gapToJson gap) := by
  simp [gapToJson]

/-- The counts by confidence are found again under the names. -/
theorem confidenceCounts?_ofList {counts : List (Confidence × Nat)}
    (ordered : (counts.map Prod.fst).Sublist Confidence.all) :
    (map natural (obj (counts.map fun (confidence, count) =>
      (confidence.name, nat count)))).bind confidenceCounts? = some counts := by
  match counts, ordered with
  | [], _ => rfl
  | [(.high, _)], _ => rfl
  | [(.medium, _)], _ => rfl
  | [(.low, _)], _ => rfl
  | [(.high, _), (.medium, _)], _ => rfl
  | [(.high, _), (.low, _)], _ => rfl
  | [(.medium, _), (.low, _)], _ => rfl
  | [(.high, _), (.medium, _), (.low, _)], _ => rfl

theorem ofJson?_toJson {quality : Quality} (storable : quality.Storable) :
    ofJson? quality.toJson = some quality := by
  have categories := Statistics.map_countsToJson storable.sorted
  have files : (map natural (obj (quality.filesByConfidence.map
      fun entry => (entry.1.name, nat entry.2)))).bind confidenceCounts? =
        some quality.filesByConfidence :=
    confidenceCounts?_ofList storable.confidences
  have gaps : list gapOfJson? (arr (quality.gaps.map gapToJson)) =
      some quality.gaps :=
    list_encode fun gap _ => gapOfJson?_gapToJson gap
  rw [ofJson?, toJson, record_obj _ (by simp)]
  simp [categories, files, gaps]

theorem Storable.printable {quality : Quality} (storable : quality.Storable) :
    Printable quality.toJson := by
  have counters := storable.counters
  have files : Printable (obj (quality.filesByConfidence.map
      fun (confidence, count) => (confidence.name, nat count))) := by
    refine .obj fun member inside => ?_
    obtain ⟨entry, among, rfl⟩ := List.mem_map.mp inside
    exact .nat (storable.files entry among)
  have categories := Statistics.printable_countsToJson storable.findings
  simp only [List.forall_mem_cons] at counters
  rw [toJson, Printable.obj_iff]
  simp only [List.forall_mem_cons]
  simp [-Printable.obj_iff, files, categories, counters, printable_gapToJson]

/-- The fields of a quality report that have to be given. -/
def shape : Shape :=
  .record ["total_files", "files_analyzed", "files_skipped",
    "files_by_confidence", "findings_by_category", "scanners_run",
    "scanners_failed", "gaps"] fun name =>
      if name = "gaps" then
        .list (.record ["severity", "scanner_id", "message"] fun _ => .plain)
      else .plain

theorem gap_demands : Demands gapOfJson?
    (.record ["severity", "scanner_id", "message"] fun _ => .plain) := by
  refine .record (fun _ _ => rfl) ?_ fun _ _ _ _ => nofun
  intro fields name member absent
  simp only [List.mem_cons, List.not_mem_nil, or_false] at member
  rcases member with rfl | rfl | rfl <;> simp [Fields.required, absent]

theorem demands : Demands ofJson? shape := by
  refine .record ?_ ?_ ?_
  · intro name unknown
    rw [if_neg]
    rintro rfl
    simp at unknown
  · intro fields name member absent
    simp only [List.mem_cons, List.not_mem_nil, or_false] at member
    rcases member with rfl | rfl | rfl | rfl | rfl | rfl | rfl | rfl <;>
      simp [Fields.required, absent]
  · intro fields name value value' omits held
    split at omits
    · next same =>
        subst same
        have refused := gap_demands.list _ _ omits
        simp [Fields.required, held, refused]
    · cases omits

end Quality

namespace ScannerEntry

/-- The number of findings fits a word, and the statistics can be stored. -/
structure Storable (entry : ScannerEntry) : Prop where
  findings : entry.findings ≤ maxWord
  statistics : entry.statistics.Storable

theorem ofJson?_toJson {entry : ScannerEntry} (storable : entry.Storable) :
    ofJson? entry.toJson = some entry := by
  have statistics := Statistics.ofJson?_toJson storable.statistics
  obtain ⟨id, success, findings, warnings, errors, counted⟩ := entry
  rw [ofJson?, toJson]
  cases warnings <;> cases errors <;>
    rw [record_obj _ (by simp [unlessEmpty])] <;>
    simp [unlessEmpty, statistics]

theorem printable_unlessEmpty {name : String} {texts : List String}
    {member : String × Json} (inside : member ∈ unlessEmpty name texts) :
    Printable member.2 := by
  rw [unlessEmpty] at inside
  split at inside
  · cases inside
  · obtain rfl := List.mem_singleton.mp inside
    simp

theorem Storable.printable {entry : ScannerEntry} (storable : entry.Storable) :
    Printable entry.toJson := by
  rw [toJson, Printable.obj_iff]
  intro member inside
  simp only [List.mem_append, List.mem_cons, List.not_mem_nil, or_false]
    at inside
  rcases inside with (((rfl | rfl | rfl) | warnings) | errors) | rfl
  · exact .str _
  · exact .bool _
  · exact .nat storable.findings
  · exact printable_unlessEmpty warnings
  · exact printable_unlessEmpty errors
  · exact storable.statistics.printable

/-- The fields of an entry that have to be given. -/
def shape : Shape :=
  .record ["id", "success", "findings", "statistics"] fun name =>
    if name = "statistics" then Statistics.shape else .plain

theorem demands : Demands ofJson? shape := by
  refine .record ?_ ?_ ?_
  · intro name unknown
    rw [if_neg]
    rintro rfl
    simp at unknown
  · intro fields name member absent
    simp only [List.mem_cons, List.not_mem_nil, or_false] at member
    rcases member with rfl | rfl | rfl | rfl <;>
      simp [Fields.required, absent]
  · intro fields name value value' omits held
    split at omits
    · next same =>
        subst same
        have refused := Statistics.demands _ _ omits
        simp [Fields.required, held, refused]
    · cases omits

end ScannerEntry

namespace ReportDocument

/-- The parts can be stored and the time fits a word. -/
structure Storable (document : ReportDocument) : Prop where
  milliseconds : document.milliseconds ≤ maxWord
  model : document.model.Storable
  quality : document.quality.Storable
  scanners : ∀ entry ∈ document.scanners, entry.Storable

theorem ofJson?_toJson {document : ReportDocument}
    (storable : document.Storable) :
    ofJson? document.toJson = some document := by
  have model := Model.ofJson?_toJson storable.model
  have quality := Quality.ofJson?_toJson storable.quality
  have scanners : list ScannerEntry.ofJson?
      (arr (document.scanners.map ScannerEntry.toJson)) =
        some document.scanners :=
    list_encode fun entry member =>
      ScannerEntry.ofJson?_toJson (storable.scanners entry member)
  rw [ofJson?, toJson, record_obj _ (by simp)]
  simp [model, quality, scanners]

theorem Storable.printable {document : ReportDocument}
    (storable : document.Storable) : Printable document.toJson := by
  have scanners : Printable
      (arr (document.scanners.map ScannerEntry.toJson)) := by
    refine .arr fun item inside => ?_
    obtain ⟨entry, member, rfl⟩ := List.mem_map.mp inside
    exact (storable.scanners entry member).printable
  rw [toJson, Printable.obj_iff]
  simp only [List.forall_mem_cons]
  simp [-Printable.obj_iff, -Printable.arr_iff, storable.milliseconds,
    storable.model.printable, storable.quality.printable, scanners]

/-- The fields of a report that have to be given. -/
def shape : Shape :=
  .record ["version", "project", "root", "duration_ms", "success", "model",
    "quality", "scanners"] fun name =>
      match name with
      | "model" => Model.shape
      | "quality" => Quality.shape
      | "scanners" => .list ScannerEntry.shape
      | _ => .plain

theorem demands : Demands ofJson? shape := by
  refine .record ?_ ?_ ?_
  · intro name unknown
    split <;> first | rfl | simp at unknown
  · intro fields name member absent
    simp only [List.mem_cons, List.not_mem_nil, or_false] at member
    rcases member with rfl | rfl | rfl | rfl | rfl | rfl | rfl | rfl <;>
      simp [Fields.required, absent]
  · intro fields name value value' omits held
    split at omits
    · have refused := Model.demands _ _ omits
      simp [Fields.required, held, refused]
    · have refused := Quality.demands _ _ omits
      simp [Fields.required, held, refused]
    · have refused := ScannerEntry.demands.list _ _ omits
      simp [Fields.required, held, refused]
    · cases omits

/-- A report does not name its project the way a model does, whatever is left
out of it. -/
theorem model?_of_omits {document : ReportDocument} {value : Json}
    (omits : Omits shape document.toJson value) :
    Model.ofJson? value = none := by
  have absent := omits.forall_mem
    (p := fun name => name ≠ "project_name") (by simp)
  obtain ⟨members, rfl, named⟩ := absent
  exact Model.ofJson?_of_absent named

end ReportDocument

namespace Model

theorem ofDocument?_report {document : ReportDocument}
    (storable : document.Storable) :
    ofDocument? document.toJson =
      some (document.model, some document.quality) := by
  rw [ofDocument?, ReportDocument.ofJson?_toJson storable]

/-- A bare model is no report. -/
theorem ofDocument?_model {model : Model} (storable : model.Storable) :
    ofDocument? model.toJson = some (model, none) := by
  have noReport : ReportDocument.ofJson? model.toJson = none := by
    rw [ReportDocument.ofJson?, toJson, Findings.toMembers,
      record_obj _ (by simp)]
    simp
  rw [ofDocument?, noReport, ofJson?_toJson storable]
  rfl

/-- A report from which a field is left out is not read. -/
theorem ofDocument?_of_omits {document : ReportDocument} {value : Json}
    (omits : Omits ReportDocument.shape document.toJson value) :
    ofDocument? value = none := by
  rw [ofDocument?, ReportDocument.demands _ _ omits,
    ReportDocument.model?_of_omits omits]
  rfl

end Model

end ArchSurvey
