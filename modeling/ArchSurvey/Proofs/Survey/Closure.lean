import ArchSurvey.Proofs.Model.Owners
import ArchSurvey.Proofs.Survey.Owners
import ArchSurvey.Proofs.Survey.Plan
import ArchSurvey.Proofs.Survey.Ran

/-!
# Owners and ends in surveys

In the model of a survey with the built-in scanners every owner of a finding is
a component.  Both ends of every relationship are components as well, unless
entities were found and no scanner reported the service that stores them.
-/

namespace ArchSurvey

variable {timing : Timing} {grammars : Bool} {disk : Disk} {root : String}
  {config : ProjectConfig} {report : SurveyReport}

/-- Whatever the clock and the threads do, a survey in which deadlines are
moments of the clock comes to a report. -/
theorem exists_surveyProject (valid : config.check = .ok ())
    (clock : (Survey.ofConfig (builtinRegistry grammars) config).hasDeadline
      timing = true) (disk : Disk) (root : String) :
    ∃ report, surveyProject timing grammars disk root config =
      .ok (.finished report) := by
  obtain ⟨context, made⟩ := Context.exists_ofConfig_of_check valid disk root
  obtain ⟨report, finished⟩ := Survey.exists_run_of_deadline clock context
  exact ⟨report, surveyProject_eq_ok_iff.mpr ⟨context, made, finished⟩⟩

/-- A report is about some results, of which the successful ones are those of
built-in scanners. -/
theorem exists_inputs_of_surveyProject
    (finished : surveyProject timing grammars disk root config =
      .ok (.finished report)) :
    ∃ context inputs, report = Survey.reportOf context inputs ∧
      ∀ input ∈ inputs, input.result.success = true →
        input.result.Closed (Project.serviceId context.projectName) := by
  obtain ⟨context, -, run⟩ := surveyProject_eq_ok_iff.mp finished
  obtain ⟨inputs, ran, rfl⟩ := Survey.exists_inputs_of_run run
  refine ⟨context, inputs, rfl, ?_⟩
  intro input member success
  obtain ⟨scanner, inside, seen, scanned⟩ :=
    Survey.exists_scan_of_mem_runStages ran member success
  rw [Survey.scanners_stages, List.mem_mergeSort] at inside
  have builtin := mem_builtinScanners_of_mem_ofConfig inside
  rw [scanned] at success ⊢
  exact closed_of_mem_builtinScanners builtin success

theorem surveyProject_eq_reportOf_ran {context : Context}
    (made : Context.ofConfig disk root config = .ok context)
    (punctual : timing.OnTime
      (Survey.ofConfig (builtinRegistry grammars) config)) :
    surveyProject timing grammars disk root config =
      .ok (.finished (Survey.reportOf context (Survey.mergeInputs
        ((Survey.ofConfig (builtinRegistry grammars) config).ran
          context)))) := by
  rw [surveyProject, made, ← Survey.run_eq_reportOf_ran punctual]
  rfl

theorem mem_successes_mergeInputs_iff {ran : List (Scanner × ScanResult)}
    {findings : Findings} :
    findings ∈ Model.successes (Survey.mergeInputs ran) ↔
      ∃ entry ∈ ran, entry.2.success = true ∧ entry.2.findings = findings := by
  rw [Model.mem_successes_iff, Survey.mergeInputs]
  constructor
  · rintro ⟨input, member, success, same⟩
    obtain ⟨entry, among, rfl⟩ := List.mem_map.mp member
    exact ⟨entry, among, success, same⟩
  · rintro ⟨entry, among, success, same⟩
    exact ⟨_, List.mem_map_of_mem among, success, same⟩

/-- Entities were found that classes are mapped to. -/
def SurveyReport.MapsEntities (report : SurveyReport) : Prop :=
  ∃ result ∈ report.results, result.success = true ∧
    result.scanner = "jpa-entities" ∧ result.findings.entities ≠ []

/-- A disk with a project whose only source declares an entity. -/
def entityOnDisk : Disk :=
  { tree := .directory
      [("shop", .directory
        [("A.java",
          .file (Text.Utf8.encode "@Entity class A \x7b\x7d\n".toList))])]
    current := [] }

theorem service_not_mem_entityOnDisk {context : Context}
    (made : Context.ofConfig entityOnDisk "/shop" {} = .ok context)
    {scanner : Scanner} (member : scanner ∈ builtinScanners true) :
    Project.serviceId "shop" ∉
      (scanner.runIsolated context.unhurried).findings.componentIds := by
  revert scanner
  cases made
  decide +kernel

/-- The entity is reported with a relationship of a service that is not. -/
theorem exists_report_entityOnDisk :
    ∃ report, surveyProject {} true entityOnDisk "/shop" {} =
        .ok (.finished report) ∧
      report.projectName = "shop" ∧ report.MapsEntities ∧
      Identity.ofComponent "database" "shop" ∈ report.model.findings.owners ∧
      Project.serviceId "shop" ∈ report.model.findings.ends ∧
      Project.serviceId "shop" ∉ report.model.findings.componentIds := by
  let scanner := Entity.Mapped.scanner (Grammar.Query.parser .entityFields true)
  have valid : ({} : ProjectConfig).check = .ok () := by rfl
  have punctual : ({} : Timing).OnTime
      (Survey.ofConfig (builtinRegistry true) {}) :=
    ⟨by decide, fun _ _ => rfl, fun _ _ _ => rfl, fun _ _ => .refl _⟩
  obtain ⟨context, made⟩ :=
    Context.exists_ofConfig_of_check valid entityOnDisk "/shop"
  have builtin : scanner ∈ builtinScanners true := by
    simp [scanner, builtinScanners]
  have seen : scanner.isApplicable context = true ∧
      context.projectName = "shop" ∧
      (scanner.runIsolated context.unhurried).success = true ∧
      (scanner.runIsolated context.unhurried).scanner = "jpa-entities" ∧
      (scanner.runIsolated context.unhurried).findings.entities ≠ [] ∧
      Identity.ofComponent "database" "shop" ∈
        (scanner.runIsolated context.unhurried).findings.owners ∧
      Project.serviceId "shop" ∈
        (scanner.runIsolated context.unhurried).findings.ends := by
    cases made
    decide +kernel
  obtain ⟨applies, named, success, own, stored, owns, atEnd⟩ := seen
  have ran := mem_ran_ofConfig made builtin (by decide) applies
  have among := mem_successes_mergeInputs_iff.mpr ⟨_, ran, success, rfl⟩
  refine ⟨_, surveyProject_eq_reportOf_ran made punctual, named, ?_,
    Model.mem_owners_merge.mpr ⟨_, among, owns⟩,
    Model.mem_ends_merge.mpr ⟨_, among, atEnd⟩, ?_⟩
  · refine ⟨scanner.runIsolated context.unhurried, ?_, success, own, stored⟩
    rw [Survey.results_reportOf_mergeInputs]
    exact List.mem_map_of_mem ran
  · intro reported
    obtain ⟨findings, among, inside⟩ := Model.mem_componentIds_merge.mp reported
    obtain ⟨entry, member, -, rfl⟩ := mem_successes_mergeInputs_iff.mp among
    obtain ⟨inBuiltin, came⟩ := eq_of_mem_ran_ofConfig member
    rw [came] at inside
    exact service_not_mem_entityOnDisk made inBuiltin inside

end ArchSurvey
