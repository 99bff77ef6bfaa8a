import ArchSurvey.Config.Load
import ArchSurvey.Scan.Registry
import ArchSurvey.Survey.Report
import ArchSurvey.Survey.Builtin

/-!
# Surveys of projects

How the configuration of a project decides on what its scanners see and which of them run.
-/

namespace ArchSurvey

/-- The scanners that a choice admits, by priority and identity. -/
def Registry.select (registry : Registry) (selection : ScannerSelection) : List Scanner :=
  registry.list.filter fun scanner => selection.selects scanner.id

/-- The settings that a configuration gives to scanners; not running side by side is one of
them. -/
def ProjectConfig.scannerSettings (config : ProjectConfig) : List (String × String) :=
  if config.scan.parallel then config.settingTexts
  else Keyed.insert "scan.parallel" "false" config.settingTexts

/-- What scanners see of a project with a configuration. -/
def Context.ofConfig (disk : Disk) (root : String) (config : ProjectConfig) :
    Except ScanError Context := do
  let context ← Context.withExcludes disk root config.scan.exclude
  .ok
    { context with
      projectName := config.projectNameOr context.projectName
      settings := config.scannerSettings }

/-- The survey that a configuration asks for. -/
def Survey.ofConfig (registry : Registry) (config : ProjectConfig) : Survey :=
  { scanners := registry.select config.scanners
    timeout := .ofSeconds config.scan.timeoutSeconds
    parallel := config.scan.parallel }

/-- The registry of the built-in scanners. -/
def builtinRegistry (grammars : Bool) : Registry :=
  .ofList (builtinScanners grammars)

/-- Surveys a project with the built-in scanners and a configuration. -/
def surveyProject (timing : Timing) (grammars : Bool) (disk : Disk) (root : String)
    (config : ProjectConfig) : Except ScanError (Attempt SurveyReport) := do
  let context ← Context.ofConfig disk root config
  return (Survey.ofConfig (builtinRegistry grammars) config).run timing context

end ArchSurvey
