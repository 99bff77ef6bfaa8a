import ArchSurvey.CommandLine.Documents
import ArchSurvey.CommandLine.Request
import ArchSurvey.Console.Report
import ArchSurvey.Json.Printer
import ArchSurvey.Survey.Load
import ArchSurvey.Survey.Project

/-!
# Running requests

What a request makes of a disk, what it prints and how it ends.
-/

namespace ArchSurvey.CommandLine

/-- What surrounds a request. -/
structure Session where
  disk : Disk
  /-- Whether the terminal shows styles. -/
  colors : Bool := false
  /-- Whether the structural parsers have their grammars. -/
  grammars : Bool := true
  timing : Timing := {}
  /-- How long a survey takes. -/
  milliseconds : Nat := 0

/-- What comes of a request. -/
structure Outcome where
  exitCode : Nat
  output : String := ""
  /-- The lines for the error stream. -/
  errors : List String := []
  disk : Disk

/-- The exit code of a request that was met. -/
def exitSuccess : Nat := 0

/-- The exit code of a survey in which a scanner failed. -/
def exitFailed : Nat := 1

/-- The exit code of a request that could not be met. -/
def exitError : Nat := 2

/-- The exit code of a program that panicked. -/
def exitPanic : Nat := 101

/-- The name of the file that a report is saved in. -/
def reportFile : String := "architecture.json"

namespace Session

/-- The end of a request that could not be met. -/
def refuse (session : Session) (message : String) (advice : List String) : Outcome :=
  { exitCode := exitError, errors := ("Error: " ++ message) :: advice, disk := session.disk }

/-- The end of a request that was met without changing the disk. -/
def answer (session : Session) (lines : List String) : Outcome :=
  { exitCode := exitSuccess, output := Console.linesText lines, disk := session.disk }

end Session

/-- A path in double quotes. -/
def quotedPath (path : String) : String :=
  "\"" ++ String.ofList (path.toList.flatMap fun c =>
    match c with
    | '"' => ['\\', '"']
    | '\\' => ['\\', '\\']
    | '\n' => ['\\', 'n']
    | '\r' => ['\\', 'r']
    | '\t' => ['\\', 't']
    | c => [c]) ++ "\""

/-- What is said of a path that leads nowhere. -/
def inaccessible (path : String) (fault : Fault) : String :=
  "cannot access path " ++ quotedPath path ++ ": " ++ fault.message

/-- The configuration of a project, as the request changes it. -/
def ScanRequest.configure (request : ScanRequest) (disk : Disk) (root : String) : ProjectConfig :=
  let config := ProjectConfig.load disk root request.config
  { config with
    scan := { config.scan with
      timeoutSeconds := request.timeoutSeconds.getD config.scan.timeoutSeconds
      parallel := config.scan.parallel && !request.sequential } }

/-- What a configuration asks to be drawn. -/
def drawingPlan (config : ProjectConfig) : Except DrawingError DrawingPlan := do
  return {
    generators := config.generators.enabled
    kinds := ← DiagramKind.ofTexts config.generators.diagrams
    options := config.generators.options
    withIndex := config.output.generateIndex }

/-- The text of a saved report. -/
def reportText (session : Session) (report : SurveyReport) : String :=
  (ReportDocument.ofReport report session.milliseconds).toJson.pretty

/-- Writes the documents of a survey and its report, and tells their paths. -/
def writeSurvey (session : Session) (config : ProjectConfig) (directory : String)
    (report : SurveyReport) : Writing (List String) := fun disk =>
  match drawingPlan config with
  | .error error => (.error (.drawing error), disk)
  | .ok plan =>
      match writeDocuments plan directory report.model (some report.quality) disk with
      | (.error error, disk) => (.error error, disk)
      | (.ok written, disk) =>
          let path := Path.join directory reportFile
          match writeText path (reportText session report) disk with
          | (.error error, disk) => (.error error, disk)
          | (.ok _, disk) => (.ok (written ++ [path]), disk)

/-- The output on a survey. -/
def surveyOutput (session : Session) (format : ReportFormat) (report : SurveyReport)
    (written : List String) : String :=
  match format with
  | .json => reportText session report ++ "\n"
  | .pretty =>
      Console.linesText
        (Console.reportLines session.colors report session.milliseconds written)

/-- The output on a plan. -/
def planOutput (session : Session) (format : ReportFormat) (root : String)
    (planned : List Scanner) : String :=
  match format with
  | .json => (Json.ofStrings (planned.map Scanner.id)).pretty ++ "\n"
  | .pretty => Console.linesText (Console.planLines session.colors root planned)

/-- Reports a survey, its documents written before that unless they are not asked for. -/
def finishScan (session : Session) (request : ScanRequest) (config : ProjectConfig)
    (root : String) (report : SurveyReport) : Outcome :=
  let directory := request.output.getD (Path.join root config.output.directory)
  let (written, disk) :=
    if request.noWrite then (.ok [], session.disk)
    else writeSurvey session config directory report session.disk
  match written with
  | .error error => { session with disk }.refuse error.message []
  | .ok written =>
      { exitCode := if report.hasFailures then exitFailed else exitSuccess
        output := surveyOutput session request.format report written
        disk }

/-- Scans a project. -/
def runScan (session : Session) (request : ScanRequest) : Outcome :=
  match session.disk.canonical request.path with
  | .error fault => session.refuse (inaccessible request.path fault) []
  | .ok root =>
      if !session.disk.isDirectory root then session.refuse (root ++ " is not a directory") []
      else
        let config := request.configure session.disk root
        match Context.ofConfig session.disk root config with
        | .error error => session.refuse error.message []
        | .ok context =>
            let survey := Survey.ofConfig (builtinRegistry session.grammars) config
            if request.dryRun then
              { exitCode := exitSuccess
                output := planOutput session request.format root (survey.plan context)
                disk := session.disk }
            else
              match survey.run session.timing context with
              | .panicked _ => { exitCode := exitPanic, disk := session.disk }
              | .finished report => finishScan session request config root report

/-- Lists scanners, with those that apply to a project told apart if one is given. -/
def runList (session : Session) (request : ListRequest) : Outcome :=
  let registry := builtinRegistry session.grammars
  if request.generators then session.answer Console.generatorListLines
  else
    match request.path with
    | none => session.answer (Console.scannerListLines session.colors registry.list none)
    | some path =>
        match session.disk.canonical path with
        | .error fault => session.refuse (inaccessible path fault) []
        | .ok root =>
            let config := ProjectConfig.load session.disk root none
            match Context.ofConfig session.disk root config with
            | .error error => session.refuse error.message []
            | .ok context =>
                let planned := (Survey.ofConfig registry config).plan context
                session.answer
                  (Console.scannerListLines session.colors registry.list
                    (some (planned.map Scanner.id)))

/-- The directory that documents are generated into: the one asked for, or that of the input. -/
def GenerateRequest.directory (request : GenerateRequest) : String :=
  match request.output with
  | some output => output
  | none =>
      match Path.parent? request.input with
      | none => "."
      | some "" => "."
      | some parent => parent

/-- The generators that are to be used. -/
def GenerateRequest.chosenGenerators (request : GenerateRequest) : List String :=
  if request.generators.isEmpty then ({} : GeneratorSettings).enabled else request.generators

/-- The kinds of diagram asked for, if they and the generators pass the checks of a
configuration. -/
def GenerateRequest.kinds (request : GenerateRequest) : Except String (List DiagramKind) := do
  let kinds ← (DiagramKind.ofTexts request.types).mapError DrawingError.message
  let config : ProjectConfig :=
    { generators := { enabled := request.chosenGenerators, diagrams := request.types } }
  config.check.mapError ConfigError.message
  return kinds

/-- Generates documents from a saved report or model. -/
def runGenerate (session : Session) (request : GenerateRequest) : Outcome :=
  match Model.load session.disk request.input with
  | .error error =>
      session.refuse error.message
        ["Run '" ++ Console.programName ++ " scan' first to produce " ++ reportFile]
  | .ok (model, quality) =>
      match request.kinds with
      | .error message => session.refuse message []
      | .ok kinds =>
          let plan : DrawingPlan :=
            { generators := request.chosenGenerators
              kinds
              withIndex := request.types.isEmpty }
          match writeDocuments plan request.directory model quality session.disk with
          | (.error error, disk) => { session with disk }.refuse error.message []
          | (.ok written, disk) =>
              { session with disk }.answer (written.map ("Wrote " ++ ·))

/-- Meets a request. -/
def run (session : Session) : Request → Outcome
  | .scan request => runScan session request
  | .list request => runList session request
  | .generate request => runGenerate session request

/-- Meets the request that a command line makes. -/
def runWords (session : Session) (words : List String) : Outcome :=
  match readRequest words with
  | .ok request => run session request
  | .error .version => session.answer [Console.programName ++ " " ++ version]
  | .error .help => { exitCode := exitSuccess, disk := session.disk }
  | .error .misuse => { exitCode := exitError, disk := session.disk }

end ArchSurvey.CommandLine
