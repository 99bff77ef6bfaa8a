import ArchSurvey.Model.Quality
import ArchSurvey.Scan.Scanner

/-!
# Running a survey

Each stage sees the results of the stages before it.  Inside a stage every scanner has a thread and
a deadline of its own, and hands its result over through a mailbox; the results are collected in
the order of the scanners, whatever the order in which they came in.  What the clock and the
threads do is given as a value, so a run is a function of it.
-/

namespace ArchSurvey

/-!
## Stages

A survey runs its scanners in stages, one for each priority, lowest first; the scanners of a stage
stand in the order of their identities.
-/

/-- Scanners of one priority. -/
structure Stage where
  priority : Int
  scanners : List Scanner

/-- Scanners that are to survey projects. -/
structure Survey where
  scanners : List Scanner
  /-- How long each scanner may take. -/
  timeout : Duration := .ofSeconds 300
  /-- Whether the scanners of a stage run side by side. -/
  parallel : Bool := true

namespace Survey

/-- Puts a scanner in front of stages of at least its priority. -/
def addToStages (scanner : Scanner) : List Stage → List Stage
  | [] => [⟨scanner.priority, [scanner]⟩]
  | stage :: rest =>
      if stage.priority == scanner.priority then
        { stage with scanners := scanner :: stage.scanners } :: rest
      else ⟨scanner.priority, [scanner]⟩ :: stage :: rest

/-- The stages in the order in which they run. -/
def stages (survey : Survey) : List Stage :=
  (survey.scanners.mergeSort Scanner.le).foldr addToStages []

/-- The scanners that would run, as far as that can be told without the results of any. -/
def plan (survey : Survey) (context : Context) : List Scanner :=
  (survey.stages.flatMap Stage.scanners).filter fun scanner => scanner.isApplicable context

end Survey

/-! ## Running a survey -/

/-- When the result of a scanner comes in. -/
inductive Arrival where
  /-- Before the deadline. -/
  | inTime
  /-- After the deadline, while the scanner still has time to hand over what it counted. -/
  | late
  /-- Not while anyone waits for it. -/
  | never
  deriving DecidableEq, Repr

/-- What the clock and the threads do during a run. -/
structure Timing where
  /-- The seconds on the clock when the scanners of a stage start. -/
  clock : Nat := 1
  /-- When the result of a scanner comes in. -/
  arrival : Scanner → Arrival := fun _ => .inTime
  /-- Whether a scanner's deadline has passed when the turn of a file comes. -/
  expired : Scanner → String → Bool := fun _ _ => false
  /-- The order in which the scanners of a stage finish, as positions in the stage. -/
  finishing : List Scanner → List Nat := fun scanners => List.range scanners.length

/-- What comes of a survey. -/
structure SurveyReport where
  projectName : String
  root : String
  model : Model
  quality : Quality
  /-- The results in the order in which the scanners ran. -/
  results : List ScanResult

namespace SurveyReport

/-- The results of the scanners that failed. -/
def failed (report : SurveyReport) : List ScanResult :=
  report.results.filter fun result => !result.success

/-- Whether some scanner failed. -/
def hasFailures (report : SurveyReport) : Bool :=
  !report.failed.isEmpty

end SurveyReport

namespace Survey

/-- The greatest number of seconds that a moment of the clock can have. -/
def lastSecond : Nat := Nat.pow 2 63 - 1

/-- Whether the deadline of a scanner that starts now is a moment of the clock. -/
def hasDeadline (survey : Survey) (timing : Timing) : Bool :=
  timing.clock + survey.timeout.milliseconds / 1000 ≤ lastSecond

/-- What a scanner sees of a project while it has a deadline. -/
def contextOf (timing : Timing) (context : Context) (scanner : Scanner) : Context :=
  { context with deadline := some (timing.expired scanner) }

/-- What the scanners of a stage put into their mailboxes, each under its position, in the order in
which they finish. -/
def deliveries (timing : Timing) (context : Context) (scanners : List Scanner) :
    List (Nat × ScanResult) :=
  (timing.finishing scanners).filterMap fun position =>
    scanners[position]?.map fun scanner =>
      (position, scanner.runIsolated (contextOf timing context scanner))

/-- The result of a scanner, given what is or will be in its mailbox. -/
def await (survey : Survey) (timing : Timing) (scanner : Scanner) (delivered : Option ScanResult) :
    ScanResult :=
  match timing.arrival scanner, delivered with
  | .inTime, some result => result
  | .inTime, none => .failed scanner.id ["scanner thread exited without a result"]
  | .late, some result => .timedOut scanner.id survey.timeout result.statistics
  | _, _ => .timedOut scanner.id survey.timeout {}

/-- The results of the scanners of a stage, in the order of the scanners. -/
def runStage (survey : Survey) (timing : Timing) (context : Context) (scanners : List Scanner) :
    List ScanResult :=
  if survey.parallel then
    let delivered := deliveries timing context scanners
    (scanners.zip (List.range scanners.length)).map fun (scanner, position) =>
      survey.await timing scanner (delivered.lookup position)
  else
    scanners.map fun scanner =>
      survey.await timing scanner
        (some (scanner.runIsolated (contextOf timing context scanner)))

/-- The results by scanner, with some more of them. -/
def addPrevious (previous : List (String × ScanResult)) (results : List ScanResult) :
    List (String × ScanResult) :=
  results.foldl (fun held result => Keyed.insert result.scanner result held) previous

/-- The results of stages, each with the priority of its stage; `previous` holds the results of the
stages before them. -/
def runStages (survey : Survey) (timing : Timing) (context : Context)
    (previous : List (String × ScanResult)) : List Stage → Attempt (List MergeInput)
  | [] => .finished []
  | stage :: rest => do
      let context := { context with previous }
      let scanners := stage.scanners.filter fun scanner => scanner.isApplicable context
      if scanners.isEmpty then runStages survey timing context previous rest
      else if !survey.hasDeadline timing then
        .panicked (some "the deadline lies beyond the clock")
      else
        let results := survey.runStage timing context scanners
        let later ← runStages survey timing context (addPrevious previous results) rest
        .finished (results.map (fun result => ⟨stage.priority, result⟩) ++ later)

/-- Surveys a project.  It panics where a deadline lies beyond the clock. -/
def run (survey : Survey) (timing : Timing) (context : Context) : Attempt SurveyReport := do
  let inputs ← survey.runStages timing context [] survey.stages
  let results := inputs.map MergeInput.result
  .finished
    { projectName := context.projectName
      root := context.root
      model := .merge context.projectName inputs
      quality := .ofResults (context.totalFiles.toOption.getD 0) results
      results }

end Survey

end ArchSurvey
