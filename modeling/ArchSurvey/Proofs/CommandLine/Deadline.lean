import ArchSurvey.Proofs.CommandLine.Configuration
import ArchSurvey.Proofs.Survey.Closure

/-!
# Deadlines

A scanner that starts is given a deadline, which has to be a moment of the
clock.  The first scanner to start settles whether it is: a survey in which
none starts comes to a report at any time, any other one only while the clock
has room for the time that a scanner may take.
-/

namespace ArchSurvey

namespace Survey

variable {survey : Survey} {timing : Timing} {context : Context}

/-- The deadline is a moment of the clock if the clock has room for the seconds
that a scanner may take. -/
theorem hasDeadline_ofConfig_iff {registry : Registry}
    {config : ProjectConfig} :
    (ofConfig registry config).hasDeadline timing = true ↔
      timing.clock + config.scan.timeoutSeconds ≤ lastSecond := by
  have whole : config.scan.timeoutSeconds * 1000 / 1000 =
      config.scan.timeoutSeconds :=
    Nat.mul_div_cancel _ (by omega)
  simp only [hasDeadline, ofConfig, Duration.ofSeconds, whole,
    decide_eq_true_eq]

theorem hasDeadline_ofConfig_eq_false_iff {registry : Registry}
    {config : ProjectConfig} :
    (ofConfig registry config).hasDeadline timing = false ↔
      lastSecond < timing.clock + config.scan.timeoutSeconds := by
  rw [← Bool.not_eq_true, hasDeadline_ofConfig_iff, Nat.not_le]

/-- Stages in which no scanner applies come to an end with nothing. -/
theorem runStages_of_silent {previous : List (String × ScanResult)}
    {stages : List Stage}
    (silent : ∀ stage ∈ stages, applicableIn context previous stage = []) :
    survey.runStages timing context previous stages = .finished [] := by
  induction stages with
  | nil => rw [runStages]
  | cons stage rest ih =>
      rw [List.forall_mem_cons] at silent
      rw [runStages_cons_of_silent silent.1, ih silent.2]

/-- Without a deadline the first scanner to start ends the survey. -/
theorem runStages_of_late (late : survey.hasDeadline timing = false)
    {previous : List (String × ScanResult)} {stages : List Stage}
    (starts : ¬∀ stage ∈ stages, applicableIn context previous stage = []) :
    survey.runStages timing context previous stages =
      .panicked (some "the deadline lies beyond the clock") := by
  -- As long as no scanner starts, the later stages see the same results.
  induction stages with
  | nil => exact absurd (by simp) starts
  | cons stage rest ih =>
      by_cases silent : applicableIn context previous stage = []
      · rw [runStages_cons_of_silent silent]
        apply ih
        intro none
        exact starts (List.forall_mem_cons.mpr ⟨silent, none⟩)
      · exact runStages_cons_of_late late silent rest

theorem plan_eq_nil_iff (fresh : context.previous = []) :
    survey.plan context = [] ↔
      ∀ stage ∈ survey.stages, applicableIn context [] stage = [] := by
  have same : { context with previous := [] } = context := by
    rw [← fresh]
  simp only [plan, applicableIn, same, List.filter_eq_nil_iff,
    List.mem_flatMap]
  constructor
  · intro none stage member scanner inside
    exact none scanner ⟨stage, member, inside⟩
  · rintro none scanner ⟨stage, member, inside⟩
    exact none stage member scanner inside

/-- Where nothing is planned, nothing is found. -/
theorem run_of_plan_eq_nil (fresh : context.previous = [])
    (empty : survey.plan context = []) :
    survey.run timing context = .finished (reportOf context []) := by
  change (survey.runStages timing context [] survey.stages).bind _ = _
  rw [runStages_of_silent ((plan_eq_nil_iff fresh).mp empty)]
  rfl

/-- Without a deadline a survey panics unless its plan is empty. -/
theorem run_of_late (late : survey.hasDeadline timing = false)
    (fresh : context.previous = []) (planned : survey.plan context ≠ []) :
    survey.run timing context =
      .panicked (some "the deadline lies beyond the clock") := by
  change (survey.runStages timing context [] survey.stages).bind _ = _
  rw [runStages_of_late late (mt (plan_eq_nil_iff fresh).mpr planned)]
  rfl

/-- A survey comes to a report exactly if its plan is empty or its deadlines
are moments of the clock. -/
theorem exists_run_iff (fresh : context.previous = []) :
    (∃ report, survey.run timing context = .finished report) ↔
      survey.plan context = [] ∨ survey.hasDeadline timing = true := by
  by_cases empty : survey.plan context = []
  · simp [run_of_plan_eq_nil fresh empty, empty]
  · cases clock : survey.hasDeadline timing with
    | true => simp [exists_run_of_deadline clock context]
    | false => simp [run_of_late clock fresh empty, empty]

theorem exists_panic_iff (fresh : context.previous = []) :
    (∃ message, survey.run timing context = .panicked message) ↔
      survey.plan context ≠ [] ∧ survey.hasDeadline timing = false := by
  by_cases empty : survey.plan context = []
  · simp [run_of_plan_eq_nil fresh empty, empty]
  · cases clock : survey.hasDeadline timing with
    | true =>
        obtain ⟨report, finished⟩ := exists_run_of_deadline clock context
        simp [finished]
    | false => simp [run_of_late clock fresh empty, empty]

end Survey

/-- A configuration that passes its checks passes them with any other time. -/
theorem ProjectConfig.check_withTimeout {config : ProjectConfig} {seconds : Nat}
    {parallel : Bool}
    (valid : config.check = .ok ()) (time : seconds ≠ 0) :
    ({ config with scan := { config.scan with
        timeoutSeconds := seconds, parallel := parallel } }).check = .ok () := by
  obtain ⟨-, others⟩ := check_eq_ok_iff.mp valid
  exact check_eq_ok_iff.mpr ⟨time, others⟩

namespace CommandLine

/-- The seconds on a command line are at least one. -/
theorem ne_zero_of_seconds {text : String} {seconds : Nat}
    (read : seconds? text = some seconds) : seconds ≠ 0 := by
  rw [seconds?] at read
  obtain ⟨-, positive⟩ := Option.filter_eq_some_iff.mp read
  exact Nat.ne_of_gt (of_decide_eq_true positive)

/-- Whatever the command line says, a scan has a configuration that passes its
checks. -/
theorem check_configure (arguments : Arguments) (disk : Disk) (root : String) :
    ((scanRequest arguments).configure disk root).check = .ok () := by
  have loaded := ProjectConfig.check_load disk root
    (scanRequest arguments).config
  apply ProjectConfig.check_withTimeout loaded
  cases given : (scanRequest arguments).timeoutSeconds with
  | none => exact (ProjectConfig.check_eq_ok_iff.mp loaded).1
  | some seconds =>
      obtain ⟨text, -, read⟩ := Option.bind_eq_some_iff.mp given
      exact ne_zero_of_seconds read

/-- A scan whose survey came to a report does not end in a panic. -/
theorem exitCode_finishScan_ne_exitPanic (session : Session)
    (request : ScanRequest) (config : ProjectConfig) (root : String)
    (report : SurveyReport) :
    (finishScan session request config root report).exitCode ≠ exitPanic := by
  unfold finishScan
  dsimp only
  split
  · simp [Session.refuse, exitError, exitPanic]
  · split <;> simp [exitFailed, exitSuccess, exitPanic]

/-- A scan gets as far as what scanners see of the project. -/
structure Reaches (session : Session) (request : ScanRequest) (root : String)
    (context : Context) : Prop where
  leads : session.disk.canonical request.path = .ok root
  isDirectory : session.disk.isDirectory root = true
  made : Context.ofConfig session.disk root
    (request.configure session.disk root) = .ok context

section

variable {session : Session} {request : ScanRequest} {root : String}
  {context : Context}

theorem Reaches.exitCode_of_dryRun
    (reaches : Reaches session request root context)
    (dry : request.dryRun = true) :
    (runScan session request).exitCode = exitSuccess := by
  obtain ⟨leads, isDirectory, made⟩ := reaches
  rw [runScan, leads]
  simp [isDirectory, made, dry]

theorem Reaches.runScan_of_panicked
    (reaches : Reaches session request root context)
    (scans : request.dryRun = false) {message : Option String}
    (panicked : (Survey.ofConfig (builtinRegistry session.grammars)
      (request.configure session.disk root)).run session.timing context =
        .panicked message) :
    runScan session request =
      { exitCode := exitPanic, disk := session.disk } := by
  obtain ⟨leads, isDirectory, made⟩ := reaches
  rw [runScan, leads]
  simp [isDirectory, made, scans, panicked]

/-- A scan whose survey comes to a report goes on with the report. -/
theorem Reaches.runScan_of_finished
    (reaches : Reaches session request root context)
    (scans : request.dryRun = false) {report : SurveyReport}
    (finished : (Survey.ofConfig (builtinRegistry session.grammars)
      (request.configure session.disk root)).run session.timing context =
        .finished report) :
    runScan session request =
      finishScan session request (request.configure session.disk root) root
        report := by
  obtain ⟨leads, isDirectory, made⟩ := reaches
  rw [runScan, leads]
  simp [isDirectory, made, scans, finished]

/-- A scan that gets no further is refused. -/
theorem refuses_or_reaches (session : Session) (request : ScanRequest) :
    (∃ message, runScan session request = session.refuse message []) ∨
      ∃ root context, Reaches session request root context := by
  cases leads : session.disk.canonical request.path with
  | error fault =>
      left
      rw [runScan, leads]
      exact ⟨_, rfl⟩
  | ok root =>
      cases isDirectory : session.disk.isDirectory root with
      | false =>
          left
          rw [runScan, leads]
          simp only [isDirectory]
          exact ⟨_, rfl⟩
      | true =>
          cases made : Context.ofConfig session.disk root
              (request.configure session.disk root) with
          | error error =>
              left
              rw [runScan, leads]
              simp only [isDirectory, made]
              exact ⟨_, rfl⟩
          | ok context => exact .inr ⟨root, context, leads, isDirectory, made⟩

/-- A scan ends in a panic exactly if it gets as far as starting a scanner and
the clock has no room for the seconds that the scanner may take. -/
theorem exitCode_runScan_eq_exitPanic_iff :
    (runScan session request).exitCode = exitPanic ↔
      request.dryRun = false ∧ ∃ root context,
        Reaches session request root context ∧
          (Survey.ofConfig (builtinRegistry session.grammars)
            (request.configure session.disk root)).plan context ≠ [] ∧
          Survey.lastSecond < session.timing.clock +
            (request.configure session.disk root).scan.timeoutSeconds := by
  have panics {root : String} {context : Context}
      (reaches : Reaches session request root context) :
      (runScan session request).exitCode = exitPanic ↔
        request.dryRun = false ∧ ∃ message, (Survey.ofConfig
          (builtinRegistry session.grammars)
          (request.configure session.disk root)).run session.timing context =
            .panicked message := by
    cases dry : request.dryRun with
    | true => simp [reaches.exitCode_of_dryRun dry, exitSuccess, exitPanic]
    | false =>
        cases outcome : (Survey.ofConfig (builtinRegistry session.grammars)
            (request.configure session.disk root)).run session.timing context with
        | finished report =>
            simp [reaches.runScan_of_finished dry outcome,
              exitCode_finishScan_ne_exitPanic]
        | panicked message => simp [reaches.runScan_of_panicked dry outcome]
  have late {root : String} {context : Context}
      (reaches : Reaches session request root context) :=
    @Survey.exists_panic_iff (Survey.ofConfig (builtinRegistry session.grammars)
      (request.configure session.disk root)) session.timing context
      (Context.previous_ofConfig reaches.made)
  simp only [Survey.hasDeadline_ofConfig_eq_false_iff] at late
  constructor
  · intro panicked
    rcases refuses_or_reaches session request with
      ⟨message, refused⟩ | ⟨root, context, reaches⟩
    · rw [refused] at panicked
      cases panicked
    · obtain ⟨scans, message⟩ := (panics reaches).mp panicked
      exact ⟨scans, root, context, reaches, (late reaches).mp message⟩
  · rintro ⟨scans, root, context, reaches, starts⟩
    exact (panics reaches).mpr ⟨scans, (late reaches).mpr starts⟩

end

end CommandLine

end ArchSurvey
