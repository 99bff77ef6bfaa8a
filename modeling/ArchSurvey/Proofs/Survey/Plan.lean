import ArchSurvey.Proofs.Survey.Methods
import ArchSurvey.Proofs.Survey.Newcomer
import ArchSurvey.Proofs.Survey.Project
import ArchSurvey.Proofs.Survey.Ran

/-!
# Plans

A plan is made without the results of any scanner.  A test without negation
that holds in view of some results holds in view of more of them, so a survey
runs whatever its plan lists, and in the order of the plan.
-/

namespace ArchSurvey

/-- Whether a test neither negates nor calls a test of a scanner's own. -/
def Applicability.isPositive : Applicability → Bool
  | negate _ => false
  | custom _ _ => false
  | and first second => first.isPositive && second.isPositive
  | or first second => first.isPositive && second.isPositive
  | _ => true

section

variable {context : Context} {previous more : List (String × ScanResult)}

theorem Applicability.evaluate_and {first second : Applicability}
    {holds holds' : Bool} (evaluates : first.evaluate context = .pure holds)
    (evaluates' : second.evaluate context = .pure holds') :
    (first.and second).evaluate context = .pure (holds && holds') := by
  rw [evaluate, evaluates]
  cases holds with
  | true => exact evaluates'
  | false => rfl

theorem Applicability.evaluate_or {first second : Applicability}
    {holds holds' : Bool} (evaluates : first.evaluate context = .pure holds)
    (evaluates' : second.evaluate context = .pure holds') :
    (first.or second).evaluate context = .pure (holds || holds') := by
  rw [evaluate, evaluates]
  cases holds with
  | true => rfl
  | false => exact evaluates'

/-- Dependencies that are known answer to the same names, whatever else is
known. -/
theorem Context.dependsOnAny_mono
    (known : { context with previous }.knownDependencies ⊆
      { context with previous := more }.knownDependencies)
    {names : List String}
    (depends : { context with previous }.dependsOnAny names = true) :
    { context with previous := more }.dependsOnAny names = true := by
  obtain ⟨dependency, found, named⟩ := List.any_eq_true.mp depends
  exact List.any_eq_true.mpr ⟨dependency, known found, named⟩

/-- A positive test comes to a value, which more results can only turn from
false to true. -/
theorem Applicability.evaluate_mono {applicability : Applicability}
    (positive : applicability.isPositive = true)
    (known : { context with previous }.knownDependencies ⊆
      { context with previous := more }.knownDependencies) :
    ∃ before after,
      applicability.evaluate { context with previous } = .pure before ∧
      applicability.evaluate { context with previous := more } =
        .pure after ∧
      (before = true → after = true) := by
  induction applicability with
  | always => exact ⟨true, true, rfl, rfl, id⟩
  | never => exact ⟨false, false, rfl, rfl, id⟩
  | hasFiles pattern => exact ⟨_, _, rfl, rfl, id⟩
  | hasAnyFiles patterns => exact ⟨_, _, rfl, rfl, id⟩
  | fileContains pattern needle => exact ⟨_, _, rfl, rfl, id⟩
  | hasDependency name =>
      exact ⟨_, _, rfl, rfl, Context.dependsOnAny_mono known⟩
  | hasAnyDependency names =>
      exact ⟨_, _, rfl, rfl, Context.dependsOnAny_mono known⟩
  | and first second ihFirst ihSecond =>
      obtain ⟨positiveFirst, positiveSecond⟩ := Bool.and_eq_true_iff.mp positive
      obtain ⟨before, after, here, there, holds⟩ := ihFirst positiveFirst
      obtain ⟨before', after', here', there', holds'⟩ :=
        ihSecond positiveSecond
      refine ⟨_, _, evaluate_and here here', evaluate_and there there', ?_⟩
      intro both
      obtain ⟨one, other⟩ := Bool.and_eq_true_iff.mp both
      exact Bool.and_eq_true_iff.mpr ⟨holds one, holds' other⟩
  | or first second ihFirst ihSecond =>
      obtain ⟨positiveFirst, positiveSecond⟩ := Bool.and_eq_true_iff.mp positive
      obtain ⟨before, after, here, there, holds⟩ := ihFirst positiveFirst
      obtain ⟨before', after', here', there', holds'⟩ :=
        ihSecond positiveSecond
      refine ⟨_, _, evaluate_or here here', evaluate_or there there', ?_⟩
      intro either
      apply Bool.or_eq_true_iff.mpr
      rcases Bool.or_eq_true_iff.mp either with one | other
      · exact Or.inl (holds one)
      · exact Or.inr (holds' other)
  | negate test ih => cases positive
  | custom name test => cases positive

/-- A scanner with a positive test that applies goes on to apply when more
dependencies are known. -/
theorem Scanner.isApplicable_mono {scanner : Scanner}
    (positive : scanner.applicability.isPositive = true)
    (known : { context with previous }.knownDependencies ⊆
      { context with previous := more }.knownDependencies)
    (applies : scanner.isApplicable { context with previous } = true) :
    scanner.isApplicable { context with previous := more } = true := by
  obtain ⟨hasFiles, holds⟩ := Bool.and_eq_true_iff.mp applies
  obtain ⟨before, after, evaluates, evaluatesMore, mono⟩ :=
    Applicability.evaluate_mono positive known
  apply Bool.and_eq_true_iff.mpr
  refine ⟨hasFiles, ?_⟩
  rw [Applicability.test, evaluates] at holds
  rw [Applicability.test, evaluatesMore]
  exact mono holds

end

namespace Survey

section

variable {context : Context} (fresh : context.previous = [])

include fresh

/-- Scanners of a stage that apply before anything was found apply in their
order whatever was found. -/
theorem filter_sublist_applicableIn {stage : Stage}
    (positive : ∀ scanner ∈ stage.scanners,
      scanner.applicability.isPositive = true)
    (previous : List (String × ScanResult)) :
    (stage.scanners.filter fun scanner =>
        scanner.isApplicable context).Sublist
      (applicableIn context previous stage) := by
  have nothing : context.knownDependencies = [] := by
    rw [Context.knownDependencies, fresh]
    rfl
  have known :
      { context with previous := context.previous }.knownDependencies ⊆
        { context with previous }.knownDependencies := by
    rw [nothing]
    exact List.nil_subset _
  have narrowed : (stage.scanners.filter fun scanner =>
      scanner.isApplicable context) =
        (applicableIn context previous stage).filter fun scanner =>
          scanner.isApplicable context := by
    rw [applicableIn, List.filter_filter]
    apply List.filter_congr
    intro scanner member
    apply Bool.eq_iff_iff.mpr
    rw [Bool.and_eq_true_iff]
    refine ⟨fun applies => ⟨applies, ?_⟩, And.left⟩
    exact Scanner.isApplicable_mono (positive scanner member) known applies
  rw [narrowed]
  exact List.filter_sublist

/-- Scanners that apply before anything was found run in the order of their
stages. -/
theorem filter_sublist_inStages {stages : List Stage}
    (positive : ∀ scanner ∈ stages.flatMap Stage.scanners,
      scanner.applicability.isPositive = true)
    (previous : List (String × ScanResult)) :
    ((stages.flatMap Stage.scanners).filter fun scanner =>
        scanner.isApplicable context).Sublist
      ((inStages context previous stages).map Prod.fst) := by
  -- A stage runs in view of what those before it found, hence any results.
  induction stages generalizing previous with
  | nil => exact List.Sublist.refl _
  | cons stage rest ih =>
      rw [List.flatMap_cons, List.forall_mem_append] at positive
      have names : (ranIn context previous stage).map Prod.fst =
          applicableIn context previous stage := by
        rw [ranIn, List.map_map]
        exact List.map_id _
      rw [List.flatMap_cons, List.filter_append, inStages, List.map_append,
        names]
      exact (filter_sublist_applicableIn fresh positive.1 previous).append
        (ih positive.2 _)

end

theorem mem_plan_iff {survey : Survey} {context : Context} {scanner : Scanner} :
    scanner ∈ survey.plan context ↔
      scanner ∈ survey.scanners ∧ scanner.isApplicable context = true := by
  rw [plan, List.mem_filter, scanners_stages, List.mem_mergeSort]

/-- Where all tests are positive, a survey runs what its plan lists, in the
same order. -/
theorem plan_sublist_ran {survey : Survey}
    (positive : ∀ scanner ∈ survey.scanners,
      scanner.applicability.isPositive = true)
    {context : Context} (fresh : context.previous = []) :
    (survey.plan context).Sublist ((survey.ran context).map Prod.fst) := by
  apply filter_sublist_inStages fresh
  intro scanner member
  rw [scanners_stages] at member
  exact positive scanner (List.mem_mergeSort.mp member)

/-- Where all tests are positive, a planned scanner has a result in view of some
earlier ones. -/
theorem exists_mem_ran_of_mem_plan {survey : Survey}
    (positive : ∀ scanner ∈ survey.scanners,
      scanner.applicability.isPositive = true)
    {context : Context} (fresh : context.previous = []) {scanner : Scanner}
    (planned : scanner ∈ survey.plan context) :
    ∃ seen, (scanner,
        scanner.runIsolated { context with previous := seen }.unhurried) ∈
      survey.ran context := by
  obtain ⟨⟨ran, result⟩, member, rfl⟩ :=
    List.mem_map.mp ((plan_sublist_ran positive fresh).subset planned)
  obtain ⟨-, seen, came⟩ := mem_of_mem_ran member
  have came : result = _ := came
  exact ⟨seen, came ▸ member⟩

theorem results_reportOf_mergeInputs (context : Context)
    (ran : List (Scanner × ScanResult)) :
    (reportOf context (mergeInputs ran)).results = ran.map Prod.snd := by
  rw [reportOf, mergeInputs, List.map_map]
  rfl

theorem map_scanner_ran {survey : Survey}
    (own : ∀ scanner ∈ survey.scanners, scanner.BearsOwnId)
    (context : Context) :
    ((survey.ran context).map Prod.snd).map ScanResult.scanner =
      ((survey.ran context).map Prod.fst).map Scanner.id := by
  rw [List.map_map, List.map_map]
  apply List.map_congr_left
  intro entry member
  obtain ⟨inside, seen, result⟩ := mem_of_mem_ran member
  rw [Function.comp_apply, Function.comp_apply, result]
  exact (own entry.1 inside).scanner_runIsolated _

end Survey

theorem isPositive_of_mem_builtinScanners {grammars : Bool} {scanner : Scanner}
    (member : scanner ∈ builtinScanners grammars) :
    scanner.applicability.isPositive = true := by
  revert scanner
  cases grammars <;> decide

section

variable {grammars : Bool} {disk : Disk} {root : String}
  {config : ProjectConfig} {context : Context}

/-- No built-in scanner looks at earlier results but to decide on running. -/
theorem independent_of_mem_builtinScanners {scanner : Scanner}
    (member : scanner ∈ builtinScanners grammars) : scanner.Independent where
  plain := by
    revert scanner
    cases grammars <;> decide
  scan_eq := by
    intro context previous
    have follows := follows_of_mem_builtinScanners member
    rw [follows, follows, builtinMethod_with_previous, Method.scan,
      Method.scan, Pass.readAll_with_previous]

/-- What ran in time is a built-in scanner with what it finds at first sight. -/
theorem eq_of_mem_ran_ofConfig {entry : Scanner × ScanResult}
    (member : entry ∈
      (Survey.ofConfig (builtinRegistry grammars) config).ran context) :
    entry.1 ∈ builtinScanners grammars ∧
      entry.2 = entry.1.runIsolated context.unhurried := by
  obtain ⟨inside, seen, came⟩ := Survey.mem_of_mem_ran member
  have builtin := mem_builtinScanners_of_mem_ofConfig inside
  exact ⟨builtin, came.trans ((independent_of_mem_builtinScanners
    builtin).runIsolated_eq context seen context.previous)⟩

theorem mem_ran_ofConfig
    (made : Context.ofConfig disk root config = .ok context)
    {scanner : Scanner} (builtin : scanner ∈ builtinScanners grammars)
    (selected : config.scanners.selects scanner.id = true)
    (applies : scanner.isApplicable context = true) :
    (scanner, scanner.runIsolated context.unhurried) ∈
      (Survey.ofConfig (builtinRegistry grammars) config).ran context := by
  have planned : scanner ∈
      (Survey.ofConfig (builtinRegistry grammars) config).plan context :=
    Survey.mem_plan_iff.mpr
      ⟨mem_ofConfig_iff.mpr ⟨builtin, selected⟩, applies⟩
  obtain ⟨seen, ran⟩ := Survey.exists_mem_ran_of_mem_plan
    (fun _ member => isPositive_of_mem_builtinScanners
      (mem_builtinScanners_of_mem_ofConfig member))
    (Context.previous_ofConfig made) planned
  have came : scanner.runIsolated { context with previous := seen }.unhurried =
      scanner.runIsolated context.unhurried :=
    (eq_of_mem_ran_ofConfig ran).2
  rwa [came] at ran

end

/-- A disk with a project of one source, which names a framework. -/
def sourceOnDisk : Disk :=
  { tree := .directory
      [("shop", .directory
        [("app.py", .file (Text.Utf8.encode "import flask\n".toList))])]
    current := [] }

/-- What an earlier scanner found of the framework. -/
def frameworkFound : ScanResult :=
  .succeeded "pip-poetry-dependencies"
    { dependencies := [{ source := "", group := "flask", artifact := "flask" }] }
    [] {}

end ArchSurvey
