import ArchSurvey.Proofs.Scan.Removal
import ArchSurvey.Proofs.Scan.Sources
import ArchSurvey.Proofs.Survey.Methods
import ArchSurvey.Proofs.Survey.Project
import ArchSurvey.Proofs.Survey.Ran
import ArchSurvey.Proofs.Survey.Relocation

/-!
# Surveying a project again

A survey of a project in which the patterns of its scanners find what they found
before, and which the clock and the threads treat as before, gives the same
results, stage by stage.
-/

/-!
## Removing a file under the built-in scanners

How a built-in scanner works depends on the name of a project and the settings
alone, so a file that it cannot use changes nothing that it reports.
-/

namespace ArchSurvey

open ArchSurvey.Path (IsName ofPlace)

/-- The files of a project have no say in how it is scanned. -/
theorem builtinMethod_congr (grammars : Bool) (scanner : String)
    {first second : Context} (name : first.projectName = second.projectName)
    (settings : first.settings = second.settings) :
    builtinMethod grammars scanner first =
      builtinMethod grammars scanner second := by
  cases first
  cases second
  cases name
  cases settings
  rfl

theorem reportsAlike_of_mem_builtinScanners {grammars : Bool}
    {scanner : Scanner} (member : scanner ∈ builtinScanners grammars)
    {file : String} {whole rest : Context}
    (without : Context.Without file whole rest)
    (fruitless : (builtinMethod grammars scanner.id whole).Fruitless whole file) :
    scanner.ReportsAlike whole rest :=
  (follows_of_mem_builtinScanners member).reportsAlike_without without
    (builtinMethod_congr grammars scanner.id without.projectName_eq
      without.settings_eq)
    fruitless

/-- A tree with the name of a shop, in a directory at the top of a disk. -/
def atWork (entries : List (String × Node)) : Checkout "shop" entries :=
  have proper : ∀ part ∈ ["work", "shop"], IsName part := by decide
  let disk : Disk :=
    { tree := .directory [("work", .directory [("shop", .directory entries)])]
      current := [] }
  have stands : disk.tree.at? ["work", "shop"] = some (.directory entries) := by
    simp [disk, Node.at?, Node.entry?]
  { disk
    path := ofPlace ["work", "shop"]
    parent := ["work"]
    proper
    stands
    leads := Disk.place_ofPlace proper stands (by simp) true }

/-- The small project with a test. -/
def testedShop : List (String × Node) :=
  shop ++ [("test_app.py", .file (Text.Utf8.encode "import app
".toList))]

theorem wellFormed_testedShop : (Node.directory testedShop).WellFormed := by
  have isName : IsName "app.py" := by decide
  have isTest : IsName "test_app.py" := by decide
  simp [testedShop, shop, Node.WellFormed, Node.EntriesWellFormed, isName,
    isTest]

/-- The test is skipped. -/
theorem fruitless_testedShop (grammars : Bool) (view : View) :
    (builtinMethod grammars "flask-routes"
      ((atWork testedShop).context view)).Fruitless
        ((atWork testedShop).context view)
        ((atWork testedShop).file ["test_app.py"]) := by
  intro pass among files _ _
  cases List.mem_singleton.mp among
  left
  have isTest :
      Source.isTestPath ((atWork testedShop).file ["test_app.py"]) = true := by
    change Source.isTestPath (ofPlace ["work", "shop", "test_app.py"]) = true
    decide
  have refused : (Attempt.finished (!Source.isTestPath
      ((atWork testedShop).file ["test_app.py"]))).getD false = false := by
    rw [isTest]
    rfl
  exact congrArg Prod.fst (TierEngine.parseFile_of_refused refused _ _)

/-- The removed file cannot be read. -/
theorem fruitless_vanished (grammars : Bool) :
    (builtinMethod grammars "npm-dependencies" vanished).Fruitless vanished
      "/shop/package.json" := by
  intro pass among files _ _
  cases List.mem_singleton.mp among
  right
  rw [TierEngine.parseFile, read_vanished]
  rfl

end ArchSurvey

/-!
## Results stage by stage
-/

namespace ArchSurvey

/-- Two courses of a survey in which the deadlines are moments of the clock
alike, each result comes in and each deadline passes as in the other, and all
threads finish, in any order. -/
structure Timing.Alike (survey : Survey) (first second : Timing) : Prop where
  clock : survey.hasDeadline second = survey.hasDeadline first
  arrival : ∀ scanner ∈ survey.scanners,
    second.arrival scanner = first.arrival scanner
  expired : ∀ scanner ∈ survey.scanners,
    second.expired scanner = first.expired scanner
  finishing : ∀ scanners, scanners ⊆ survey.scanners →
    (first.finishing scanners).Perm (List.range scanners.length) ∧
      (second.finishing scanners).Perm (List.range scanners.length)

theorem Timing.Alike.refl {survey : Survey} {timing : Timing}
    (finishing : ∀ scanners, scanners ⊆ survey.scanners →
      (timing.finishing scanners).Perm (List.range scanners.length)) :
    timing.Alike survey timing :=
  ⟨rfl, fun _ _ => rfl, fun _ _ => rfl, fun scanners members =>
    ⟨finishing scanners members, finishing scanners members⟩⟩

namespace Survey

variable {survey : Survey} {timing timing' : Timing} {first second : Context}

/-- Some scanners apply to two projects alike and give the same results,
whatever was found before. -/
structure Repeats (survey : Survey) (timing timing' : Timing)
    (first second : Context) : Prop where
  applies : ∀ scanner ∈ survey.scanners, ∀ previous,
    scanner.isApplicable { second with previous } =
      scanner.isApplicable { first with previous }
  runs : ∀ scanner ∈ survey.scanners, ∀ previous,
    scanner.runIsolated (contextOf timing' { second with previous } scanner) =
      scanner.runIsolated (contextOf timing { first with previous } scanner)

theorem Repeats.applicableIn_eq
    (repeats : survey.Repeats timing timing' first second)
    (previous : List (String × ScanResult)) {stage : Stage}
    (members : stage.scanners ⊆ survey.scanners) :
    applicableIn second previous stage = applicableIn first previous stage := by
  apply List.filter_congr
  intro scanner member
  exact repeats.applies scanner (members member) previous

theorem Repeats.runStage_eq
    (repeats : survey.Repeats timing timing' first second)
    (alike : timing.Alike survey timing')
    (previous : List (String × ScanResult)) {scanners : List Scanner}
    (members : scanners ⊆ survey.scanners) :
    survey.runStage timing' { second with previous } scanners =
      survey.runStage timing { first with previous } scanners := by
  obtain ⟨finishes, finishes'⟩ := alike.finishing scanners members
  rw [runStage_eq_map survey _ finishes, runStage_eq_map survey _ finishes']
  apply List.map_congr_left
  intro scanner member
  have again := repeats.runs scanner (members member) previous
  unfold await
  rw [again, alike.arrival scanner (members member)]

/-- Stage by stage, a survey gives the same again. -/
theorem Repeats.runStages_eq
    (repeats : survey.Repeats timing timing' first second)
    (alike : timing.Alike survey timing')
    (previous : List (String × ScanResult)) {stages : List Stage}
    (members : stages.flatMap Stage.scanners ⊆ survey.scanners) :
    survey.runStages timing' second previous stages =
      survey.runStages timing first previous stages := by
  induction stages generalizing previous with
  | nil => rw [runStages, runStages]
  | cons stage rest ih =>
      rw [List.flatMap_cons, List.append_subset] at members
      have applicable := repeats.applicableIn_eq previous members.1
      have inside : applicableIn first previous stage ⊆ survey.scanners :=
        fun scanner member => members.1 (List.mem_filter.mp member).1
      by_cases silent : applicableIn first previous stage = []
      · rw [runStages_cons_of_silent silent,
          runStages_cons_of_silent (applicable.trans silent)]
        exact ih previous members.2
      · have starts : applicableIn second previous stage ≠ [] :=
          applicable ▸ silent
        cases clock : survey.hasDeadline timing with
        | false =>
            rw [runStages_cons_of_late clock silent,
              runStages_cons_of_late (alike.clock.trans clock) starts]
        | true =>
            rw [runStages_cons_of_deadline clock silent,
              runStages_cons_of_deadline (alike.clock.trans clock) starts,
              applicable]
            dsimp only
            rw [repeats.runStage_eq alike previous inside, ih _ members.2]

/-- A survey gives the same inputs of merging again. -/
theorem Repeats.run_eq (repeats : survey.Repeats timing timing' first second)
    (alike : timing.Alike survey timing')
    (named : second.projectName = first.projectName) {report : SurveyReport}
    (finished : survey.run timing first = .finished report) :
    ∃ report', survey.run timing' second = .finished report' ∧
      report'.results = report.results ∧ report'.model = report.model := by
  obtain ⟨inputs, ran, rfl⟩ := exists_inputs_of_run finished
  have members : survey.stages.flatMap Stage.scanners ⊆ survey.scanners := by
    intro scanner member
    rw [scanners_stages] at member
    exact List.mem_mergeSort.mp member
  have again := repeats.runStages_eq alike [] members
  refine ⟨reportOf second inputs, ?_, rfl, ?_⟩
  · change (survey.runStages timing' second [] survey.stages).bind _ = _
    rw [again, ran]
    rfl
  · change Model.merge second.projectName inputs = Model.merge first.projectName inputs
    rw [named]

end Survey

/-- The patterns of the files that the built-in scanners read. -/
def sourcePatterns : List String :=
  (builtinScanners true).flatMap Scanner.patterns

/-- A built-in scanner looks at no other files. -/
structure Scanner.LooksAtSources (scanner : Scanner) (grammars : Bool) :
    Prop where
  patterns : scanner.patterns ⊆ sourcePatterns
  applicability : scanner.applicability.looksOnlyAt sourcePatterns = true
  passes : ∀ context,
    ∀ pass ∈ (builtinMethod grammars scanner.id context).passes,
      pass.choice.patterns ⊆ sourcePatterns

theorem Method.patterns_single {α : Type} {engine : TierEngine α}
    {patterns among : List String} {conclude : List α → Findings}
    (inside : patterns ⊆ among) :
    ∀ pass ∈ (single engine patterns conclude).passes,
      pass.choice.patterns ⊆ among := by
  intro pass member
  obtain rfl := List.mem_singleton.mp member
  exact inside

theorem Route.Call.patterns_method
    {javaScript typeScript : Grammar.StructuralParser} {component : Component}
    {among : List String} (inside : patterns ⊆ among) :
    ∀ pass ∈ (method javaScript typeScript component).passes,
      pass.choice.patterns ⊆ among := by
  intro pass member
  have plain : "**/*.js" ∈ among := inside (by decide)
  have typed : "**/*.ts" ∈ among := inside (by decide)
  rcases List.mem_cons.mp member with rfl | later
  · exact List.cons_subset.mpr ⟨plain, List.nil_subset _⟩
  · obtain rfl := List.mem_singleton.mp later
    exact List.cons_subset.mpr ⟨typed, List.nil_subset _⟩

theorem looksAtSources_of_mem_builtinScanners {grammars : Bool}
    {scanner : Scanner} (member : scanner ∈ builtinScanners grammars) :
    scanner.LooksAtSources grammars := by
  have patterns : scanner.patterns ⊆ sourcePatterns := by
    have all : ∀ other ∈ builtinScanners grammars,
        ∀ pattern ∈ other.patterns, pattern ∈ sourcePatterns := by
      cases grammars <;> decide
    exact all scanner member
  have looks : scanner.applicability.looksOnlyAt sourcePatterns = true := by
    have all : ∀ other ∈ builtinScanners grammars,
        other.applicability.looksOnlyAt sourcePatterns = true := by
      cases grammars <;> decide
    exact all scanner member
  refine ⟨patterns, looks, fun context => ?_⟩
  simp only [builtinScanners, List.mem_cons, List.not_mem_nil, or_false]
    at member
  rcases member with rfl | rfl | rfl | rfl | rfl | rfl | rfl | rfl | rfl | rfl |
    rfl
  · exact Method.patterns_single patterns
  · exact Method.patterns_single patterns
  · exact Method.patterns_single patterns
  · exact Method.patterns_single patterns
  · exact Method.patterns_single patterns
  · exact Method.patterns_single patterns
  · exact Route.Call.patterns_method patterns
  · exact Method.patterns_single patterns
  · exact Method.patterns_single patterns
  · exact Method.patterns_single patterns
  · exact Method.patterns_single patterns

/-- A built-in scanner applies to two projects with the same sources alike, and
gives the same results. -/
theorem repeats_of_sameSources {grammars : Bool} {survey : Survey}
    (builtin : survey.scanners ⊆ builtinScanners grammars)
    {timing timing' : Timing} (alike : timing.Alike survey timing')
    {first second : Context}
    (same : Context.SameSources sourcePatterns first second) :
    survey.Repeats timing timing' first second := by
  constructor
  · intro scanner member previous
    have looks := looksAtSources_of_mem_builtinScanners (builtin member)
    exact (same.with_previous previous).isApplicable_eq looks.patterns
      looks.applicability
  · intro scanner member previous
    have looks := looksAtSources_of_mem_builtinScanners (builtin member)
    have follows := follows_of_mem_builtinScanners (builtin member)
    have seen : Context.SameSources sourcePatterns
        (Survey.contextOf timing { first with previous } scanner)
        (Survey.contextOf timing' { second with previous } scanner) := by
      rw [Survey.contextOf, Survey.contextOf, alike.expired scanner member]
      exact (same.with_previous previous).with_deadline _
    have method := builtinMethod_congr grammars scanner.id seen.projectName_eq
      seen.settings_eq
    rw [Scanner.runIsolated, Scanner.runIsolated, follows, follows, method,
      Method.scan_eq_of_sameSources seen (looks.passes _)]

end ArchSurvey
