import ArchSurvey.Proofs.Lists
import ArchSurvey.Proofs.Survey.Run

/-!
# Which scanners ran

The scanners of a survey that run on a project, with their results, stage by
stage and without threads and clocks; a run in time reports on them.  Leaving a
scanner out of a survey leaves it out of its stages.

Whatever the clock and the threads do, a successful result in a report is what
its scanner gives in view of some earlier results and under some deadline.
-/

namespace ArchSurvey

namespace Survey

/-- The scanners of a stage that run in view of the results before it, with
their results. -/
def ranIn (context : Context) (previous : List (String × ScanResult))
    (stage : Stage) : List (Scanner × ScanResult) :=
  (applicableIn context previous stage).map fun scanner =>
    (scanner, scanner.runIsolated { context with previous }.unhurried)

/-- The scanners of some stages that run, with their results. -/
def inStages (context : Context) (previous : List (String × ScanResult)) :
    List Stage → List (Scanner × ScanResult)
  | [] => []
  | stage :: rest =>
      let entries := ranIn context previous stage
      entries ++ inStages context (addPrevious previous (entries.map Prod.snd))
        rest

/-- The scanners of a survey that run on a project, with their results. -/
def ran (survey : Survey) (context : Context) : List (Scanner × ScanResult) :=
  inStages context [] survey.stages

section

variable {survey : Survey} {timing : Timing} {context : Context}

/-- Stages in time give what their scanners give. -/
theorem runStages_eq_inStages (punctual : timing.OnTime survey)
    {previous : List (String × ScanResult)} {stages : List Stage}
    (staged : Ascending stages)
    (members : stages.flatMap Stage.scanners ⊆ survey.scanners) :
    survey.runStages timing context previous stages =
      .finished (mergeInputs (inStages context previous stages)) := by
  induction stages generalizing previous with
  | nil => rfl
  | cons stage rest ih =>
      have membersRest := flatMap_subset_of_cons members
      obtain ⟨uniform, -, -, stagedRest⟩ := ascending_cons.mp staged
      by_cases silent : applicableIn context previous stage = []
      · rw [runStages_cons_of_silent silent, inStages, ranIn, silent,
          ih stagedRest membersRest]
        rfl
      · have inside := applicableIn_subset context previous members
        have results : resultsIn timing { context with previous }
            (applicableIn context previous stage) =
              (ranIn context previous stage).map Prod.snd := by
          rw [resultsIn_eq_map punctual inside, ranIn, List.map_map]
          rfl
        have inputs : mergeInputs (ranIn context previous stage) = _ :=
          mergeInputs_of_priority fun entry member => by
            obtain ⟨scanner, applicable, rfl⟩ := List.mem_map.mp member
            exact uniform scanner (List.mem_filter.mp applicable).1
        rw [runStages_cons_of_applicable punctual members silent]
        dsimp only
        rw [results, ih stagedRest membersRest, ← inputs, inStages,
          mergeInputs_append]
        rfl

theorem mem_of_mem_inStages {previous : List (String × ScanResult)}
    {stages : List Stage} {entry : Scanner × ScanResult}
    (member : entry ∈ inStages context previous stages) :
    entry.1 ∈ stages.flatMap Stage.scanners ∧
      ∃ seen, entry.2 =
        entry.1.runIsolated { context with previous := seen }.unhurried := by
  induction stages generalizing previous with
  | nil => cases member
  | cons stage rest ih =>
      rw [List.flatMap_cons]
      rcases List.mem_append.mp member with here | later
      · obtain ⟨scanner, applicable, rfl⟩ := List.mem_map.mp here
        have inside := (List.mem_filter.mp applicable).1
        exact ⟨List.mem_append_left _ inside, previous, rfl⟩
      · obtain ⟨inside, seen⟩ := ih later
        exact ⟨List.mem_append_right _ inside, seen⟩

/-- What ran is a scanner of the survey, with its result in view of some
earlier ones. -/
theorem mem_of_mem_ran {entry : Scanner × ScanResult}
    (member : entry ∈ survey.ran context) :
    entry.1 ∈ survey.scanners ∧ ∃ seen, entry.2 =
      entry.1.runIsolated { context with previous := seen }.unhurried := by
  obtain ⟨inside, seen⟩ := mem_of_mem_inStages member
  rw [scanners_stages] at inside
  exact ⟨List.mem_mergeSort.mp inside, seen⟩

/-- A run in time reports on the scanners that ran. -/
theorem run_eq_reportOf_ran (punctual : timing.OnTime survey) :
    survey.run timing context =
      .finished (reportOf context (mergeInputs (survey.ran context))) := by
  have members : survey.stages.flatMap Stage.scanners ⊆ survey.scanners := by
    rw [scanners_stages]
    exact (List.mergeSort_perm _ _).subset
  have finished : survey.runStages timing context [] survey.stages =
      .finished (mergeInputs (survey.ran context)) :=
    runStages_eq_inStages punctual (ascending_stages survey) members
  change (survey.runStages timing context [] survey.stages).bind _ = _
  rw [finished]
  rfl

end

end Survey

/-- A stage without the scanner of some identity. -/
def Stage.without (id : String) (stage : Stage) : Stage :=
  { stage with scanners := stage.scanners.filter fun scanner => scanner.id != id }

namespace Survey

/-- Stages without the scanner of some identity, those left empty being left
out. -/
def dropScanner (id : String) (stages : List Stage) : List Stage :=
  (stages.map (Stage.without id)).filter fun stage => !stage.scanners.isEmpty

theorem dropScanner_cons_of_nil {id : String} {stage : Stage}
    (empty : (stage.without id).scanners = []) (rest : List Stage) :
    dropScanner id (stage :: rest) = dropScanner id rest := by
  rw [dropScanner, List.map_cons, List.filter_cons_of_neg (by simp [empty])]
  rfl

theorem dropScanner_cons_of_ne_nil {id : String} {stage : Stage}
    (inhabited : (stage.without id).scanners ≠ []) (rest : List Stage) :
    dropScanner id (stage :: rest) =
      stage.without id :: dropScanner id rest := by
  rw [dropScanner, List.map_cons,
    List.filter_cons_of_pos (by simpa using inhabited)]
  rfl

theorem lt_of_mem_dropScanner {id : String} {priority : Int}
    {stages : List Stage}
    (below : ∀ stage ∈ stages, priority < stage.priority) :
    ∀ stage ∈ dropScanner id stages, priority < stage.priority := by
  intro stage member
  obtain ⟨original, among, rfl⟩ :=
    List.mem_map.mp (List.mem_filter.mp member).1
  exact below original among

theorem addToStages_of_lt {scanner : Scanner} {stages : List Stage}
    (below : ∀ stage ∈ stages, scanner.priority < stage.priority) :
    addToStages scanner stages = ⟨scanner.priority, [scanner]⟩ :: stages := by
  cases stages with
  | nil => rfl
  | cons stage rest =>
      have less := below stage List.mem_cons_self
      have different : (stage.priority == scanner.priority) = false := by
        rw [beq_eq_false_iff_ne]
        omega
      rw [addToStages, different]
      rfl

/-- A stage with one scanner is dropped with it. -/
theorem dropScanner_alone (id : String) (scanner : Scanner)
    (rest : List Stage) :
    dropScanner id (⟨scanner.priority, [scanner]⟩ :: rest) =
      if scanner.id = id then dropScanner id rest
      else ⟨scanner.priority, [scanner]⟩ :: dropScanner id rest := by
  split
  · next same =>
      exact dropScanner_cons_of_nil (by simp [Stage.without, same]) _
  · next different =>
      rw [dropScanner_cons_of_ne_nil (by simp [Stage.without, different])]
      simp [Stage.without, different]

/-- Adding a scanner in front and dropping one may be swapped, unless they are
the same. -/
theorem dropScanner_addToStages (id : String) {scanner : Scanner}
    {stages : List Stage} (staged : Ascending stages)
    (lowest : ∀ stage ∈ stages, scanner.priority ≤ stage.priority) :
    dropScanner id (addToStages scanner stages) =
      if scanner.id = id then dropScanner id stages
      else addToStages scanner (dropScanner id stages) := by
  cases stages with
  | nil => exact dropScanner_alone id scanner []
  | cons stage rest =>
      obtain ⟨-, -, above, -⟩ := ascending_cons.mp staged
      have le := lowest stage List.mem_cons_self
      rw [addToStages]
      split
      · next same =>
          have equal : stage.priority = scanner.priority := eq_of_beq same
          have aboveScanner : ∀ later ∈ rest,
              scanner.priority < later.priority := by
            rw [← equal]
            exact above
          split
          · next own =>
              have unchanged : Stage.without id
                  { stage with scanners := scanner :: stage.scanners } =
                    stage.without id := by
                simp [Stage.without, own]
              rw [dropScanner, dropScanner, List.map_cons, List.map_cons,
                unchanged]
          · next different =>
              have joined : Stage.without id
                  { stage with scanners := scanner :: stage.scanners } =
                    { stage.without id with
                      scanners := scanner :: (stage.without id).scanners } := by
                simp [Stage.without, different]
              rw [dropScanner_cons_of_ne_nil (by simp [joined]), joined]
              by_cases empty : (stage.without id).scanners = []
              · rw [dropScanner_cons_of_nil empty,
                  addToStages_of_lt (lt_of_mem_dropScanner aboveScanner), empty,
                  ← equal]
                rfl
              · rw [dropScanner_cons_of_ne_nil empty, addToStages]
                exact (if_pos same).symm
      · next unequal =>
          have less : scanner.priority < stage.priority := by
            have apart : stage.priority ≠ scanner.priority := by
              simpa using unequal
            omega
          have below : ∀ later ∈ stage :: rest,
              scanner.priority < later.priority := by
            intro later member
            rcases List.mem_cons.mp member with rfl | further
            · exact less
            · exact Int.lt_trans less (above later further)
          rw [dropScanner_alone, addToStages_of_lt (lt_of_mem_dropScanner below)]

theorem dropScanner_foldr_addToStages (id : String) {scanners : List Scanner}
    (sorted : scanners.Pairwise fun a b => a.priority ≤ b.priority) :
    dropScanner id (scanners.foldr addToStages []) =
      (scanners.filter fun scanner => scanner.id != id).foldr addToStages [] := by
  induction scanners with
  | nil => rfl
  | cons scanner rest ih =>
      obtain ⟨lowest, sortedRest⟩ := List.pairwise_cons.mp sorted
      have staged := ascending_foldr_addToStages sortedRest
      have below : ∀ stage ∈ rest.foldr addToStages [],
          scanner.priority ≤ stage.priority := by
        intro stage member
        obtain ⟨other, among⟩ :=
          List.exists_mem_of_ne_nil _ (staged.inhabited stage member)
        rw [← staged.uniform stage member other among]
        apply lowest
        rw [← scanners_foldr_addToStages rest]
        exact List.mem_flatMap.mpr ⟨stage, member, among⟩
      rw [List.foldr_cons, dropScanner_addToStages id staged below,
        ih sortedRest]
      split
      · next own => rw [List.filter_cons_of_neg (by simp [own])]
      · next other =>
          rw [List.filter_cons_of_pos (by simpa using other), List.foldr_cons]

/-- The stages of a survey are those of the survey with one more scanner,
without that scanner. -/
theorem stages_eq_dropScanner {survey surveyWith : Survey} {newcomer : Scanner}
    (added : surveyWith.scanners.Perm (newcomer :: survey.scanners))
    (distinct : ((newcomer :: survey.scanners).map Scanner.id).Nodup) :
    survey.stages = dropScanner newcomer.id surveyWith.stages := by
  have others : (newcomer :: survey.scanners).filter
      (fun scanner => scanner.id != newcomer.id) = survey.scanners := by
    rw [List.filter_cons_of_neg (by simp)]
    apply List.filter_eq_self.mpr
    intro scanner member
    have different : scanner.id ≠ newcomer.id := fun equal =>
      (List.nodup_cons.mp distinct).1 (equal ▸ List.mem_map_of_mem member)
    simpa using different
  have sorted : (surveyWith.scanners.mergeSort Scanner.le).Pairwise
      fun a b => a.priority ≤ b.priority :=
    (List.pairwise_mergeSort Scanner.le_trans Scanner.le_total _).imp
      Scanner.priority_le_of_le
  rw [stages, stages, dropScanner_foldr_addToStages newcomer.id sorted,
    mergeSort_eq_of_perm distinct added,
    filter_mergeSort Scanner.le_trans Scanner.le_total, others]

end Survey

end ArchSurvey

namespace ArchSurvey.Survey

/-! ## Successful results -/

variable {survey : Survey} {timing : Timing} {context : Context}

theorem eq_of_success_await {scanner : Scanner} {delivered : Option ScanResult}
    (success : (survey.await timing scanner delivered).success = true) :
    delivered = some (survey.await timing scanner delivered) := by
  unfold await at success ⊢
  split at success
  · rfl
  · cases success
  · cases success
  · cases success

/-- What is in a mailbox is what the scanner at its position gave. -/
theorem exists_scan_of_lookup_deliveries {scanners : List Scanner}
    {position : Nat} {result : ScanResult}
    (held : (deliveries timing context scanners).lookup position =
      some result) :
    ∃ scanner ∈ scanners,
      result = scanner.runIsolated (contextOf timing context scanner) := by
  have boxes := lookup_filterMap_pair
    (fun other => scanners[other]?.map fun scanner =>
      scanner.runIsolated (contextOf timing context scanner))
    (timing.finishing scanners) position
  simp only [Option.map_map] at boxes
  rw [deliveries] at held
  have given := boxes.symm.trans held
  split at given
  · obtain ⟨scanner, stands, rfl⟩ := Option.map_eq_some_iff.mp given
    exact ⟨scanner, List.mem_of_getElem? stands, rfl⟩
  · cases given

theorem exists_scan_of_mem_runStage {scanners : List Scanner}
    {result : ScanResult}
    (member : result ∈ survey.runStage timing context scanners)
    (success : result.success = true) :
    ∃ scanner ∈ scanners,
      result = scanner.runIsolated (contextOf timing context scanner) := by
  rw [runStage] at member
  split at member
  · obtain ⟨⟨scanner, position⟩, -, rfl⟩ := List.mem_map.mp member
    exact exists_scan_of_lookup_deliveries (eq_of_success_await success)
  · obtain ⟨scanner, among, rfl⟩ := List.mem_map.mp member
    have delivered := Option.some.inj (eq_of_success_await success)
    exact ⟨scanner, among, delivered.symm⟩

/-- A stage in which some scanner applies does not come to an end without
deadlines. -/
theorem hasDeadline_of_finished {previous : List (String × ScanResult)}
    {stage : Stage} {rest : List Stage} {inputs : List MergeInput}
    (applicable : applicableIn context previous stage ≠ [])
    (finished : survey.runStages timing context previous (stage :: rest) =
      .finished inputs) :
    survey.hasDeadline timing = true := by
  cases clock : survey.hasDeadline timing with
  | true => rfl
  | false =>
      rw [runStages_cons_of_late clock applicable] at finished
      cases finished

/-- What a run of some stages hands over successfully is a result of one of
their scanners. -/
theorem exists_scan_of_mem_runStages {previous : List (String × ScanResult)}
    {stages : List Stage} {inputs : List MergeInput}
    (finished : survey.runStages timing context previous stages =
      .finished inputs)
    {input : MergeInput} (member : input ∈ inputs)
    (success : input.result.success = true) :
    ∃ scanner ∈ stages.flatMap Stage.scanners, ∃ seen, input.result =
      scanner.runIsolated
        (contextOf timing { context with previous := seen } scanner) := by
  induction stages generalizing previous inputs with
  | nil =>
      cases finished
      cases member
  | cons stage rest ih =>
      rw [List.flatMap_cons]
      by_cases silent : applicableIn context previous stage = []
      · rw [runStages_cons_of_silent silent] at finished
        obtain ⟨scanner, inside, seen⟩ := ih finished member
        exact ⟨scanner, List.mem_append_right _ inside, seen⟩
      · -- Some scanner applies, and the run would not end without deadlines.
        rw [runStages_cons_of_deadline
          (hasDeadline_of_finished silent finished) silent] at finished
        dsimp only at finished
        cases later : survey.runStages timing context
            (addPrevious previous (survey.runStage timing
              { context with previous } (applicableIn context previous stage)))
            rest with
        | panicked message =>
            rw [later] at finished
            cases finished
        | finished others =>
            rw [later] at finished
            cases finished
            rcases List.mem_append.mp member with here | further
            · obtain ⟨result, handed, rfl⟩ := List.mem_map.mp here
              obtain ⟨scanner, applies, scans⟩ :=
                exists_scan_of_mem_runStage handed success
              have inside := (List.mem_filter.mp applies).1
              exact ⟨scanner, List.mem_append_left _ inside, previous, scans⟩
            · obtain ⟨scanner, inside, seen⟩ := ih later further
              exact ⟨scanner, List.mem_append_right _ inside, seen⟩

/-- Where deadlines are moments of the clock, every run comes to an end. -/
theorem exists_runStages_of_deadline (clock : survey.hasDeadline timing = true)
    (previous : List (String × ScanResult)) (stages : List Stage) :
    ∃ inputs, survey.runStages timing context previous stages =
      .finished inputs := by
  induction stages generalizing previous with
  | nil => exact ⟨[], rfl⟩
  | cons stage rest ih =>
      by_cases silent : applicableIn context previous stage = []
      · rw [runStages_cons_of_silent silent]
        exact ih previous
      · rw [runStages_cons_of_deadline clock silent]
        obtain ⟨others, later⟩ := ih (addPrevious previous
          (survey.runStage timing { context with previous }
            (applicableIn context previous stage)))
        dsimp only
        rw [later]
        exact ⟨_, rfl⟩

theorem exists_inputs_of_run {report : SurveyReport}
    (finished : survey.run timing context = .finished report) :
    ∃ inputs, survey.runStages timing context [] survey.stages =
      .finished inputs ∧ report = reportOf context inputs := by
  have finished : (survey.runStages timing context [] survey.stages).bind _ =
      .finished report := finished
  cases outcome : survey.runStages timing context [] survey.stages with
  | panicked message =>
      rw [outcome] at finished
      cases finished
  | finished inputs =>
      rw [outcome] at finished
      cases finished
      exact ⟨inputs, rfl, rfl⟩

theorem exists_run_of_deadline (clock : survey.hasDeadline timing = true)
    (context : Context) :
    ∃ report, survey.run timing context = .finished report := by
  obtain ⟨inputs, finished⟩ :
      ∃ inputs, survey.runStages timing context [] survey.stages =
        .finished inputs :=
    exists_runStages_of_deadline clock [] survey.stages
  refine ⟨reportOf context inputs, ?_⟩
  change (survey.runStages timing context [] survey.stages).bind _ = _
  rw [finished]
  rfl

end ArchSurvey.Survey
