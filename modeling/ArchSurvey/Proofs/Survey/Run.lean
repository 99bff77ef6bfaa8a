import ArchSurvey.Proofs.Survey.Mailboxes
import ArchSurvey.Proofs.Survey.Sequence
import ArchSurvey.Survey.Run

/-!
# Laws of runs

The stages of a survey, and what running them comes to.
-/

namespace ArchSurvey

/-!
## Laws of stages

Laid end to end, the stages of a survey are its scanners by priority and
identity; the scanners of a stage have its priority, and stages ascend.
-/

namespace Scanner

/-- The order by priority and then by identity. -/
def Precedes (a b : Scanner) : Prop :=
  a.priority < b.priority ∨ a.priority = b.priority ∧ a.id < b.id

theorem le_iff {a b : Scanner} :
    a.le b = true ↔
      a.priority < b.priority ∨ a.priority = b.priority ∧ a.id ≤ b.id := by
  simp [Scanner.le]

theorem le_trans (a b c : Scanner) (first : a.le b = true)
    (second : b.le c = true) : a.le c = true := by
  rw [le_iff] at first second ⊢
  rcases first with less | ⟨equal, le⟩
  · left
    rcases second with less' | ⟨equal', -⟩ <;> omega
  · rcases second with less' | ⟨equal', le'⟩
    · left
      omega
    · exact Or.inr ⟨equal.trans equal', String.le_trans le le'⟩

theorem le_total (a b : Scanner) : (a.le b || b.le a) = true := by
  rw [Bool.or_eq_true, le_iff, le_iff]
  rcases Int.lt_trichotomy a.priority b.priority with less | equal | greater
  · exact Or.inl (Or.inl less)
  · rcases String.le_total a.id b.id with le | ge
    · exact Or.inl (Or.inr ⟨equal, le⟩)
    · exact Or.inr (Or.inr ⟨equal.symm, ge⟩)
  · exact Or.inr (Or.inl greater)

theorem priority_le_of_le {a b : Scanner} (le : a.le b = true) :
    a.priority ≤ b.priority := by
  rcases le_iff.mp le with less | ⟨equal, -⟩ <;> omega

/-- Different identities leave no ties. -/
theorem precedes_of_le {a b : Scanner} (different : a.id ≠ b.id)
    (le : a.le b = true) : a.Precedes b := by
  rcases le_iff.mp le with less | ⟨equal, below⟩
  · exact Or.inl less
  · exact Or.inr ⟨equal, Std.lt_of_le_of_ne below different⟩

theorem Precedes.asymm {a b : Scanner} (first : a.Precedes b) :
    ¬b.Precedes a := by
  rintro (less | ⟨equal, less⟩)
  · rcases first with less' | ⟨equal', -⟩ <;> omega
  · rcases first with less' | ⟨-, less'⟩
    · omega
    · exact String.lt_asymm less less'

end Scanner

/-- Scanners with different identities, sorted by priority and identity. -/
theorem pairwise_precedes_mergeSort {scanners : List Scanner}
    (distinct : (scanners.map Scanner.id).Nodup) :
    (scanners.mergeSort Scanner.le).Pairwise Scanner.Precedes := by
  have sorted :=
    List.pairwise_mergeSort Scanner.le_trans Scanner.le_total scanners
  have apart : (scanners.mergeSort Scanner.le).Pairwise
      (fun a b => a.id ≠ b.id) := by
    have permuted := (List.mergeSort_perm scanners Scanner.le).map Scanner.id
    exact List.pairwise_map.mp (permuted.symm.nodup distinct)
  exact sorted.imp₂ (fun _ _ le different =>
    Scanner.precedes_of_le different le) apart

/-- Scanners with different identities have one arrangement by priority and
identity, in whatever order they are given. -/
theorem mergeSort_eq_of_perm {scanners other : List Scanner}
    (distinct : (scanners.map Scanner.id).Nodup)
    (permuted : other.Perm scanners) :
    other.mergeSort Scanner.le = scanners.mergeSort Scanner.le := by
  have distinctOther : (other.map Scanner.id).Nodup :=
    (permuted.map Scanner.id).symm.nodup distinct
  refine List.Perm.eq_of_pairwise ?_
    (pairwise_precedes_mergeSort distinctOther)
    (pairwise_precedes_mergeSort distinct) ?_
  · intro a b _ _ first second
    exact absurd second first.asymm
  · exact (List.mergeSort_perm other _).trans
      (permuted.trans (List.mergeSort_perm scanners _).symm)

namespace Survey

theorem scanners_addToStages (scanner : Scanner) (stages : List Stage) :
    (addToStages scanner stages).flatMap Stage.scanners =
      scanner :: stages.flatMap Stage.scanners := by
  cases stages with
  | nil => rfl
  | cons stage rest =>
      rw [addToStages]
      split <;> rfl

/-- Stages in the order of their priorities, which are those of their
scanners. -/
structure Ascending (stages : List Stage) : Prop where
  uniform : ∀ stage ∈ stages, ∀ scanner ∈ stage.scanners,
    scanner.priority = stage.priority
  inhabited : ∀ stage ∈ stages, stage.scanners ≠ []
  ascending : stages.Pairwise fun a b => a.priority < b.priority

theorem ascending_cons {stage : Stage} {rest : List Stage} :
    Ascending (stage :: rest) ↔
      (∀ scanner ∈ stage.scanners, scanner.priority = stage.priority) ∧
      stage.scanners ≠ [] ∧
      (∀ later ∈ rest, stage.priority < later.priority) ∧ Ascending rest := by
  constructor
  · rintro ⟨uniform, inhabited, ascending⟩
    obtain ⟨below, ascendingRest⟩ := List.pairwise_cons.mp ascending
    rw [List.forall_mem_cons] at uniform inhabited
    exact ⟨uniform.1, inhabited.1, below, uniform.2, inhabited.2,
      ascendingRest⟩
  · rintro ⟨uniform, inhabited, below, stagedRest⟩
    exact ⟨List.forall_mem_cons.mpr ⟨uniform, stagedRest.uniform⟩,
      List.forall_mem_cons.mpr ⟨inhabited, stagedRest.inhabited⟩,
      List.pairwise_cons.mpr ⟨below, stagedRest.ascending⟩⟩

theorem Ascending.addToStages {scanner : Scanner} {stages : List Stage}
    (staged : Ascending stages)
    (lowest : ∀ other ∈ stages.flatMap Stage.scanners,
      scanner.priority ≤ other.priority) :
    Ascending (addToStages scanner stages) := by
  cases stages with
  | nil => exact ascending_cons.mpr ⟨by simp, by simp, by simp, staged⟩
  | cons stage rest =>
      obtain ⟨uniform, inhabited, below, stagedRest⟩ :=
        ascending_cons.mp staged
      have atMost : scanner.priority ≤ stage.priority := by
        obtain ⟨other, member⟩ := List.exists_mem_of_ne_nil _ inhabited
        rw [← uniform other member]
        exact lowest other
          (List.mem_flatMap.mpr ⟨stage, List.mem_cons_self, member⟩)
      rw [Survey.addToStages]
      split
      · next same =>
          refine ascending_cons.mpr ⟨?_, by simp, below, stagedRest⟩
          intro inner member
          rcases List.mem_cons.mp member with rfl | among
          · exact (eq_of_beq same).symm
          · exact uniform inner among
      · next different =>
          have less : scanner.priority < stage.priority := by
            have unequal : stage.priority ≠ scanner.priority := by
              simpa using different
            omega
          refine ascending_cons.mpr ⟨by simp, by simp, ?_, staged⟩
          intro later member
          rcases List.mem_cons.mp member with rfl | further
          · exact less
          · exact Int.lt_trans less (below later further)

theorem scanners_foldr_addToStages (scanners : List Scanner) :
    (scanners.foldr addToStages []).flatMap Stage.scanners = scanners := by
  induction scanners with
  | nil => rfl
  | cons scanner rest ih =>
      rw [List.foldr_cons, scanners_addToStages, ih]

theorem ascending_foldr_addToStages {scanners : List Scanner}
    (sorted : scanners.Pairwise fun a b => a.priority ≤ b.priority) :
    Ascending (scanners.foldr addToStages []) := by
  induction scanners with
  | nil => exact ⟨by simp, by simp, List.Pairwise.nil⟩
  | cons scanner rest ih =>
      obtain ⟨lowest, sortedRest⟩ := List.pairwise_cons.mp sorted
      apply (ih sortedRest).addToStages
      rw [scanners_foldr_addToStages]
      exact lowest

/-- The stages of a survey, end to end, are its scanners in order. -/
theorem scanners_stages (survey : Survey) :
    survey.stages.flatMap Stage.scanners =
      survey.scanners.mergeSort Scanner.le :=
  scanners_foldr_addToStages _

theorem ascending_stages (survey : Survey) : Ascending survey.stages := by
  apply ascending_foldr_addToStages
  exact (List.pairwise_mergeSort Scanner.le_trans Scanner.le_total
    survey.scanners).imp Scanner.priority_le_of_le

end Survey

/-!
## Runs in time

Where no scanner exceeds its deadline, a survey comes to what its scanners give
in sequence, however their threads finish and whether or not they run side by
side.
-/

/-- No scanner exceeds its deadline: deadlines are moments of the clock, every
result comes in before its deadline, and all threads finish, in some order. -/
structure Timing.OnTime (timing : Timing) (survey : Survey) : Prop where
  clock : survey.hasDeadline timing = true
  arrival : ∀ scanner ∈ survey.scanners, timing.arrival scanner = .inTime
  expired : ∀ scanner ∈ survey.scanners, ∀ file,
    timing.expired scanner file = false
  finishing : ∀ scanners, scanners ⊆ survey.scanners →
    (timing.finishing scanners).Perm (List.range scanners.length)

namespace Survey

/-- The scanners of a stage that apply in view of the results before it. -/
def applicableIn (context : Context) (previous : List (String × ScanResult))
    (stage : Stage) : List Scanner :=
  stage.scanners.filter fun scanner =>
    scanner.isApplicable { context with previous }

/-- Stage by stage, threads and mailboxes lead to some inputs of merging. -/
inductive Executes (survey : Survey) (timing : Timing) (context : Context) :
    List (String × ScanResult) → List Stage → List MergeInput → Prop where
  | done {previous : List (String × ScanResult)} :
      Executes survey timing context previous [] []
  | skip {previous : List (String × ScanResult)} {stage : Stage}
      {rest : List Stage} {inputs : List MergeInput}
      (silent : applicableIn context previous stage = [])
      (later : Executes survey timing context previous rest inputs) :
      Executes survey timing context previous (stage :: rest) inputs
  | stage {previous : List (String × ScanResult)} {stage : Stage}
      {rest : List Stage} {results : List ScanResult}
      {inputs : List MergeInput}
      (applicable : applicableIn context previous stage ≠ [])
      (yields : StageYields survey timing { context with previous }
        (applicableIn context previous stage) results)
      (later : Executes survey timing context (addPrevious previous results)
        rest inputs) :
      Executes survey timing context previous (stage :: rest)
        (results.map (fun result => ⟨stage.priority, result⟩) ++ inputs)

section

variable {survey : Survey} {timing : Timing} {context : Context}

theorem contextOf_eq_unhurried (punctual : timing.OnTime survey)
    {scanner : Scanner} (member : scanner ∈ survey.scanners) :
    contextOf timing context scanner = context.unhurried := by
  have open' : timing.expired scanner = fun _ => false :=
    funext (punctual.expired scanner member)
  rw [contextOf, open', Context.unhurried]

theorem resultsIn_eq_map (punctual : timing.OnTime survey)
    {scanners : List Scanner} (members : scanners ⊆ survey.scanners) :
    resultsIn timing context scanners =
      scanners.map fun scanner => scanner.runIsolated context.unhurried := by
  apply List.map_congr_left
  intro scanner member
  rw [contextOf_eq_unhurried punctual (members member)]

/-- A mailbox holds what was put into it, whatever went into others. -/
theorem lookup_filterMap_pair {α : Type} (value : Nat → Option α)
    (positions : List Nat) (position : Nat) :
    (positions.filterMap fun other =>
        (value other).map fun held => (other, held)).lookup position =
      if position ∈ positions then value position else none := by
  induction positions with
  | nil => rfl
  | cons first rest ih =>
      rw [List.filterMap_cons]
      cases held : value first with
      | none =>
          by_cases same : position = first
          · subst same
            simp only [Option.map_none, ih, held]
            simp
          · simp [ih, same]
      | some result =>
          by_cases same : position = first
          · subst same
            simp [held]
          · have different : (position == first) = false := by simp [same]
            simp [List.lookup_cons, different, ih, same]

theorem lookup_deliveries {scanners : List Scanner}
    (finishes : (timing.finishing scanners).Perm (List.range scanners.length))
    {position : Nat} (inside : position < scanners.length) :
    (deliveries timing context scanners).lookup position =
      some (scanners[position].runIsolated
        (contextOf timing context scanners[position])) := by
  have finished : position ∈ timing.finishing scanners :=
    finishes.mem_iff.mpr (List.mem_range.mpr inside)
  have delivered := lookup_filterMap_pair
    (fun other => scanners[other]?.map fun scanner =>
      scanner.runIsolated (contextOf timing context scanner))
    (timing.finishing scanners) position
  rw [if_pos finished, List.getElem?_eq_getElem inside] at delivered
  simp only [Option.map_map] at delivered
  exact delivered

/-- In either mode, every scanner of a stage whose threads all finish is waited
for in its turn. -/
theorem runStage_eq_map (survey : Survey) (context : Context)
    {scanners : List Scanner} (finishes : (timing.finishing scanners).Perm
      (List.range scanners.length)) :
    survey.runStage timing context scanners =
      scanners.map fun scanner => survey.await timing scanner
        (some (scanner.runIsolated (contextOf timing context scanner))) := by
  rw [runStage]
  split
  · apply List.ext_getElem
    · simp
    · intro position _ inside
      have inside : position < scanners.length := by
        simpa using inside
      simp only [List.getElem_map, List.getElem_zip, List.getElem_range]
      rw [lookup_deliveries finishes inside]
  · rfl

/-- The results of a stage in time are those of its scanners, in their order. -/
theorem runStage_eq_resultsIn (context : Context)
    (punctual : timing.OnTime survey) {scanners : List Scanner}
    (members : scanners ⊆ survey.scanners) :
    survey.runStage timing context scanners =
      resultsIn timing context scanners := by
  rw [runStage_eq_map survey context (punctual.finishing scanners members)]
  apply List.map_congr_left
  intro scanner member
  unfold await
  rw [punctual.arrival scanner (members member)]

end

/-- Results that bear the identities of their scanners are added under them. -/
theorem addPrevious_byScanner {ran entries : List (Scanner × ScanResult)}
    (own : ∀ entry ∈ entries, entry.2.scanner = entry.1.id) :
    addPrevious (byScanner ran) (entries.map Prod.snd) =
      byScanner (ran ++ entries) := by
  rw [byScanner, byScanner, Keyed.ofList, Keyed.ofList, List.map_append,
    List.foldl_append]
  generalize (ran.map fun entry => (entry.1.id, entry.2)).foldl _ [] = held
  induction entries generalizing held with
  | nil => rfl
  | cons entry rest ih =>
      have here := own entry List.mem_cons_self
      rw [List.map_cons, List.map_cons, addPrevious, List.foldl_cons,
        List.foldl_cons, here]
      exact ih (fun other member => own other (List.mem_cons_of_mem _ member)) _

section

variable {survey : Survey} {timing : Timing} {context : Context}

theorem applicableIn_subset (context : Context)
    (previous : List (String × ScanResult)) {stage : Stage} {rest : List Stage}
    (members : (stage :: rest).flatMap Stage.scanners ⊆ survey.scanners) :
    applicableIn context previous stage ⊆ survey.scanners := by
  intro scanner member
  apply members
  rw [List.flatMap_cons]
  exact List.mem_append_left _ (List.mem_filter.mp member).1

theorem flatMap_subset_of_cons {stage : Stage} {rest : List Stage}
    (members : (stage :: rest).flatMap Stage.scanners ⊆ survey.scanners) :
    rest.flatMap Stage.scanners ⊆ survey.scanners := by
  intro scanner member
  apply members
  rw [List.flatMap_cons]
  exact List.mem_append_right _ member

/-- A context passes on nothing of what an earlier stage saw. -/
theorem runStages_with_previous (earlier previous : List (String × ScanResult))
    (stages : List Stage) :
    survey.runStages timing { context with previous := earlier } previous
        stages =
      survey.runStages timing context previous stages := by
  cases stages with
  | nil => rfl
  | cons stage rest => rw [runStages, runStages]

theorem runStages_cons_of_silent {previous : List (String × ScanResult)}
    {stage : Stage} (silent : applicableIn context previous stage = [])
    (rest : List Stage) :
    survey.runStages timing context previous (stage :: rest) =
      survey.runStages timing context previous rest := by
  rw [runStages]
  unfold applicableIn at silent
  simp [silent, runStages_with_previous]

/-- Where deadlines are moments of the clock, a stage in which some scanner
applies hands its results to the stages after it. -/
theorem runStages_cons_of_deadline (clock : survey.hasDeadline timing = true)
    {previous : List (String × ScanResult)} {stage : Stage}
    (applicable : applicableIn context previous stage ≠ [])
    (rest : List Stage) :
    survey.runStages timing context previous (stage :: rest) =
      let results := survey.runStage timing { context with previous }
        (applicableIn context previous stage)
      (survey.runStages timing context (addPrevious previous results) rest).bind
        fun later => .finished
          (results.map (fun result => ⟨stage.priority, result⟩) ++ later) := by
  have inhabited : (applicableIn context previous stage).isEmpty = false :=
    List.isEmpty_eq_false_iff.mpr applicable
  unfold applicableIn at inhabited ⊢
  rw [runStages]
  simp only [inhabited, clock, Bool.not_true, Bool.false_eq_true, if_false,
    runStages_with_previous]
  rfl

/-- A stage in which some scanner applies panics if its deadline is no moment
of the clock. -/
theorem runStages_cons_of_late (late : survey.hasDeadline timing = false)
    {previous : List (String × ScanResult)} {stage : Stage}
    (applicable : applicableIn context previous stage ≠ [])
    (rest : List Stage) :
    survey.runStages timing context previous (stage :: rest) =
      .panicked (some "the deadline lies beyond the clock") := by
  have inhabited : (applicableIn context previous stage).isEmpty = false :=
    List.isEmpty_eq_false_iff.mpr applicable
  unfold applicableIn at inhabited
  rw [runStages]
  simp only [inhabited, late]
  rfl

/-- A stage in time hands the results of its scanners to the stages after it. -/
theorem runStages_cons_of_applicable (punctual : timing.OnTime survey)
    {previous : List (String × ScanResult)} {stage : Stage} {rest : List Stage}
    (members : (stage :: rest).flatMap Stage.scanners ⊆ survey.scanners)
    (applicable : applicableIn context previous stage ≠ []) :
    survey.runStages timing context previous (stage :: rest) =
      let results := resultsIn timing { context with previous }
        (applicableIn context previous stage)
      (survey.runStages timing context (addPrevious previous results) rest).bind
        fun later => .finished
          (results.map (fun result => ⟨stage.priority, result⟩) ++ later) := by
  rw [runStages_cons_of_deadline punctual.clock applicable,
    runStage_eq_resultsIn _ punctual
      (applicableIn_subset context previous members)]

/-- A run in time computes what threads and mailboxes lead to. -/
theorem executes_iff (punctual : timing.OnTime survey)
    {previous : List (String × ScanResult)} {stages : List Stage}
    (members : stages.flatMap Stage.scanners ⊆ survey.scanners)
    {inputs : List MergeInput} :
    Executes survey timing context previous stages inputs ↔
      survey.runStages timing context previous stages = .finished inputs := by
  induction stages generalizing previous inputs with
  | nil =>
      constructor
      · intro executed
        cases executed with
        | done => rfl
      · intro finished
        cases finished
        exact .done
  | cons stage rest ih =>
      have membersRest := flatMap_subset_of_cons members
      by_cases silent : applicableIn context previous stage = []
      · rw [runStages_cons_of_silent silent]
        constructor
        · intro executed
          cases executed with
          | skip _ later => exact (ih membersRest).mp later
          | stage applicable => exact absurd silent applicable
        · intro finished
          exact .skip silent ((ih membersRest).mpr finished)
      · rw [runStages_cons_of_applicable punctual members silent]
        constructor
        · intro executed
          cases executed with
          | skip silent' => exact absurd silent' silent
          | stage _ yields later =>
              rw [stageYields_iff] at yields
              subst yields
              dsimp only
              rw [(ih membersRest).mp later]
              rfl
        · intro finished
          dsimp only at finished
          cases outcome : survey.runStages timing context
              (addPrevious previous (resultsIn timing { context with previous }
                (applicableIn context previous stage))) rest with
          | panicked message =>
              rw [outcome] at finished
              cases finished
          | finished later =>
              rw [outcome] at finished
              cases finished
              exact .stage silent (stageYields_iff.mpr rfl)
                ((ih membersRest).mpr outcome)

/-- Stages in time give what their scanners give in sequence. -/
theorem runStages_eq_inSequence (punctual : timing.OnTime survey)
    (own : ∀ scanner ∈ survey.scanners, scanner.BearsOwnId)
    {ran : List (Scanner × ScanResult)} {stages : List Stage}
    (staged : Ascending stages)
    (members : stages.flatMap Stage.scanners ⊆ survey.scanners)
    (below : ∀ entry ∈ ran, ∀ stage ∈ stages,
      entry.1.priority < stage.priority) :
    survey.runStages timing context (byScanner ran) stages =
      .finished (mergeInputs
        (inSequence context ran (stages.flatMap Stage.scanners))) := by
  induction stages generalizing ran with
  | nil => rfl
  | cons stage rest ih =>
      have membersRest := flatMap_subset_of_cons members
      obtain ⟨uniform, -, lowest, stagedRest⟩ := ascending_cons.mp staged
      have entriesEq := inSequence_stage context
        (fun entry member => below entry member stage List.mem_cons_self)
        uniform
      rw [List.flatMap_cons, inSequence_append]
      by_cases silent : applicableIn context (byScanner ran) stage = []
      · have nothing : inSequence context ran stage.scanners = [] := by
          rw [entriesEq]
          exact List.map_eq_nil_iff.mpr silent
        rw [runStages_cons_of_silent silent, nothing, List.append_nil,
          List.nil_append]
        exact ih stagedRest membersRest fun entry member other later =>
          below entry member other (List.mem_cons_of_mem _ later)
      · have inside := applicableIn_subset context (byScanner ran) members
        have resultsEq : resultsIn timing
            { context with previous := byScanner ran }
            (applicableIn context (byScanner ran) stage) =
              (inSequence context ran stage.scanners).map Prod.snd := by
          rw [resultsIn_eq_map punctual inside, entriesEq, List.map_map]
          rfl
        have ownEntries : ∀ entry ∈ inSequence context ran stage.scanners,
            entry.2.scanner = entry.1.id := by
          rw [entriesEq]
          intro entry member
          obtain ⟨scanner, among, rfl⟩ := List.mem_map.mp member
          exact (own scanner (inside among)).scanner_runIsolated _
        have above : ∀ entry ∈ ran ++ inSequence context ran stage.scanners,
            ∀ later ∈ rest, entry.1.priority < later.priority := by
          intro entry member later further
          rcases List.mem_append.mp member with before | now
          · exact below entry before later (List.mem_cons_of_mem _ further)
          · rw [uniform entry.1 (mem_of_mem_inSequence now)]
            exact lowest later further
        have inputsEq : mergeInputs (inSequence context ran stage.scanners) =
            _ :=
          mergeInputs_of_priority fun entry member =>
            uniform entry.1 (mem_of_mem_inSequence member)
        rw [runStages_cons_of_applicable punctual members silent]
        dsimp only
        rw [resultsEq, addPrevious_byScanner ownEntries, ← inputsEq,
          ih stagedRest membersRest above, mergeInputs_append]
        rfl

/-- In time, distinct scanners that bear their own identities give the same
report in every order, in either mode and however their threads finish: the
report on visiting them in sequence. -/
theorem run_eq_sequential {scanners : List Scanner}
    (distinct : (scanners.map Scanner.id).Nodup)
    (own : ∀ scanner ∈ scanners, scanner.BearsOwnId) (context : Context) :
    ∃ ordered ran, ordered.Perm scanners ∧
      ordered.Pairwise Scanner.Precedes ∧
      IsSequential context ordered ran ∧
      ∀ (survey : Survey) (timing : Timing), survey.scanners.Perm scanners →
        timing.OnTime survey →
        survey.run timing context =
            .finished (reportOf context (mergeInputs ran)) ∧
          ∀ inputs, Executes survey timing context [] survey.stages inputs ↔
            inputs = mergeInputs ran := by
  have precedes := pairwise_precedes_mergeSort distinct
  have ascending : (scanners.mergeSort Scanner.le).Pairwise
      fun a b => a.priority ≤ b.priority := by
    refine precedes.imp ?_
    rintro a b (less | ⟨equal, -⟩)
    · exact Int.le_of_lt less
    · exact Int.le_of_eq equal
  refine ⟨scanners.mergeSort Scanner.le, _, List.mergeSort_perm _ _, precedes,
    isSequential_inSequence ascending, ?_⟩
  intro survey timing permuted punctual
  have visited : survey.stages.flatMap Stage.scanners =
      scanners.mergeSort Scanner.le := by
    rw [scanners_stages, mergeSort_eq_of_perm distinct permuted]
  have members : survey.stages.flatMap Stage.scanners ⊆ survey.scanners := by
    rw [scanners_stages]
    exact (List.mergeSort_perm _ _).subset
  have finished : survey.runStages timing context (byScanner [])
      survey.stages = .finished (mergeInputs
        (inSequence context [] (survey.stages.flatMap Stage.scanners))) :=
    runStages_eq_inSequence punctual
      (fun scanner member => own scanner (permuted.subset member))
      (ascending_stages survey) members (by simp)
  rw [visited] at finished
  constructor
  · change (survey.runStages timing context (byScanner []) survey.stages).bind
      _ = _
    rw [finished]
    rfl
  · intro inputs
    change Executes survey timing context (byScanner []) _ _ ↔ _
    rw [executes_iff punctual members, finished]
    constructor
    · intro equal
      cases equal
      rfl
    · rintro rfl
      rfl

/-- A scanner that comes to the same outcome in every project. -/
def steadyScanner (id : String) (priority : Int)
    (outcome : Attempt ScanResult) : Scanner :=
  { id, title := id, languages := [], patterns := ["**/*"], priority
    scan := fun _ => outcome }

theorem run_eq_sequential_panicking :
    let scanners :=
      [steadyScanner "routes" 10 (.finished (.empty "routes")),
        steadyScanner "broken" 10 (.panicked (some "no such table")),
        steadyScanner "manifests" 1 (.finished (.empty "manifests"))]
    let survey : Survey := { scanners := scanners.reverse }
    let timing : Timing :=
      { finishing := fun scanners => (List.range scanners.length).reverse }
    let context : Context :=
      { disk := { tree := .directory [("app.py", .file [])], current := [] }
        root := "/", projectName := "shop"
        listing := .ok [⟨"app.py", "/app.py"⟩] }
    timing.OnTime survey ∧
      ∃ ordered ran, ordered.Perm scanners ∧
        IsSequential context ordered ran ∧
        survey.run timing context =
          .finished (reportOf context (mergeInputs ran)) := by
  intro scanners survey timing context
  have punctual : timing.OnTime survey :=
    ⟨by decide, fun _ _ => rfl, fun _ _ _ => rfl,
      fun _ _ => List.reverse_perm _⟩
  have distinct : (scanners.map Scanner.id).Nodup := by decide
  have own : ∀ scanner ∈ scanners, scanner.BearsOwnId := by
    simp only [scanners, List.mem_cons, List.not_mem_nil, or_false]
    rintro scanner (rfl | rfl | rfl) seen result outcome <;> cases outcome <;>
      rfl
  obtain ⟨ordered, ran, permuted, -, sequential, same⟩ :=
    run_eq_sequential distinct own context
  exact ⟨punctual, ordered, ran, permuted, sequential,
    (same survey timing (List.reverse_perm _) punctual).1⟩

end

end Survey

end ArchSurvey
