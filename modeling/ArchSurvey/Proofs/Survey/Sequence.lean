import ArchSurvey.Proofs.Keyed
import ArchSurvey.Survey.Run

/-!
# Surveys in sequence

The meaning of a survey without stages, threads and clocks: scanners are visited
one by one, and each sees the results of those scanners of strictly lower
priority that ran.
-/

namespace ArchSurvey

/-- The context with a deadline that has not passed for any file. -/
def Context.unhurried (context : Context) : Context :=
  { context with deadline := some fun _ => false }

/-- A scanner whose results bear its own identity. -/
def Scanner.BearsOwnId (scanner : Scanner) : Prop :=
  ∀ context result, scanner.scan context = .finished result →
    result.scanner = scanner.id

theorem Scanner.BearsOwnId.scanner_runIsolated {scanner : Scanner}
    (own : scanner.BearsOwnId) (context : Context) :
    (scanner.runIsolated context).scanner = scanner.id := by
  unfold Scanner.runIsolated
  cases outcome : scanner.scan context with
  | finished result => exact own context result outcome
  | panicked message => rfl

namespace Survey

/-- Results by the identity of their scanners. -/
def byScanner (ran : List (Scanner × ScanResult)) :
    List (String × ScanResult) :=
  Keyed.ofList (ran.map fun entry => (entry.1.id, entry.2))

/-- The results of the scanners below a priority. -/
def resultsBelow (priority : Int) (ran : List (Scanner × ScanResult)) :
    List (String × ScanResult) :=
  byScanner (ran.filter fun entry => entry.1.priority < priority)

/-- What a scanner sees where some scanners have run: of their results those of
strictly lower priority. -/
def seenBy (context : Context) (ran : List (Scanner × ScanResult))
    (scanner : Scanner) : Context :=
  { context with previous := resultsBelow scanner.priority ran }

/-- `ran` holds, in the order of visiting, exactly the scanners that apply to
what they see, each with the result of running it there; a panic counts as a
failed result. -/
structure IsSequential (context : Context) (visited : List Scanner)
    (ran : List (Scanner × ScanResult)) : Prop where
  applicable : ran.map Prod.fst =
    visited.filter fun scanner => scanner.isApplicable (seenBy context ran scanner)
  results : ∀ entry ∈ ran, entry.2 =
    entry.1.runIsolated (seenBy context ran entry.1).unhurried

/-- The inputs of merging that come of some results. -/
def mergeInputs (ran : List (Scanner × ScanResult)) : List MergeInput :=
  ran.map fun entry => ⟨entry.1.priority, entry.2⟩

theorem mergeInputs_append (ran later : List (Scanner × ScanResult)) :
    mergeInputs (ran ++ later) = mergeInputs ran ++ mergeInputs later :=
  List.map_append

theorem mergeInputs_of_priority {ran : List (Scanner × ScanResult)}
    {priority : Int} (uniform : ∀ entry ∈ ran, entry.1.priority = priority) :
    mergeInputs ran =
      (ran.map Prod.snd).map fun result => ⟨priority, result⟩ := by
  rw [mergeInputs, List.map_map]
  apply List.map_congr_left
  intro entry member
  rw [uniform entry member]
  rfl

/-- The report on the inputs of merging. -/
def reportOf (context : Context) (inputs : List MergeInput) : SurveyReport :=
  let results := inputs.map MergeInput.result
  { projectName := context.projectName
    root := context.root
    model := .merge context.projectName inputs
    quality := .ofResults (context.totalFiles.toOption.getD 0) results
    results }

/-- Visits scanners one by one, `ran` holding the results so far, and returns
the new results. -/
def inSequence (context : Context) (ran : List (Scanner × ScanResult)) :
    List Scanner → List (Scanner × ScanResult)
  | [] => []
  | scanner :: rest =>
      let seen := seenBy context ran scanner
      if scanner.isApplicable seen then
        let entry := (scanner, scanner.runIsolated seen.unhurried)
        entry :: inSequence context (ran ++ [entry]) rest
      else inSequence context ran rest

theorem inSequence_cons_of_applicable {context : Context}
    {ran : List (Scanner × ScanResult)} {scanner : Scanner}
    (applies : scanner.isApplicable (seenBy context ran scanner) = true)
    (rest : List Scanner) :
    inSequence context ran (scanner :: rest) =
      (scanner, scanner.runIsolated (seenBy context ran scanner).unhurried) ::
        inSequence context
          (ran ++ [(scanner,
            scanner.runIsolated (seenBy context ran scanner).unhurried)])
          rest := by
  rw [inSequence]
  exact if_pos applies

theorem inSequence_cons_of_not {context : Context}
    {ran : List (Scanner × ScanResult)} {scanner : Scanner}
    (silent : ¬scanner.isApplicable (seenBy context ran scanner) = true)
    (rest : List Scanner) :
    inSequence context ran (scanner :: rest) = inSequence context ran rest := by
  rw [inSequence]
  exact if_neg silent

theorem mem_of_mem_inSequence {context : Context}
    {ran : List (Scanner × ScanResult)} {scanners : List Scanner}
    {entry : Scanner × ScanResult}
    (member : entry ∈ inSequence context ran scanners) :
    entry.1 ∈ scanners := by
  induction scanners generalizing ran with
  | nil => simp [inSequence] at member
  | cons scanner rest ih =>
      rw [inSequence] at member
      split at member
      · rcases List.mem_cons.mp member with rfl | later
        · exact List.mem_cons_self
        · exact List.mem_cons_of_mem _ (ih later)
      · exact List.mem_cons_of_mem _ (ih member)

theorem inSequence_append (context : Context)
    (ran : List (Scanner × ScanResult)) (first second : List Scanner) :
    inSequence context ran (first ++ second) =
      inSequence context ran first ++
        inSequence context (ran ++ inSequence context ran first) second := by
  induction first generalizing ran with
  | nil => simp [inSequence]
  | cons scanner rest ih =>
      rw [List.cons_append, inSequence, inSequence]
      split
      · simp [ih]
      · exact ih ran

/-- Results of a priority and above do not show below it. -/
theorem resultsBelow_append {priority : Int}
    {ran later : List (Scanner × ScanResult)}
    (above : ∀ entry ∈ later, priority ≤ entry.1.priority) :
    resultsBelow priority (ran ++ later) = resultsBelow priority ran := by
  have none : (later.filter fun entry => entry.1.priority < priority) = [] := by
    apply List.filter_eq_nil_iff.mpr
    intro entry member
    have le := above entry member
    simp only [decide_eq_true_eq]
    omega
  rw [resultsBelow, List.filter_append, none, List.append_nil, resultsBelow]

theorem resultsBelow_eq_byScanner {priority : Int}
    {ran : List (Scanner × ScanResult)}
    (below : ∀ entry ∈ ran, entry.1.priority < priority) :
    resultsBelow priority ran = byScanner ran := by
  rw [resultsBelow, List.filter_eq_self.mpr]
  intro entry member
  exact decide_eq_true (below entry member)

/-- Visiting scanners in ascending priority gives what each of them would give
in view of all results. -/
theorem isSequential_inSequence_from (context : Context)
    (ran : List (Scanner × ScanResult)) {scanners : List Scanner}
    (ascending : scanners.Pairwise fun a b => a.priority ≤ b.priority) :
    (inSequence context ran scanners).map Prod.fst =
        (scanners.filter fun scanner => scanner.isApplicable
          (seenBy context (ran ++ inSequence context ran scanners) scanner)) ∧
      ∀ entry ∈ inSequence context ran scanners, entry.2 =
        entry.1.runIsolated
          (seenBy context (ran ++ inSequence context ran scanners)
            entry.1).unhurried := by
  induction scanners generalizing ran with
  | nil => simp [inSequence]
  | cons scanner rest ih =>
      obtain ⟨lowest, ascendingRest⟩ := List.pairwise_cons.mp ascending
      -- What the first scanner sees does not change any more.
      have settled : seenBy context
          (ran ++ inSequence context ran (scanner :: rest)) scanner =
            seenBy context ran scanner := by
        unfold seenBy
        rw [resultsBelow_append]
        intro entry member
        rcases List.mem_cons.mp (mem_of_mem_inSequence member) with
          same | later
        · exact Int.le_of_eq (congrArg Scanner.priority same.symm)
        · exact lowest _ later
      rw [List.filter_cons, settled]
      by_cases applies : scanner.isApplicable (seenBy context ran scanner)
      · have unfolded := inSequence_cons_of_applicable applies rest
        obtain ⟨names, results⟩ := ih (ran ++ [(scanner,
          scanner.runIsolated (seenBy context ran scanner).unhurried)])
            ascendingRest
        rw [List.append_assoc, List.singleton_append, ← unfolded]
          at names results
        rw [if_pos applies, unfolded, List.map_cons, names, ← unfolded]
        refine ⟨rfl, ?_⟩
        intro other member
        rw [unfolded] at member
        rcases List.mem_cons.mp member with rfl | later
        · rw [settled]
        · exact results other later
      · have unfolded := inSequence_cons_of_not applies rest
        rw [if_neg applies, unfolded]
        exact ih ran ascendingRest

theorem isSequential_inSequence {context : Context} {scanners : List Scanner}
    (ascending : scanners.Pairwise fun a b => a.priority ≤ b.priority) :
    IsSequential context scanners (inSequence context [] scanners) := by
  obtain ⟨applicable, results⟩ :=
    isSequential_inSequence_from context [] ascending
  exact ⟨applicable, results⟩

theorem inSequence_level {context : Context} {priority : Int}
    {ran same : List (Scanner × ScanResult)} {scanners : List Scanner}
    (below : ∀ entry ∈ ran, entry.1.priority < priority)
    (level : ∀ entry ∈ same, entry.1.priority = priority)
    (uniform : ∀ scanner ∈ scanners, scanner.priority = priority) :
    inSequence context (ran ++ same) scanners =
      (scanners.filter fun scanner => scanner.isApplicable
          { context with previous := byScanner ran }).map fun scanner =>
        (scanner, scanner.runIsolated
          { context with previous := byScanner ran }.unhurried) := by
  induction scanners generalizing same with
  | nil => rfl
  | cons scanner rest ih =>
      have here := uniform scanner List.mem_cons_self
      have uniformRest : ∀ other ∈ rest, other.priority = priority :=
        fun other member => uniform other (List.mem_cons_of_mem _ member)
      have view : seenBy context (ran ++ same) scanner =
          { context with previous := byScanner ran } := by
        unfold seenBy
        rw [here, resultsBelow_append, resultsBelow_eq_byScanner below]
        intro entry member
        exact Int.le_of_eq (level entry member).symm
      rw [List.filter_cons, ← view]
      by_cases applies : scanner.isApplicable
          (seenBy context (ran ++ same) scanner)
      · rw [inSequence_cons_of_applicable applies, if_pos applies,
          List.map_cons, List.append_assoc, ih _ uniformRest, view]
        intro entry member
        rcases List.mem_append.mp member with before | now
        · exact level entry before
        · rw [List.mem_singleton.mp now]
          exact here
      · rw [inSequence_cons_of_not applies, if_neg applies,
          ih level uniformRest, view]

/-- Scanners of one priority do not see each other: they are filtered and run
in one view. -/
theorem inSequence_stage (context : Context) {priority : Int}
    {ran : List (Scanner × ScanResult)} {scanners : List Scanner}
    (below : ∀ entry ∈ ran, entry.1.priority < priority)
    (uniform : ∀ scanner ∈ scanners, scanner.priority = priority) :
    inSequence context ran scanners =
      (scanners.filter fun scanner => scanner.isApplicable
          { context with previous := byScanner ran }).map fun scanner =>
        (scanner, scanner.runIsolated
          { context with previous := byScanner ran }.unhurried) := by
  calc
    inSequence context ran scanners
      = inSequence context (ran ++ []) scanners := by rw [List.append_nil]
    _ = _ := inSequence_level below (by simp) uniform

end Survey

end ArchSurvey
