import ArchSurvey.Proofs.Model.Merge
import ArchSurvey.Proofs.Survey.Ran

/-!
# A failed newcomer

Tests of earlier results look at dependencies of successful ones only, and so
does merging.  A scanner that fails is therefore overlooked: the others run as
they would without it, and the model has the same findings.
-/

namespace ArchSurvey

/-- Whether a test calls no test of a scanner's own. -/
def Applicability.isPlain : Applicability → Bool
  | custom _ _ => false
  | and first second => first.isPlain && second.isPlain
  | or first second => first.isPlain && second.isPlain
  | negate test => test.isPlain
  | _ => true

/-- A scanner with a plain test that scans in the same way whatever earlier
scanners found. -/
structure Scanner.Independent (scanner : Scanner) : Prop where
  plain : scanner.applicability.isPlain = true
  scan_eq : ∀ (context : Context) (previous : List (String × ScanResult)),
    scanner.scan { context with previous } = scanner.scan context

section

variable {context : Context} {previous other : List (String × ScanResult)}

/-- A plain test learns nothing of earlier results but the dependencies that
they found. -/
theorem Applicability.evaluate_congr {applicability : Applicability}
    (plain : applicability.isPlain = true)
    (known : { context with previous }.knownDependencies =
      { context with previous := other }.knownDependencies) :
    applicability.evaluate { context with previous } =
      applicability.evaluate { context with previous := other } := by
  induction applicability with
  | always => rfl
  | never => rfl
  | hasFiles pattern => rfl
  | hasAnyFiles patterns => rfl
  | fileContains pattern needle => rfl
  | hasDependency name =>
      simp only [evaluate, Context.dependsOnAny, known]
  | hasAnyDependency names =>
      simp only [evaluate, Context.dependsOnAny, known]
  | and first second ihFirst ihSecond =>
      obtain ⟨plainFirst, plainSecond⟩ := Bool.and_eq_true_iff.mp plain
      simp only [evaluate, ihFirst plainFirst, ihSecond plainSecond]
  | or first second ihFirst ihSecond =>
      obtain ⟨plainFirst, plainSecond⟩ := Bool.and_eq_true_iff.mp plain
      simp only [evaluate, ihFirst plainFirst, ihSecond plainSecond]
  | negate test ih => simp only [evaluate, ih plain]
  | custom name test => cases plain

theorem Scanner.Independent.isApplicable_eq {scanner : Scanner}
    (independent : scanner.Independent)
    (known : { context with previous }.knownDependencies =
      { context with previous := other }.knownDependencies) :
    scanner.isApplicable { context with previous } =
      scanner.isApplicable { context with previous := other } := by
  rw [isApplicable, isApplicable, Applicability.test, Applicability.test,
    Applicability.evaluate_congr independent.plain known]
  rfl

theorem Scanner.Independent.runIsolated_eq {scanner : Scanner}
    (independent : scanner.Independent) (context : Context)
    (previous other : List (String × ScanResult)) :
    scanner.runIsolated { context with previous }.unhurried =
      scanner.runIsolated { context with previous := other }.unhurried := by
  have same : scanner.scan { context with previous }.unhurried =
      scanner.scan { context with previous := other }.unhurried :=
    (independent.scan_eq context.unhurried previous).trans
      (independent.scan_eq context.unhurried other).symm
  rw [runIsolated, runIsolated, same]

end

namespace Survey

/-- Earlier results with and without those under hidden identities, which are
failed ones. -/
structure Overlooks (hides : String → Bool)
    (previous previousWith : List (String × ScanResult)) : Prop where
  sorted : Keyed.Sorted previousWith
  shown : (previousWith.filter fun pair => !hides pair.1) = previous
  failed : ∀ key result, (key, result) ∈ previousWith → hides key = true →
    result.success = false

/-- The results of one scanner are those under hidden identities, and all of
them failed. -/
structure Hidden (hides : String → Bool) (id : String)
    (entries : List (Scanner × ScanResult)) : Prop where
  filed : ∀ entry ∈ entries,
    hides entry.2.scanner = true ↔ entry.1.id = id
  failed : ∀ entry ∈ entries, entry.1.id = id → entry.2.success = false

theorem hidden_append {hides : String → Bool} {id : String}
    {first second : List (Scanner × ScanResult)} :
    Hidden hides id (first ++ second) ↔
      Hidden hides id first ∧ Hidden hides id second := by
  constructor
  · rintro ⟨filed, failed⟩
    rw [List.forall_mem_append] at filed failed
    exact ⟨⟨filed.1, failed.1⟩, filed.2, failed.2⟩
  · rintro ⟨⟨filed, failed⟩, filedLater, failedLater⟩
    exact ⟨List.forall_mem_append.mpr ⟨filed, filedLater⟩,
      List.forall_mem_append.mpr ⟨failed, failedLater⟩⟩

namespace Overlooks

variable {hides : String → Bool} {id : String}
  {previous previousWith : List (String × ScanResult)}

/-- A failed result found no dependencies. -/
theorem knownDependencies_eq (overlooks : Overlooks hides previous previousWith)
    (context : Context) :
    { context with previous }.knownDependencies =
      { context with previous := previousWith }.knownDependencies := by
  have succeeded : (previous.filter fun pair => pair.2.success) =
      previousWith.filter fun pair => pair.2.success := by
    rw [← overlooks.shown, List.filter_filter]
    apply List.filter_congr
    rintro ⟨key, result⟩ member
    cases hidden : hides key with
    | true => simp [overlooks.failed key result member hidden]
    | false => simp
  simp only [Context.knownDependencies, succeeded]

theorem insert_hidden (overlooks : Overlooks hides previous previousWith)
    {result : ScanResult} (hidden : hides result.scanner = true)
    (failed : result.success = false) :
    Overlooks hides previous
      (Keyed.insert result.scanner result previousWith) where
  sorted := overlooks.sorted.insert _ _
  shown := by
    rw [← overlooks.shown]
    exact Keyed.filter_insert_of_dropped (fun key => !hides key)
      (by simp [hidden]) _ _
  failed := by
    intro key held member hiddenKey
    rw [overlooks.sorted.mem_insert_iff] at member
    split at member
    · rw [member]
      exact failed
    · exact overlooks.failed key held member hiddenKey

theorem insert_shown (overlooks : Overlooks hides previous previousWith)
    {result : ScanResult} (shown : hides result.scanner = false) :
    Overlooks hides (Keyed.insert result.scanner result previous)
      (Keyed.insert result.scanner result previousWith) where
  sorted := overlooks.sorted.insert _ _
  shown := by
    rw [← overlooks.shown]
    exact overlooks.sorted.filter_insert_of_kept (fun key => !hides key)
      (by simp [shown]) _
  failed := by
    intro key held member hiddenKey
    rw [overlooks.sorted.mem_insert_iff] at member
    split at member
    · next same =>
        rw [same, shown] at hiddenKey
        cases hiddenKey
    · exact overlooks.failed key held member hiddenKey

/-- Results are added to both, except for those of the hidden scanner. -/
theorem addPrevious (overlooks : Overlooks hides previous previousWith)
    {entries : List (Scanner × ScanResult)} (hidden : Hidden hides id entries) :
    Overlooks hides
      (addPrevious previous
        ((entries.filter fun entry => entry.1.id != id).map Prod.snd))
      (addPrevious previousWith (entries.map Prod.snd)) := by
  induction entries generalizing previous previousWith with
  | nil => exact overlooks
  | cons entry rest ih =>
      obtain ⟨filed, failed⟩ := hidden
      rw [List.forall_mem_cons] at filed failed
      have hiddenRest : Hidden hides id rest := ⟨filed.2, failed.2⟩
      by_cases own : entry.1.id = id
      · rw [List.filter_cons_of_neg (by simp [own])]
        exact ih (overlooks.insert_hidden (filed.1.mpr own) (failed.1 own))
          hiddenRest
      · have shown : hides entry.2.scanner = false :=
          Bool.eq_false_iff.mpr fun hidden => own (filed.1.mp hidden)
        rw [List.filter_cons_of_pos (by simpa using own)]
        exact ih (overlooks.insert_shown shown) hiddenRest

end Overlooks

section

variable {context : Context} {hides : String → Bool} {id : String}

/-- The other scanners of a stage run as they do without the hidden one. -/
theorem ranIn_without {previous previousWith : List (String × ScanResult)}
    (overlooks : Overlooks hides previous previousWith) {stage : Stage}
    (independent : ∀ scanner ∈ stage.scanners, scanner.id ≠ id →
      scanner.Independent) :
    ranIn context previous (stage.without id) =
      (ranIn context previousWith stage).filter fun entry =>
        entry.1.id != id := by
  have known := overlooks.knownDependencies_eq context
  have applicable : applicableIn context previous (stage.without id) =
      (applicableIn context previousWith stage).filter fun scanner =>
        scanner.id != id := by
    rw [applicableIn, applicableIn, Stage.without, List.filter_filter,
      List.filter_filter]
    apply List.filter_congr
    intro scanner member
    by_cases own : scanner.id = id
    · simp [own]
    · rw [(independent scanner member own).isApplicable_eq known, Bool.and_comm]
  rw [ranIn, ranIn, applicable, List.filter_map]
  apply List.map_congr_left
  intro scanner member
  obtain ⟨among, other⟩ := List.mem_filter.mp member
  have same := (independent scanner (List.mem_filter.mp among).1
    (by simpa using other)).runIsolated_eq context previous previousWith
  rw [same]

/-- Stage by stage, the other scanners run as they do without the hidden one. -/
theorem inStages_dropScanner {previous previousWith : List (String × ScanResult)}
    (overlooks : Overlooks hides previous previousWith) {stages : List Stage}
    (independent : ∀ scanner ∈ stages.flatMap Stage.scanners,
      scanner.id ≠ id → scanner.Independent)
    (hidden : Hidden hides id (inStages context previousWith stages)) :
    inStages context previous (dropScanner id stages) =
      (inStages context previousWith stages).filter fun entry =>
        entry.1.id != id := by
  induction stages generalizing previous previousWith with
  | nil => rfl
  | cons stage rest ih =>
      rw [inStages, hidden_append] at hidden
      rw [List.flatMap_cons, List.forall_mem_append] at independent
      have here : ranIn context previous (stage.without id) = _ :=
        ranIn_without overlooks independent.1
      have later := ih (overlooks.addPrevious hidden.1) independent.2 hidden.2
      rw [← here] at later
      rw [inStages, List.filter_append, ← here, ← later]
      by_cases empty : (stage.without id).scanners = []
      · have nothing : ranIn context previous (stage.without id) = [] := by
          rw [ranIn, applicableIn, empty]
          rfl
        rw [dropScanner_cons_of_nil empty, nothing]
        rfl
      · rw [dropScanner_cons_of_ne_nil empty, inStages]

end

section

variable {survey surveyWith : Survey} {newcomer : Scanner} {context : Context}
  (fails : ∀ entry ∈ surveyWith.ran context,
    entry.1.id = newcomer.id → entry.2.success = false)

include fails

/-- Without a scanner that fails, the others run in the same way. -/
theorem ran_eq_filter
    (added : surveyWith.scanners.Perm (newcomer :: survey.scanners))
    (distinct : ((newcomer :: survey.scanners).map Scanner.id).Nodup)
    (independent : ∀ scanner ∈ survey.scanners, scanner.Independent)
    (apart : ∀ entry ∈ surveyWith.ran context,
      ∀ other ∈ surveyWith.ran context, entry.1.id = newcomer.id →
        other.1.id ≠ newcomer.id → entry.2.scanner ≠ other.2.scanner) :
    survey.ran context =
      (surveyWith.ran context).filter fun entry =>
        entry.1.id != newcomer.id := by
  -- Hidden are the identities under which the results of the newcomer are filed.
  let hides (key : String) : Bool :=
    (surveyWith.ran context).any fun entry =>
      entry.1.id == newcomer.id && entry.2.scanner == key
  have filed : ∀ entry ∈ surveyWith.ran context,
      hides entry.2.scanner = true ↔ entry.1.id = newcomer.id := by
    intro entry member
    constructor
    · intro hidden
      obtain ⟨other, among, same⟩ := List.any_eq_true.mp hidden
      obtain ⟨own, key⟩ := Bool.and_eq_true_iff.mp same
      apply Decidable.byContradiction
      intro different
      exact apart other among entry member (eq_of_beq own) different
        (eq_of_beq key)
    · intro own
      exact List.any_eq_true.mpr ⟨entry, member, by simp [own]⟩
  have start : Overlooks hides [] [] := ⟨.nil, rfl, by simp⟩
  rw [ran, stages_eq_dropScanner added distinct]
  refine inStages_dropScanner start ?_ ⟨filed, fails⟩
  intro scanner member different
  rw [scanners_stages] at member
  rcases List.mem_cons.mp (added.subset (List.mem_mergeSort.mp member)) with
    rfl | among
  · exact absurd rfl different
  · exact independent scanner among

/-- Leaving out failed results leaves the same successful ones. -/
theorem succeeded_filter_ran :
    ((mergeInputs ((surveyWith.ran context).filter fun entry =>
        entry.1.id != newcomer.id)).filter fun input => input.result.success) =
      (mergeInputs (surveyWith.ran context)).filter fun input =>
        input.result.success := by
  rw [mergeInputs, mergeInputs, List.filter_map, List.filter_map,
    List.filter_filter]
  congr 1
  apply List.filter_congr
  intro entry member
  by_cases own : entry.1.id = newcomer.id
  · simp [fails entry member own]
  · simp [own]

end

/-- A scanner that finds a dependency. -/
def manifestScanner : Scanner :=
  steadyScanner "manifests" 10
    (.finished (.succeeded "manifests"
      { dependencies := [{ source := "shop", group := "", artifact := "flask" }] }
      [] {}))

/-- A scanner for projects with that dependency. -/
def routeScanner : Scanner :=
  { steadyScanner "routes" 50 (.finished (.empty "routes")) with
    applicability := .hasDependency "flask" }

/-- A scanner that panics where nothing was found before. -/
def panickingScanner : Scanner :=
  { steadyScanner "broken" 10 (.panicked (some "no such table")) with
    applicability := .custom "first" fun context =>
      .finished context.previous.isEmpty }

/-- A project with one source. -/
def sourceProject : Context :=
  { disk := { tree := .directory [("app.py", .file [])], current := [] }
    root := "/", projectName := "shop"
    listing := .ok [⟨"app.py", "/app.py"⟩] }

theorem stages_panicking :
    ({ scanners := [panickingScanner, manifestScanner, routeScanner] } :
      Survey).stages =
        [panickingScanner, manifestScanner, routeScanner].foldr addToStages
          [] := by
  have sorted : [panickingScanner, manifestScanner, routeScanner].Pairwise
      fun a b => a.le b = true := by decide
  rw [stages, List.mergeSort_of_pairwise sorted]

end Survey

end ArchSurvey
