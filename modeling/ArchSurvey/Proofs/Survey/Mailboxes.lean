import ArchSurvey.Survey.Run
import Mathlib.Logic.Relation

/-!
# Threads and mailboxes

A stage as a system of steps: the survey starts one thread for each scanner,
threads finish in any order and put their results into their own mailboxes, and
the survey takes the results out in the order of the scanners, waiting where a
mailbox is empty.  Nobody runs out of time here.

However the steps interleave, a stage never gets stuck before it is complete,
and what it has collected then are the results of its scanners in order.
-/

namespace ArchSurvey.Survey

/-- A stage while it runs. -/
structure StageState where
  /-- How many threads have been started, in the order of the scanners. -/
  started : Nat := 0
  /-- The positions of the threads that are at work. -/
  working : List Nat := []
  /-- What lies in the mailbox of each position. -/
  mailbox : Nat → Option ScanResult := fun _ => none
  /-- The results that the survey has taken out. -/
  collected : List ScanResult := []

/-- The results of scanners that run in a context, each with a deadline. -/
def resultsIn (timing : Timing) (context : Context)
    (scanners : List Scanner) : List ScanResult :=
  scanners.map fun scanner =>
    scanner.runIsolated (contextOf timing context scanner)

section

variable (survey : Survey) (timing : Timing) (context : Context)
  (scanners : List Scanner)

/-- One step of a stage.  Side by side, all threads are started before the
first result is awaited; else each waits for the result before it. -/
inductive StageStep : StageState → StageState → Prop where
  | start {state : StageState} (more : state.started < scanners.length)
      (turn : survey.parallel = true ∨
        state.started = state.collected.length) :
      StageStep state
        { state with
          started := state.started + 1
          working := state.started :: state.working }
  | deliver {state : StageState} {position : Nat} {result : ScanResult}
      (running : position ∈ state.working)
      (finished : (resultsIn timing context scanners)[position]? = some result) :
      StageStep state
        { state with
          working := state.working.erase position
          mailbox := fun other =>
            if other = position then some result else state.mailbox other }
  | receive {state : StageState} {result : ScanResult}
      (awaiting : survey.parallel = true → state.started = scanners.length)
      (delivered : state.mailbox state.collected.length = some result) :
      StageStep state
        { state with
          mailbox := fun other =>
            if other = state.collected.length then none
            else state.mailbox other
          collected := state.collected ++ [result] }

/-- The states that a stage can reach. -/
def StageReaches (state : StageState) : Prop :=
  Relation.ReflTransGen (StageStep survey timing context scanners) {} state

/-- Results that a stage has collected when it is complete. -/
def StageYields (results : List ScanResult) : Prop :=
  ∃ state, StageReaches survey timing context scanners state ∧
    state.collected.length = scanners.length ∧ state.collected = results

/-- What holds in every state of a stage: the survey has taken the first
results, every mailbox holds the result of its own scanner, and every thread
that was started and not awaited yet is at work or has delivered. -/
structure StageInvariant (state : StageState) : Prop where
  started_le : state.started ≤ scanners.length
  collected_le : state.collected.length ≤ state.started
  collected_eq : state.collected =
    (resultsIn timing context scanners).take state.collected.length
  mailbox_eq : ∀ position result, state.mailbox position = some result →
    position < state.started ∧
      (resultsIn timing context scanners)[position]? = some result
  working_lt : ∀ position ∈ state.working, position < state.started
  pending : ∀ position, state.collected.length ≤ position →
    position < state.started →
      position ∈ state.working ∨ (state.mailbox position).isSome

end

section

variable {survey : Survey} {timing : Timing} {context : Context}
  {scanners : List Scanner}

theorem stageInvariant_start :
    StageInvariant timing context scanners {} := by
  constructor <;> simp

theorem StageInvariant.step {state next : StageState}
    (invariant : StageInvariant timing context scanners state)
    (step : StageStep survey timing context scanners state next) :
    StageInvariant timing context scanners next := by
  cases step with
  | start more turn =>
      refine ⟨more, ?_, invariant.collected_eq, ?_, ?_, ?_⟩
      · exact Nat.le_succ_of_le invariant.collected_le
      · intro position result held
        obtain ⟨less, finished⟩ := invariant.mailbox_eq position result held
        exact ⟨Nat.lt_succ_of_lt less, finished⟩
      · intro position member
        rcases List.mem_cons.mp member with rfl | before
        · exact Nat.lt_succ_self _
        · exact Nat.lt_succ_of_lt (invariant.working_lt position before)
      · intro position notCollected less
        rcases Nat.lt_succ_iff_lt_or_eq.mp less with before | equal
        · rcases invariant.pending position notCollected before with
            running | held
          · exact Or.inl (List.mem_cons_of_mem _ running)
          · exact Or.inr held
        · left
          rw [equal]
          exact List.mem_cons_self
  | @deliver position result running finished =>
      refine ⟨invariant.started_le, invariant.collected_le,
        invariant.collected_eq, ?_, ?_, ?_⟩
      · intro other held equal
        dsimp only at equal
        split at equal
        · next same =>
            subst same
            cases equal
            exact ⟨invariant.working_lt other running, finished⟩
        · exact invariant.mailbox_eq other held equal
      · intro other member
        exact invariant.working_lt other (List.mem_of_mem_erase member)
      · intro other notCollected less
        by_cases same : other = position
        · simp [same]
        · rcases invariant.pending other notCollected less with
            stillRunning | held
          · exact Or.inl ((List.mem_erase_of_ne same).mpr stillRunning)
          · simp [same, held]
  | @receive result awaiting delivered =>
      obtain ⟨less, finished⟩ := invariant.mailbox_eq _ result delivered
      refine ⟨invariant.started_le, ?_, ?_, ?_, invariant.working_lt, ?_⟩
      · rw [List.length_append, List.length_singleton]
        exact less
      · rw [List.length_append, List.length_singleton, List.take_add_one,
          ← invariant.collected_eq, finished]
        rfl
      · intro position held equal
        dsimp only at equal
        split at equal
        · cases equal
        · exact invariant.mailbox_eq position held equal
      · intro position notCollected below
        have later : state.collected.length + 1 ≤ position := by
          simpa using notCollected
        have different : position ≠ state.collected.length := by omega
        rcases invariant.pending position (by omega) below with running | held
        · exact Or.inl running
        · simp [different, held]

theorem StageReaches.invariant {state : StageState}
    (reached : StageReaches survey timing context scanners state) :
    StageInvariant timing context scanners state := by
  induction reached with
  | refl => exact stageInvariant_start
  | tail _ step ih => exact ih.step step

/-- A stage that is not complete can go on. -/
theorem StageInvariant.progress {state : StageState}
    (invariant : StageInvariant timing context scanners state)
    (incomplete : state.collected.length < scanners.length) :
    ∃ next, StageStep survey timing context scanners state next := by
  by_cases startable : state.started < scanners.length ∧
      (survey.parallel = true ∨ state.started = state.collected.length)
  · exact ⟨_, .start startable.1 startable.2⟩
  · have awaited : state.collected.length < state.started := by
      have le := invariant.collected_le
      by_cases more : state.started < scanners.length
      · have waits : state.started ≠ state.collected.length :=
          fun equal => startable ⟨more, Or.inr equal⟩
        omega
      · omega
    rcases invariant.pending _ (Nat.le_refl _) awaited with running | held
    · have inside : state.collected.length <
          (resultsIn timing context scanners).length := by
        simpa [resultsIn] using incomplete
      exact ⟨_, .deliver running (List.getElem?_eq_getElem inside)⟩
    · obtain ⟨result, delivered⟩ := Option.isSome_iff_exists.mp held
      refine ⟨_, .receive ?_ delivered⟩
      intro parallel
      have all : ¬state.started < scanners.length :=
        fun more => startable ⟨more, Or.inl parallel⟩
      have le := invariant.started_le
      omega

/-- How much a stage still has to do. -/
def StageState.remaining (scanners : List Scanner) (state : StageState) : Nat :=
  2 * (scanners.length - state.started) + state.working.length +
    (scanners.length - state.collected.length)

theorem StageStep.remaining_lt {state next : StageState}
    (invariant : StageInvariant timing context scanners state)
    (step : StageStep survey timing context scanners state next) :
    next.remaining scanners < state.remaining scanners := by
  cases step with
  | start more turn =>
      simp only [StageState.remaining, List.length_cons]
      omega
  | deliver running finished =>
      have fewer := List.length_erase_of_mem running
      have inhabited := List.length_pos_of_mem running
      simp only [StageState.remaining, fewer]
      omega
  | receive awaiting delivered =>
      have less := (invariant.mailbox_eq _ _ delivered).1
      have le := invariant.started_le
      simp only [StageState.remaining, List.length_append,
        List.length_singleton]
      omega

/-- Every run of a stage can be completed. -/
theorem StageReaches.completes {state : StageState}
    (reached : StageReaches survey timing context scanners state) :
    ∃ final, StageReaches survey timing context scanners final ∧
      final.collected.length = scanners.length := by
  induction measured : state.remaining scanners using Nat.strongRecOn
    generalizing state with
  | _ remaining ih =>
      have invariant := reached.invariant
      by_cases incomplete : state.collected.length < scanners.length
      · have goesOn : ∃ next,
            StageStep survey timing context scanners state next :=
          invariant.progress incomplete
        obtain ⟨next, step⟩ := goesOn
        have less := step.remaining_lt invariant
        rw [measured] at less
        exact ih _ less (reached.tail step) rfl
      · have le := Nat.le_trans invariant.collected_le invariant.started_le
        exact ⟨state, reached, by omega⟩

/-- A complete stage has the results of its scanners, in their order, whichever
way its steps interleaved; and some way leads there. -/
theorem stageYields_iff {results : List ScanResult} :
    StageYields survey timing context scanners results ↔
      results = resultsIn timing context scanners := by
  have collects {state : StageState}
      (reached : StageReaches survey timing context scanners state)
      (complete : state.collected.length = scanners.length) :
      state.collected = resultsIn timing context scanners := by
    rw [reached.invariant.collected_eq, complete]
    apply List.take_of_length_le
    simp [resultsIn]
  constructor
  · rintro ⟨state, reached, complete, rfl⟩
    exact collects reached complete
  · rintro rfl
    have begun : StageReaches survey timing context scanners {} := .refl
    obtain ⟨final, reached, complete⟩ := begun.completes
    exact ⟨final, reached, complete, collects reached complete⟩

end

end ArchSurvey.Survey
