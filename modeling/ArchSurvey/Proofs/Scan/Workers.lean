import ArchSurvey.Proofs.Scan.Records
import Mathlib.Logic.Relation

/-!
# Workers

Files are handed to workers, each of which keeps statistics of its own; in the
end all parts are merged in the order of the files.  A setting decides whether
files are taken up one after another or in any order, as workers are free.

Either way, and however the workers overlap, the reading is that of one loop
over the files before the deadline, with one set of statistics for all.
-/

namespace ArchSurvey

/-- Whether a file is taken up only when those before it are done. -/
def Context.readsInTurn (context : Context) : Bool :=
  context.setting? "scan.parallel" == some "false"

/-- How far the worker of a file is; done, it has left data and statistics, or
nothing where the deadline had passed. -/
inductive Work (α : Type) where
  | waiting
  | underway
  | done (part : Option (List α × Statistics))

namespace Work

variable {α : Type} {works : List (Work α)}

/-- Either all workers are done, or there is a first one that is not. -/
theorem done_or_first (works : List (Work α)) :
    (∃ parts, works = List.map Work.done parts) ∨
      ∃ parts work rest, works = List.map Work.done parts ++ work :: rest ∧
        ∀ part, work ≠ .done part := by
  induction works with
  | nil => exact Or.inl ⟨[], rfl⟩
  | cons work rest ih =>
      cases work with
      | waiting => exact Or.inr ⟨[], .waiting, rest, rfl, by simp⟩
      | underway => exact Or.inr ⟨[], .underway, rest, rfl, by simp⟩
      | done part =>
          rcases ih with ⟨parts, rfl⟩ | ⟨parts, work, later, rfl, undone⟩
          · exact Or.inl ⟨part :: parts, rfl⟩
          · exact Or.inr ⟨part :: parts, work, later, rfl, undone⟩

/-- How many steps a worker still takes. -/
def remaining : Work α → Nat
  | waiting => 2
  | underway => 1
  | done _ => 0

/-- How many steps all workers still take. -/
def remainingOf : List (Work α) → Nat
  | [] => 0
  | work :: rest => work.remaining + remainingOf rest

theorem remainingOf_set_lt {position : Nat} {before after : Work α}
    (stands : works[position]? = some before)
    (less : after.remaining < before.remaining) :
    remainingOf (works.set position after) < remainingOf works := by
  induction works generalizing position with
  | nil => simp at stands
  | cons work rest ih =>
      cases position with
      | zero =>
          have same : work = before := by simpa using stands
          subst same
          exact Nat.add_lt_add_right less _
      | succ position =>
          have further := ih (by simpa using stands)
          exact Nat.add_lt_add_left further _

end Work

namespace TierEngine

variable {α : Type}

/-- The parts that workers left, put together in the order of the files. -/
def gather (discovered : Nat) (parts : List (Option (List α × Statistics))) :
    List α × Statistics :=
  ((parts.filterMap id).flatMap Prod.fst,
    (parts.filterMap id).foldl (fun total part => total.merge part.2)
      { discovered })

section

variable (engine : TierEngine α) (context : Context) (files : List String)

theorem parseFiles_eq_gather :
    engine.parseFiles context files =
      gather files.length (files.map (engine.parseAlone context)) := by
  rw [gather, List.filterMap_map]
  rfl

/-- A worker takes up a file that waits, or leaves what it made of the file
that it is at. -/
inductive WorkStep : List (Work α) → List (Work α) → Prop where
  | take {works : List (Work α)} {position : Nat}
      (waits : works[position]? = some .waiting)
      (turn : context.readsInTurn = true → ∀ earlier < position,
        ∃ part, works[earlier]? = some (.done part)) :
      WorkStep works (works.set position .underway)
  | leave {works : List (Work α)} {position : Nat} {file : String}
      (given : files[position]? = some file)
      (busy : works[position]? = some .underway) :
      WorkStep works
        (works.set position (.done (engine.parseAlone context file)))

/-- What the workers can come to from the start, when every file waits. -/
def WorkReaches (works : List (Work α)) : Prop :=
  Relation.ReflTransGen (engine.WorkStep context files)
    (files.map fun _ => .waiting) works

/-- A reading that is put together when all workers are done. -/
def Gathers (reading : List α × Statistics) : Prop :=
  ∃ parts, engine.WorkReaches context files (List.map Work.done parts) ∧
    reading = gather files.length parts

/-- What holds however far the workers are: those that are done have left what
they make of their own files. -/
structure WorkInvariant (works : List (Work α)) : Prop where
  length_eq : works.length = files.length
  done_eq : ∀ (position : Nat) (part : Option (List α × Statistics)),
    works[position]? = some (.done part) →
      ∃ file, files[position]? = some file ∧
        part = engine.parseAlone context file

end

section

variable {engine : TierEngine α} {context : Context} {files : List String}
  {works next : List (Work α)} {parts : List (Option (List α × Statistics))}

theorem workInvariant_start :
    engine.WorkInvariant context files (files.map fun _ => .waiting) := by
  constructor
  · exact List.length_map _
  · intro position part done
    rw [List.getElem?_map] at done
    obtain ⟨file, -, waits⟩ := Option.map_eq_some_iff.mp done
    cases waits

/-- A worker may come to anything that, if it is done, is its own. -/
theorem WorkInvariant.set (invariant : engine.WorkInvariant context files works)
    {position : Nat} {work : Work α}
    (own : ∀ part, work = .done part → ∃ file,
      files[position]? = some file ∧ part = engine.parseAlone context file) :
    engine.WorkInvariant context files (works.set position work) := by
  constructor
  · rw [List.length_set]
    exact invariant.length_eq
  · intro other part done
    rw [List.getElem?_set] at done
    split at done
    · next same =>
        subst same
        split at done
        · exact own part (Option.some.inj done)
        · cases done
    · exact invariant.done_eq other part done

theorem WorkInvariant.step (invariant : engine.WorkInvariant context files works)
    (step : engine.WorkStep context files works next) :
    engine.WorkInvariant context files next := by
  cases step with
  | take waits turn =>
      apply invariant.set
      intro part done
      cases done
  | @leave position file given busy =>
      apply invariant.set
      intro part done
      cases done
      exact ⟨file, given, rfl⟩

theorem WorkReaches.invariant (reached : engine.WorkReaches context files works) :
    engine.WorkInvariant context files works := by
  induction reached with
  | refl => exact workInvariant_start
  | tail _ step ih => exact ih.step step

/-- When all workers are done, they have left what they make of all files, in
the order of the files. -/
theorem WorkInvariant.parts_eq
    (invariant : engine.WorkInvariant context files (parts.map Work.done)) :
    parts = files.map (engine.parseAlone context) := by
  have sameLength : parts.length = files.length := by
    simpa using invariant.length_eq
  apply List.ext_getElem
  · simpa using sameLength
  · intro position inside _
    have done : (parts.map Work.done)[position]? =
        some (.done parts[position]) := by
      simp [inside]
    obtain ⟨file, given, part⟩ := invariant.done_eq position _ done
    obtain ⟨_, there⟩ := List.getElem?_eq_some_iff.mp given
    rw [part, List.getElem_map, there]

/-- The first worker that is not done can always take a step. -/
theorem WorkInvariant.progress {work : Work α} {rest : List (Work α)}
    (invariant : engine.WorkInvariant context files
      (parts.map Work.done ++ work :: rest))
    (undone : ∀ part, work ≠ .done part) :
    ∃ next, engine.WorkStep context files
      (parts.map Work.done ++ work :: rest) next := by
  have here : (parts.map Work.done ++ work :: rest)[parts.length]? =
      some work := by
    simp
  cases work with
  | done part => exact absurd rfl (undone part)
  | waiting =>
      refine ⟨_, .take here ?_⟩
      intro _ earlier before
      refine ⟨parts[earlier], ?_⟩
      rw [List.getElem?_append_left (by simpa using before), List.getElem?_map,
        List.getElem?_eq_getElem before]
      rfl
  | underway =>
      have inside : parts.length < files.length := by
        rw [← invariant.length_eq]
        simp
      exact ⟨_, .leave (List.getElem?_eq_getElem inside) here⟩

theorem WorkStep.remainingOf_lt
    (step : engine.WorkStep context files works next) :
    Work.remainingOf next < Work.remainingOf works := by
  cases step with
  | take waits turn => exact Work.remainingOf_set_lt waits (Nat.lt_succ_self _)
  | leave given busy => exact Work.remainingOf_set_lt busy Nat.zero_lt_one

/-- However far the workers are, they can all be done in the end. -/
theorem WorkReaches.completes (reached : engine.WorkReaches context files works) :
    ∃ parts, engine.WorkReaches context files (List.map Work.done parts) := by
  induction measured : Work.remainingOf works using Nat.strongRecOn
    generalizing works with
  | _ steps ih =>
      rcases Work.done_or_first works with ⟨parts, rfl⟩ |
        ⟨parts, work, rest, rfl, undone⟩
      · exact ⟨parts, reached⟩
      · obtain ⟨next, step⟩ := reached.invariant.progress undone
        have less := step.remainingOf_lt
        rw [measured] at less
        exact ih _ less (reached.tail step) rfl

/-- Whoever is done first, what all workers left is put together as by the
loop. -/
theorem WorkReaches.gather_eq
    (reached : engine.WorkReaches context files (parts.map Work.done)) :
    gather files.length parts = engine.readInTurn context files := by
  rw [reached.invariant.parts_eq, ← parseFiles_eq_gather, parseFiles_eq_foldl]

end

/-- Reading files with workers comes to the loop over the files before the
deadline, with one set of statistics.  So does every way in which workers can
overlap, whether or not files are taken up one after another, and the workers
never get stuck. -/
theorem parseFiles_eq_readInTurn (engine : TierEngine α) (context : Context)
    (files : List String) :
    engine.parseFiles context files = engine.readInTurn context files ∧
      (∀ reading, engine.Gathers context files reading ↔
        reading = engine.readInTurn context files) ∧
      ∀ works, engine.WorkReaches context files works →
        (∃ parts, works = List.map Work.done parts) ∨
          ∃ next, engine.WorkStep context files works next := by
  refine ⟨engine.parseFiles_eq_foldl context files, ?_, ?_⟩
  · intro reading
    constructor
    · rintro ⟨parts, reached, rfl⟩
      exact reached.gather_eq
    · rintro rfl
      have begun : engine.WorkReaches context files
          (files.map fun _ => .waiting) := .refl
      obtain ⟨parts, reached⟩ := begun.completes
      exact ⟨parts, reached, reached.gather_eq.symm⟩
  · intro works reached
    rcases Work.done_or_first works with complete |
      ⟨parts, work, rest, rfl, undone⟩
    · exact Or.inl complete
    · exact Or.inr (reached.invariant.progress undone)

end TierEngine

end ArchSurvey
