import ArchSurvey.Config.Load
import ArchSurvey.Proofs.Diagram.Generator
import ArchSurvey.Scan.Context

/-!
# What the checks accept

The checks accept a configuration exactly if a survey can use it: there is time,
the groups are known, what is to be drawn can be drawn of every model, and the
patterns of what is left out can be read.
-/

namespace ArchSurvey.ProjectConfig

theorem checkGroups_eq_ok_iff {groups : List String} :
    checkGroups groups = .ok () ↔ ∀ group ∈ groups, group ∈ Groups.names := by
  rw [checkGroups]
  split
  · next known =>
      simpa using known
  · next unknown =>
      constructor
      · intro impossible
        cases impossible
      · intro known
        exact absurd (by simpa using known) unknown

theorem checkGenerators_eq_ok_iff {ids : List String} :
    checkGenerators ids = .ok () ↔
      ∀ id ∈ ids, ∃ generator, Generator.ofId? id = some generator := by
  rw [checkGenerators]
  cases unknown : ids.find? fun id => (Generator.ofId? id).isNone with
  | some id =>
      have absent := List.find?_some unknown
      constructor
      · intro impossible
        cases impossible
      · intro known
        obtain ⟨generator, found⟩ := known id (List.mem_of_find?_eq_some unknown)
        simp [found] at absent
  | none =>
      simp only [true_iff]
      intro id member
      have present := List.find?_eq_none.mp unknown id member
      exact Option.ne_none_iff_exists'.mp (by simpa using present)

theorem checkDiagrams_eq_ok_iff {generators diagrams : List String} :
    checkDiagrams generators diagrams = .ok () ↔
      ∃ kinds, DiagramKind.ofTexts diagrams = .ok kinds ∧
        Generator.Covers generators kinds := by
  rw [checkDiagrams]
  cases DiagramKind.ofTexts diagrams with
  | error error => simp
  | ok kinds =>
      simp only [← Generator.exists_resolve_iff, Except.ok.injEq,
        exists_eq_left']
      cases resolved : Generator.resolve generators kinds with
      | error error => simp
      | ok found => simp

theorem checkExcludes_eq_ok_iff {patterns : List String} :
    checkExcludes patterns = .ok () ↔
      ∃ globs, patterns.mapM Glob.ofText = .ok globs := by
  rw [exists_mapM_eq_ok_iff]
  induction patterns with
  | nil => simp [checkExcludes]
  | cons pattern rest ih =>
      rw [checkExcludes]
      cases parsed : Glob.parse pattern with
      | error error => simp [Glob.ofText, parsed]
      | ok tokens =>
          dsimp only
          rw [ih]
          simp [Glob.ofText, parsed]

theorem check_eq_ok_iff {config : ProjectConfig} :
    config.check = .ok () ↔ config.scan.timeoutSeconds ≠ 0 ∧
      checkGroups config.scanners.groups = .ok () ∧
      checkGenerators config.generators.enabled = .ok () ∧
      checkDiagrams config.generators.enabled config.generators.diagrams =
        .ok () ∧
      checkExcludes config.scan.exclude = .ok () := by
  rw [check]
  by_cases time : config.scan.timeoutSeconds = 0
  · simp [time, throw, throwThe, MonadExceptOf.throw, bind, Except.bind]
  · cases checkGroups config.scanners.groups <;>
      cases checkGenerators config.generators.enabled <;>
      cases checkDiagrams config.generators.enabled
        config.generators.diagrams <;>
      simp [time, bind, Except.bind]

end ArchSurvey.ProjectConfig
