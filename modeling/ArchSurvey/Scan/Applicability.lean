import ArchSurvey.Scan.Context
import ArchSurvey.Scan.Result
import ArchSurvey.Text.LetterCase

/-!
# Applicability

Tests whether a scanner is relevant for a project.  A conjunction whose first part fails and a
disjunction whose first part holds do not look at their second part.
-/

namespace ArchSurvey

/-- A test of a project. -/
inductive Applicability where
  | always
  | never
  /-- Some file matches a pattern. -/
  | hasFiles (pattern : String)
  /-- Some file matches one of several patterns. -/
  | hasAnyFiles (patterns : List String)
  /-- Some file that matches a pattern contains a text. -/
  | fileContains (pattern needle : String)
  /-- An earlier scanner found a dependency whose group or artifact contains a name. -/
  | hasDependency (name : String)
  /-- An earlier scanner found a dependency whose group or artifact contains one of some names. -/
  | hasAnyDependency (names : List String)
  | and (first second : Applicability)
  | or (first second : Applicability)
  | negate (test : Applicability)
  /-- A test of a scanner's own, known by a name. -/
  | custom (name : String) (test : Context → Attempt Bool)

/-- The evaluation of a test: the names of the custom tests that it called, in order, and what came
of it. -/
structure Evaluation where
  probes : List String
  outcome : Attempt Bool

namespace Evaluation

/-- An evaluation that calls no custom test. -/
def pure (value : Bool) : Evaluation :=
  ⟨[], .finished value⟩

/-- An evaluation that goes on with another, which depends on its value, unless it panics. -/
def andThen (first : Evaluation) (next : Bool → Evaluation) : Evaluation :=
  match first.outcome with
  | .finished value =>
      let second := next value
      ⟨first.probes ++ second.probes, second.outcome⟩
  | .panicked message => ⟨first.probes, .panicked message⟩

end Evaluation

namespace Context

/-- Whether a file is text that contains another text. -/
def fileHas (context : Context) (needle file : String) : Bool :=
  match context.disk.readText file with
  | .ok text => Text.occursIn needle.toList text
  | .error _ => false

/-- Whether some file that matches a pattern contains a text. -/
def anyFileHas (context : Context) (pattern needle : String) : Bool :=
  match context.findFiles pattern with
  | .ok files => files.any (context.fileHas needle)
  | .error _ => false

/-- The dependencies that earlier scanners found. -/
def knownDependencies (context : Context) : List Dependency :=
  (context.previous.filter fun entry => entry.2.success).flatMap fun entry =>
    entry.2.findings.dependencies

/-- Whether an earlier scanner found a dependency whose group or artifact contains one of some
names, whatever the letter case. -/
def dependsOnAny (context : Context) (names : List String) : Bool :=
  let needles := names.map fun name => Text.lower name.toList
  context.knownDependencies.any fun dependency =>
    [dependency.group, dependency.artifact].any fun part =>
      needles.any fun needle => Text.occursIn needle (Text.lower part.toList)

end Context

namespace Applicability

/-- Evaluates a test on a project. -/
def evaluate (context : Context) : Applicability → Evaluation
  | always => .pure true
  | never => .pure false
  | hasFiles pattern => .pure (context.hasFiles pattern)
  | hasAnyFiles patterns => .pure (patterns.any context.hasFiles)
  | fileContains pattern needle =>
      .pure (context.hasFiles pattern && context.anyFileHas pattern needle)
  | hasDependency name => .pure (context.dependsOnAny [name])
  | hasAnyDependency names => .pure (context.dependsOnAny names)
  | and first second =>
      (first.evaluate context).andThen fun holds =>
        if holds then second.evaluate context else .pure false
  | or first second =>
      (first.evaluate context).andThen fun holds =>
        if holds then .pure true else second.evaluate context
  | negate test => (test.evaluate context).andThen fun holds => .pure (!holds)
  | custom name test => ⟨[name], test context⟩

/-- What comes of a test on a project. -/
def test (applicability : Applicability) (context : Context) : Attempt Bool :=
  (applicability.evaluate context).outcome

end Applicability

end ArchSurvey
