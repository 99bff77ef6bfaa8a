import ArchSurvey.Project.Parts
import ArchSurvey.Text.Split

/-!
# Routes

Paths of routes, and the findings in a file that offers endpoints.
-/

namespace ArchSurvey.Route

open Text

/-! ## Route paths -/

/-- A base and a path below it as one path, which starts with a slash and has one slash between the
two. -/
def joinPaths (base path : List Char) : List Char :=
  let base := dropEndWhile (· == '/') (trim base)
  let path := (trim path).dropWhile (· == '/')
  let joined :=
    if base.isEmpty then path else if path.isEmpty then base else base ++ '/' :: path
  if joined.head? == some '/' then joined else '/' :: joined

/-! ## Offered endpoints -/

/-- The findings in a file whose component offers some endpoints; the component is reported only if
there are any. -/
def offer (component : Component) (endpoints : List Endpoint) : Findings :=
  { components := if endpoints.isEmpty then [] else [component], endpoints }

/-- The components without those that repeat the one before them. -/
def withoutRepeats : List Component → List Component
  | [] => []
  | first :: rest =>
      match withoutRepeats rest with
      | [] => [first]
      | second :: others =>
          if first.id == second.id then first :: others else first :: second :: others

/-- The findings without components that repeat the one before them. -/
def withoutRepeatedComponents (findings : Findings) : Findings :=
  { findings with components := withoutRepeats findings.components }

end ArchSurvey.Route
