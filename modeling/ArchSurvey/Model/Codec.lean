import ArchSurvey.Model.Basic

/-!
# Models in JSON
-/

namespace ArchSurvey.Model

open Json

/-- Writes a model. -/
def toJson (model : Model) : Json :=
  obj (("project_name", str model.projectName) :: model.findings.toMembers ++
    [("scanner_statistics",
      obj (model.statistics.map fun (scanner, s) => (scanner, s.toJson)))])

/-- Reads a model. -/
def ofJson? : Decoder Model := fun value => do
  let fields ← record
    ("project_name" :: Findings.categories ++ ["scanner_statistics"]) value
  let findings ← Findings.ofFields? fields
  some
    { projectName := ← fields.required "project_name" string
      components := findings.components
      dependencies := findings.dependencies
      endpoints := findings.endpoints
      flows := findings.flows
      entities := findings.entities
      relationships := findings.relationships
      statistics := ← fields.withDefault "scanner_statistics" [] (map Statistics.ofJson?) }

end ArchSurvey.Model
