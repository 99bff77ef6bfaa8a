import ArchSurvey.Scan.Result

/-!
# Architecture models

The union of the findings of a survey.  Results are taken in the order of priority and scanner, and
of two findings with the same key the first one is kept, so the model does not depend on the order
in which scanners finish.
-/

namespace ArchSurvey

/-- The merged findings of a project. -/
structure Model where
  projectName : String
  components : List Component := []
  dependencies : List Dependency := []
  endpoints : List Endpoint := []
  flows : List MessageFlow := []
  entities : List DataEntity := []
  relationships : List Relationship := []
  /-- The statistics of every scanner that ran, by scanner. -/
  statistics : List (String × Statistics) := []
  deriving DecidableEq, Repr

/-- A scan result with the priority of its scanner. -/
structure MergeInput where
  priority : Int
  result : ScanResult
  deriving DecidableEq, Repr

/-- The order in which results are merged: by priority, then by scanner. -/
def MergeInput.le (a b : MergeInput) : Bool :=
  a.priority < b.priority || (a.priority == b.priority && a.result.scanner ≤ b.result.scanner)

/-- What tells components apart. -/
def Component.key (component : Component) : String :=
  component.id

/-- What tells dependencies apart. -/
def Dependency.key (d : Dependency) : String × String × String × Option String :=
  (d.source, d.group, d.artifact, d.version)

/-- What tells endpoints apart. -/
def Endpoint.key (e : Endpoint) : String × Option String × String :=
  (e.component, e.method, e.path)

/-- What tells message flows apart. -/
def MessageFlow.key (f : MessageFlow) : String × Option String × Option String :=
  (f.topic, f.publisher, f.subscriber)

/-- What tells entities apart. -/
def DataEntity.key (e : DataEntity) : String × String :=
  (e.component, e.name)

/-- What tells relationships apart. -/
def Relationship.key (r : Relationship) : String × String × Option String :=
  (r.source, r.target, r.technology)

/-- The items whose key none before them has; `seen` holds the keys met so far. -/
def firstByKeyFrom {α κ : Type} [DecidableEq κ] (key : α → κ) (seen : List κ) : List α → List α
  | [] => []
  | item :: rest =>
      if key item ∈ seen then firstByKeyFrom key seen rest
      else item :: firstByKeyFrom key (key item :: seen) rest

/-- The first item of each key, in order. -/
def firstByKey {α κ : Type} [DecidableEq κ] (key : α → κ) (items : List α) : List α :=
  firstByKeyFrom key [] items

namespace Model

/-- The model of a list of results that stand in the order of merging. -/
def ofOrdered (projectName : String) (inputs : List MergeInput) : Model :=
  let findings := (inputs.filter fun input => input.result.success).map fun input =>
    input.result.findings
  { projectName
    components := firstByKey Component.key (findings.flatMap Findings.components)
    dependencies := firstByKey Dependency.key (findings.flatMap Findings.dependencies)
    endpoints := firstByKey Endpoint.key (findings.flatMap Findings.endpoints)
    flows := firstByKey MessageFlow.key (findings.flatMap Findings.flows)
    entities := firstByKey DataEntity.key (findings.flatMap Findings.entities)
    relationships := firstByKey Relationship.key (findings.flatMap Findings.relationships)
    statistics := inputs.foldl (fun held input =>
      Keyed.insertNew input.result.scanner input.result.statistics held) [] }

/-- Merges scan results. -/
def merge (projectName : String) (inputs : List MergeInput) : Model :=
  ofOrdered projectName (inputs.mergeSort MergeInput.le)

/-- The component with an identity. -/
def component? (model : Model) (id : String) : Option Component :=
  model.components.find? fun component => component.id == id

/-- The name of the component with an identity, or the identity itself. -/
def componentName (model : Model) (id : String) : String :=
  match model.component? id with
  | some component => component.name
  | none => id

/-- The endpoints that a component offers. -/
def endpointsOf (model : Model) (id : String) : List Endpoint :=
  model.endpoints.filter fun endpoint => endpoint.component == id

/-- The entities that a component stores. -/
def entitiesOf (model : Model) (id : String) : List DataEntity :=
  model.entities.filter fun entity => entity.component == id

/-- The sum of the statistics of all scanners. -/
def totalStatistics (model : Model) : Statistics :=
  model.statistics.foldl (fun total entry => total.combine entry.2) {}

/-- The findings of the model. -/
def findings (model : Model) : Findings :=
  { components := model.components
    dependencies := model.dependencies
    endpoints := model.endpoints
    flows := model.flows
    entities := model.entities
    relationships := model.relationships }

end Model

end ArchSurvey
