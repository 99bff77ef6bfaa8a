import ArchSurvey.Model.Basic
import ArchSurvey.Model.Quality
import ArchSurvey.Text.Split

/-!
# Catalogs

The findings of a model as tables: one section for each owner, topic, kind or entity, with a row
for each item in the order of the model.
-/

namespace ArchSurvey.Catalog

/-!
## Tables

Tables of cells parted by bars.  A bar inside a cell has a backslash before it, and a cell stays on
one line.
-/

/-- A character as a cell shows it. -/
def cellChar (c : Char) : List Char :=
  if c == '|' then ['\\', '|'] else if c == '\n' || c == '\r' then [' '] else [c]

/-- A text as a cell shows it. -/
def cell (text : String) : String :=
  String.ofList (text.toList.flatMap cellChar)

/-- The cell of a text that may be missing: a dash stands for none and for the empty text. -/
def cellOrDash (text : Option String) : String :=
  match text with
  | none => "-"
  | some text => if text.isEmpty then "-" else cell text

/-- The cell of a text shown as code. -/
def codeCell (text : String) : String :=
  "\x60" ++ cell text ++ "\x60"

/-- A table of cells. -/
structure Table where
  columns : List String
  rows : List (List String)
  deriving DecidableEq, Repr

/-- The line of a row. -/
def rowLine (cells : List String) : String :=
  "| " ++ " | ".intercalate cells ++ " |"

/-- The lines of a table. -/
def Table.lines (table : Table) : List String :=
  [rowLine table.columns, "|" ++ String.join (table.columns.map fun _ => "---|")] ++
    table.rows.map rowLine

/-- A character of a cell ends no line. -/
theorem cellChar_not_lineEnd {c shown : Char} (member : shown ∈ cellChar c) :
    shown ≠ '\n' ∧ shown ≠ '\r' := by
  unfold cellChar at member
  split at member
  · simp only [List.mem_cons, List.not_mem_nil, or_false] at member
    rcases member with rfl | rfl <;> decide
  · split at member
    · simp only [List.mem_cons, List.not_mem_nil, or_false] at member
      subst member
      decide
    · simp only [List.mem_cons, List.not_mem_nil, or_false] at member
      subst member
      simp_all

/-! ## Catalogs -/

/-- A section of a catalog. -/
structure Section where
  title : String
  /-- The lines between the title and the table. -/
  introduction : List String := []
  table : Option Table
  deriving DecidableEq, Repr

/-- The lines of a section. -/
def Section.lines (part : Section) : List String :=
  ["## " ++ part.title, ""] ++ part.introduction ++
    match part.table with
    | none => []
    | some table => table.lines ++ [""]

/-- The page of a catalog. -/
structure Page where
  title : String
  /-- What the page lists. -/
  subject : String
  sections : List Section
  /-- The lines after the sections. -/
  closing : List String := []
  deriving DecidableEq, Repr

/-- The lines of a catalog; one without sections says so. -/
def Page.lines (page : Page) : List String :=
  ["# " ++ page.title, ""] ++
    if page.sections.isEmpty then ["No " ++ page.subject ++ " found in the system."]
    else page.sections.flatMap Section.lines ++ page.closing

/-- The items of each key, the keys in the order in which they first occur. -/
def groupBy {α κ : Type} [DecidableEq κ] (key : α → κ) (items : List α) : List (κ × List α) :=
  (firstByKey id (items.map key)).map fun held => (held, items.filter fun item => key item = held)

/-! ## Endpoints -/

/-- The row of an endpoint. -/
def endpointRow (endpoint : Endpoint) : List String :=
  [cellOrDash endpoint.method, codeCell endpoint.path, endpoint.kind.title,
    (endpoint.authentication.map cell).getD "None", cellOrDash endpoint.description]

/-- The endpoints of each component. -/
def endpointCatalog (model : Model) : Page :=
  { title := "API Catalog"
    subject := "API endpoints"
    sections := (groupBy Endpoint.component model.endpoints).map fun (owner, endpoints) =>
      { title := model.componentName owner
        table := some
          { columns := ["Method", "Path", "Type", "Authentication", "Description"]
            rows := endpoints.map endpointRow } } }

/-! ## Components -/

/-- The row of a component. -/
def componentRow (component : Component) : List String :=
  [cell component.name, cellOrDash component.technology, cellOrDash component.repository,
    cellOrDash component.description]

/-- A text with blanks for its underscores. -/
def spaced (text : String) : String :=
  String.ofList (text.toList.map fun c => if c == '_' then ' ' else c)

/-- The sections of the components, one for each kind that occurs, in the order of the kinds. -/
def componentSections (components : List Component) : List Section :=
  let groups := ComponentKind.all.map fun kind =>
    (kind, components.filter fun component => component.kind == kind)
  (groups.filter fun group => !group.2.isEmpty).map fun (kind, held) =>
    { title := spaced kind.name
      table := some
        { columns := ["Name", "Technology", "Repository", "Description"]
          rows := held.map componentRow } }

/-- A fact that is listed under its name. -/
def fact (name value : String) : String :=
  "- **" ++ name ++ ":** " ++ value

/-- The further facts of a component. -/
def metadataLines (metadata : List (String × String)) : List String :=
  if metadata.isEmpty then []
  else "- **Metadata:**" :: metadata.map fun (key, value) => "  - " ++ key ++ ": " ++ value

/-- A count that is listed unless it is zero. -/
def countLines (name unit : String) (count : Nat) : List String :=
  if count == 0 then [] else [fact name (toString count ++ " " ++ unit)]

/-- The lines that tell all of a component. -/
def componentDetails (model : Model) (component : Component) : List String :=
  ["", "### " ++ component.name, "", fact "Type" component.kind.name] ++
    component.technology.toList.map (fact "Technology") ++
    component.description.toList.map (fact "Description") ++
    metadataLines component.metadata ++
    countLines "Exposed APIs" "endpoint(s)" (model.endpointsOf component.id).length ++
    countLines "Data Entities" "entity/entities" (model.entitiesOf component.id).length

/-- The components by kind, and all of each of them. -/
def componentCatalog (model : Model) : Page :=
  { title := "Component Catalog"
    subject := "components"
    sections := componentSections model.components
    closing := "## Component Details" :: model.components.flatMap (componentDetails model) }

/-! ## Dependencies -/

/-- The row of a dependency. -/
def dependencyRow (dependency : Dependency) : List String :=
  [cellOrDash (some dependency.group), cell dependency.artifact, cellOrDash dependency.version,
    cell dependency.scope, if dependency.direct then "Direct" else "Transitive"]

/-- A table of counts. -/
def countTable (counts : List (String × Nat)) : Table :=
  { columns := ["Metric", "Count"]
    rows := counts.map fun (name, count) => [name, toString count] }

/-- How many dependencies there are of each sort. -/
def dependencySummary (dependencies : List Dependency) : Table :=
  let direct := (dependencies.filter Dependency.direct).length
  countTable
    [("Total Dependencies", dependencies.length), ("Direct Dependencies", direct),
      ("Transitive Dependencies", dependencies.length - direct)]

/-- The dependencies of each component. -/
def dependencyCatalog (model : Model) : Page :=
  { title := "Dependency Matrix"
    subject := "external dependencies"
    sections := (groupBy Dependency.source model.dependencies).map fun (owner, dependencies) =>
      { title := model.componentName owner
        table := some
          { columns := ["Group", "Artifact", "Version", "Scope", "Type"]
            rows := dependencies.map dependencyRow } }
    closing := ["## Dependency Summary", ""] ++ (dependencySummary model.dependencies).lines }

/-! ## Entities -/

/-- The row of a field. -/
def fieldRow (field : Field) : List String :=
  [cell field.name, codeCell field.dataType, if field.nullable then "Yes" else "No",
    cellOrDash field.references, cellOrDash field.description]

/-- The section of an entity. -/
def entitySection (model : Model) (entity : DataEntity) : Section :=
  { title := entity.name
    introduction :=
      (entity.description.toList.flatMap fun description => [description, ""]) ++
        [fact "Type" (entity.kind.getD "table")] ++
        entity.primaryKey.toList.map (fact "Primary Key") ++
        [fact "Component" (model.componentName entity.component), ""]
    table :=
      if entity.fields.isEmpty then none
      else some
        { columns := ["Field", "Data Type", "Nullable", "References", "Description"]
          rows := entity.fields.map fieldRow } }

/-- The entities with their fields. -/
def entityCatalog (model : Model) : Page :=
  { title := "Data Entity Catalog"
    subject := "data entities"
    sections := model.entities.map (entitySection model) }

/-! ## Message flows -/

/-- The row of a message flow. -/
def flowRow (model : Model) (flow : MessageFlow) : List String :=
  [cellOrDash (flow.publisher.map model.componentName),
    cellOrDash (flow.subscriber.map model.componentName), cellOrDash flow.messageType,
    cellOrDash flow.schema]

/-- The message flows of each topic. -/
def flowCatalog (model : Model) : Page :=
  { title := "Message Flow Catalog"
    subject := "message flows"
    sections := (groupBy MessageFlow.topic model.flows).map fun (topic, flows) =>
      let broker := (flows.findSome? MessageFlow.broker).getD "Unknown"
      { title := topic
        introduction := ["**Broker:** " ++ broker, ""]
        table := some
          { columns := ["Publisher", "Subscriber", "Message Type", "Schema"]
            rows := flows.map (flowRow model) } } }

/-!
## Index documents

The page that opens a documentation: the size of the model, the quality of the scan where it is
known, and a link to every file.
-/

/-- The number of items of each kind in a model. -/
def modelTable (model : Model) : Table :=
  countTable
    [("Components", model.components.length), ("Dependencies", model.dependencies.length),
      ("API Endpoints", model.endpoints.length), ("Data Entities", model.entities.length),
      ("Message Flows", model.flows.length), ("Relationships", model.relationships.length)]

/-- The line of a gap. -/
def gapLine (gap : Gap) : String :=
  "- **" ++ gap.severity.name ++ "** \x60" ++ gap.scanner ++ "\x60: " ++ gap.message

/-- The lines on the quality of a scan. -/
def qualityLines (quality : Quality) : List String :=
  ["", "## Scan Quality", "",
    toString quality.filesAnalyzed ++ " of " ++ toString quality.totalFiles ++
      " files analyzed by " ++ toString quality.scannersRun ++ " scanner(s), " ++
      toString quality.scannersFailed ++ " failed."] ++
    if quality.gaps.isEmpty then [] else "" :: quality.gaps.map gapLine

/-- The link to a file, under its name without its last extension. -/
def fileLink (file : String) : String :=
  let title :=
    match Text.cutLast ['.'] file.toList with
    | some (stem, _) => String.ofList stem
    | none => file
  "- [" ++ title ++ "](" ++ file ++ ")"

/-- The lines of the index of a documentation made of some files. -/
def indexLines (model : Model) (quality : Option Quality) (files : List String) : List String :=
  ["# " ++ model.projectName ++ " - Architecture Documentation", "",
    "This documentation provides a generated view of the " ++ model.projectName ++
      " architecture.", "",
    "## Architecture Statistics", ""] ++
    (modelTable model).lines ++ quality.toList.flatMap qualityLines ++ ["", "## Diagrams", ""] ++
    if files.isEmpty then ["No diagrams were generated."] else files.map fileLink

end ArchSurvey.Catalog
