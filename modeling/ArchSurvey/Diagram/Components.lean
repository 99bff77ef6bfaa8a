import ArchSurvey.Diagram.Label
import ArchSurvey.Model.Basic

/-!
# Diagrams of components

Components as elements, and the relationships between those that are shown.
-/

namespace ArchSurvey.Diagram

/-- An element: its shape, its name and the labels after the name. -/
structure Element where
  shape : String
  name : String
  labels : List String
  deriving DecidableEq, Repr

/-- The line of an element. -/
def Element.line (element : Element) : String :=
  "  " ++ element.shape ++ "(" ++ ", ".intercalate (element.name :: element.labels.map quoted) ++ ")"

/-- An arrow between two elements. -/
structure Connection where
  source : String
  target : String
  label : String
  technology : String
  deriving DecidableEq, Repr

/-- The line of an arrow. -/
def Connection.line (connection : Connection) : String :=
  "  Rel(" ++ connection.source ++ ", " ++ connection.target ++ ", " ++ quoted connection.label ++
    ", " ++ quoted connection.technology ++ ")"

/-- A diagram of components. -/
structure ComponentDiagram where
  heading : String
  title : String
  elements : List Element
  connections : List Connection
  deriving DecidableEq, Repr

namespace ComponentDiagram

/-- The lines of a diagram. -/
def lines (diagram : ComponentDiagram) : List String :=
  [diagram.heading, "  title " ++ diagram.title, ""] ++ diagram.elements.map Element.line ++
    if diagram.connections.isEmpty then []
    else "" :: diagram.connections.map Connection.line

end ComponentDiagram

/-- Whether a component is part of the system and not beside it. -/
def isInternal (component : Component) : Bool :=
  match component.kind with
  | .service | .module | .apiGateway => true
  | _ => false

/-- The arrow of a relationship. -/
def connection (relationship : Relationship) : Connection :=
  { source := nodeName relationship.source
    target := nodeName relationship.target
    label := label (relationship.description.getD relationship.kind.verb)
    technology := optionalLabel relationship.technology }

/-- The arrows of the relationships both of whose ends are shown. -/
def connections (model : Model) (shown : List Component) : List Connection :=
  let ids := shown.map Component.id
  (model.relationships.filter fun relationship =>
    ids.contains relationship.source && ids.contains relationship.target).map connection

/-- The elements of components, or of a placeholder with a number of labels where there are none. -/
def elements (shape : String) (labels : Nat) (element : Component → Element)
    (shown : List Component) : List Element :=
  if shown.isEmpty then
    [⟨shape, "placeholder", "No components found" :: List.replicate (labels - 1) ""⟩]
  else shown.map element

/-- The shape of a component among systems. -/
def systemShape (component : Component) : String :=
  match component.kind with
  | .service | .module | .apiGateway => "System"
  | .database => "SystemDb_Ext"
  | .messageBroker => "SystemQueue_Ext"
  | _ => "System_Ext"

/-- A component as a system. -/
def systemElement (component : Component) : Element :=
  { shape := systemShape component
    name := nodeName component.id
    labels :=
      [label component.name, optionalLabel (component.description.or component.technology)] }

/-- The components that a diagram of systems shows. -/
def shownSystems (model : Model) (includeExternal : Bool) : List Component :=
  model.components.filter fun component => includeExternal || isInternal component

/-- The project and the systems around it. -/
def contextDiagram (model : Model) (includeExternal : Bool) : ComponentDiagram :=
  let shown := shownSystems model includeExternal
  { heading := "C4Context"
    title := "System Context Diagram for " ++ label model.projectName
    elements := elements "System" 2 systemElement shown
    connections := connections model shown }

/-- The shape of a component among containers. -/
def containerShape (component : Component) : String :=
  match component.kind with
  | .database => "ContainerDb"
  | .messageBroker => "ContainerQueue"
  | _ => "Container"

/-- A component as a container. -/
def containerElement (component : Component) : Element :=
  { shape := containerShape component
    name := nodeName component.id
    labels :=
      [label component.name, optionalLabel component.technology,
        optionalLabel component.description] }

/-- The containers that make up the project. -/
def containerDiagram (model : Model) : ComponentDiagram :=
  { heading := "C4Container"
    title := "Container Diagram for " ++ label model.projectName
    elements := elements "Container" 3 containerElement model.components
    connections := connections model model.components }

/-- What a component is, with the number of endpoints and entities that it owns. -/
def holdings (model : Model) (component : Component) : String :=
  let description := component.description.getD component.kind.name
  let endpoints := (model.endpointsOf component.id).length
  let entities := (model.entitiesOf component.id).length
  if endpoints > 0 || entities > 0 then
    description ++ " (" ++ toString endpoints ++ " endpoints, " ++ toString entities ++ " entities)"
  else description

/-- A component with what it owns. -/
def componentElement (model : Model) (component : Component) : Element :=
  { shape := "Component"
    name := nodeName component.id
    labels :=
      [label component.name, optionalLabel component.technology,
        label (holdings model component)] }

/-- The components of the project with what they own. -/
def componentDiagram (model : Model) : ComponentDiagram :=
  { heading := "C4Component"
    title := "Component Diagram for " ++ label model.projectName
    elements := elements "Component" 3 (componentElement model) model.components
    connections := connections model model.components }

end ArchSurvey.Diagram
