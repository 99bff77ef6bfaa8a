import ArchSurvey.Diagram.Label
import ArchSurvey.Model.Basic

/-!
# Graphs

Dependencies and message flows as nodes and edges.  A node is declared once, in the line before the
first edge that needs it or earlier.
-/

namespace ArchSurvey.Diagram

/-- The shapes of nodes. -/
inductive NodeShape where
  | box
  | pill
  | hexagon
  deriving DecidableEq, Repr

/-- What opens and closes the label of a node. -/
def NodeShape.brackets : NodeShape → String × String
  | box => ("[", "]")
  | pill => ("([", "])")
  | hexagon => ("\x7b\x7b", "\x7d\x7d")

/-- The declaration of a node. -/
structure Node where
  name : String
  shape : NodeShape
  label : String
  deriving DecidableEq, Repr

/-- The strokes of edges. -/
inductive Stroke where
  | solid
  | dotted
  deriving DecidableEq, Repr

/-- The arrow of a stroke. -/
def Stroke.arrow : Stroke → String
  | solid => "-->"
  | dotted => "-.->"

/-- An edge between two nodes. -/
structure Edge where
  source : String
  stroke : Stroke := .solid
  label : Option String := none
  target : String
  deriving DecidableEq, Repr

/-- A line of a graph. -/
inductive GraphLine where
  | node (declared : Node)
  | edge (drawn : Edge)
  | gap
  deriving DecidableEq, Repr

/-- The text of the line of a node. -/
def Node.line (node : Node) : String :=
  "  " ++ node.name ++ node.shape.brackets.1 ++ quoted node.label ++ node.shape.brackets.2

/-- The text of the line of an edge. -/
def Edge.line (edge : Edge) : String :=
  let arrow :=
    match edge.label with
    | none => edge.stroke.arrow
    | some label => edge.stroke.arrow ++ "|" ++ quoted label ++ "|"
  "  " ++ edge.source ++ " " ++ arrow ++ " " ++ edge.target

/-- The text of a line. -/
def GraphLine.line : GraphLine → String
  | node declared => declared.line
  | edge drawn => drawn.line
  | gap => ""

/-- The lines without the declarations of nodes declared before; `declared` holds the names of the
nodes declared so far. -/
def declareOnce (declared : List String) : List GraphLine → List GraphLine
  | [] => []
  | .node node :: rest =>
      if node.name ∈ declared then declareOnce declared rest
      else .node node :: declareOnce (node.name :: declared) rest
  | line :: rest => line :: declareOnce declared rest

/-- A graph: its direction and its lines. -/
structure Graph where
  direction : String
  /-- What is said in place of the lines where there are none. -/
  placeholder : String
  content : List GraphLine
  deriving DecidableEq, Repr

/-- The lines of a graph. -/
def Graph.lines (graph : Graph) : List String :=
  ("graph " ++ graph.direction) ::
    if graph.content.isEmpty then ["  A[" ++ graph.placeholder ++ "]"]
    else graph.content.map GraphLine.line

/-! ## Dependencies -/

/-- The node of a component. -/
def componentNode (component : Component) : Node :=
  ⟨nodeName component.id, .box, label component.name⟩

/-- The node of the owner of a dependency. -/
def ownerNode (dependency : Dependency) : Node :=
  ⟨nodeName dependency.source, .box, label dependency.source⟩

/-- The node of the package of a dependency. -/
def packageNode (dependency : Dependency) : Node :=
  ⟨"dep_" ++ nodeName (dependency.group ++ "_" ++ dependency.artifact), .pill,
    label dependency.artifact⟩

/-- The edge of a dependency. -/
def dependencyEdge (dependency : Dependency) : Edge :=
  { source := (ownerNode dependency).name
    label := dependency.version.map label
    target := (packageNode dependency).name }

/-- The nodes and the edge of a dependency. -/
def dependencyLines (dependency : Dependency) : List GraphLine :=
  [.node (ownerNode dependency), .node (packageNode dependency), .edge (dependencyEdge dependency)]

/-- The edge of a relationship. -/
def relationshipEdge (relationship : Relationship) : Edge :=
  { source := nodeName relationship.source
    stroke := .dotted
    label := some relationship.kind.verb
    target := nodeName relationship.target }

/-- Components and what they depend on. -/
def dependencyGraph (model : Model) : Graph :=
  { direction := "LR"
    placeholder := "No dependencies found"
    content :=
      if model.components.isEmpty && model.dependencies.isEmpty then []
      else
        let nodes := model.components.map componentNode
        nodes.map GraphLine.node ++
          declareOnce (nodes.map Node.name) (model.dependencies.flatMap dependencyLines) ++
          model.relationships.map fun relationship => .edge (relationshipEdge relationship) }

/-! ## Message flows -/

/-- The node of a component that sends or takes messages. -/
def participantNode (model : Model) (id : String) : Node :=
  ⟨nodeName id, .box, label (model.componentName id)⟩

/-- The node of a topic. -/
def topicNode (topic : String) : Node :=
  ⟨"topic_" ++ nodeName topic, .hexagon, label topic⟩

/-- The nodes of a flow. -/
def flowNodes (model : Model) (flow : MessageFlow) : List GraphLine :=
  ((flow.publisher.toList ++ flow.subscriber.toList).map (participantNode model) ++
    [topicNode flow.topic]).map GraphLine.node

/-- The edges of a flow, one for each of its sides. -/
def flowEdges (flow : MessageFlow) : List Edge :=
  let topic := (topicNode flow.topic).name
  (flow.publisher.toList.map fun publisher =>
    { source := nodeName publisher
      label := some (label (flow.messageType.getD "message"))
      target := topic }) ++
  flow.subscriber.toList.map fun subscriber =>
    { source := topic, target := nodeName subscriber }

/-- Topics and the components that send to them and take from them. -/
def messageGraph (model : Model) : Graph :=
  { direction := "TB"
    placeholder := "No message flows found"
    content :=
      if model.flows.isEmpty then []
      else
        declareOnce [] (model.flows.flatMap (flowNodes model)) ++ [.gap] ++
          (model.flows.flatMap flowEdges).map GraphLine.edge }

end ArchSurvey.Diagram
