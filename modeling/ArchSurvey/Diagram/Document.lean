import ArchSurvey.Diagram.Components
import ArchSurvey.Diagram.Entities
import ArchSurvey.Diagram.Graph
import ArchSurvey.Diagram.Label
import ArchSurvey.Model.Basic
import ArchSurvey.Text.LetterCase
import ArchSurvey.Text.Split

/-!
# Diagram documents

The diagrams and documents that can be asked for, and the causes for which none is drawn.  A
diagram as a document has a title, and its lines between two fences.
-/

namespace ArchSurvey

/-- The kinds of diagram. -/
inductive DiagramKind where
  | context
  | container
  | component
  | dependencies
  | entities
  | flows
  | endpoints
  | deployment
  | sequence
  deriving DecidableEq, Repr

/-- Why a diagram is not drawn. -/
inductive DrawingError where
  /-- No generator asked for draws diagrams of the kind. -/
  | unsupported (generators : List String) (kind : DiagramKind)
  | unknownKind (text : String)
  | unknownGenerator (id : String)
  deriving DecidableEq, Repr

namespace DiagramKind

/-- Every kind of diagram. -/
def all : List DiagramKind :=
  [context, container, component, dependencies, entities, flows, endpoints, deployment, sequence]

/-- The name of a kind of diagram. -/
def name : DiagramKind → String
  | context => "c4-context"
  | container => "c4-container"
  | component => "c4-component"
  | dependencies => "dependency-graph"
  | entities => "er-diagram"
  | flows => "message-flow"
  | endpoints => "api-catalog"
  | deployment => "deployment"
  | sequence => "sequence"

/-- The name that a text stands for: blanks at its ends and letter case do not matter, and words
may be joined by underscores. -/
def normalName (text : String) : String :=
  String.ofList ((Text.lower (Text.trim text.toList)).map fun c => if c == '_' then '-' else c)

/-- The kind with a name. -/
def ofText (text : String) : Except DrawingError DiagramKind :=
  match all.find? fun kind => kind.name == normalName text with
  | some kind => .ok kind
  | none => .error (.unknownKind text)

/-- The kinds with the names, or the first name that is none. -/
def ofTexts (texts : List String) : Except DrawingError (List DiagramKind) :=
  texts.mapM ofText

theorem mem_all (kind : DiagramKind) : kind ∈ all := by
  cases kind <;> simp [all]

end DiagramKind

/-- The wording of an error. -/
def DrawingError.message : DrawingError → String
  | unsupported generators kind =>
      "generator '" ++ ", ".intercalate generators ++ "' does not support diagram type " ++
        kind.name
  | unknownKind text =>
      "unknown diagram type '" ++ text ++ "' (available: " ++
        ", ".intercalate (DiagramKind.all.map DiagramKind.name) ++ ")"
  | unknownGenerator id => "unknown generator '" ++ id ++ "'"

end ArchSurvey

namespace ArchSurvey.Diagram

/-! ## Sequence diagrams -/

/-- A component that answers calls. -/
structure Participant where
  name : String
  title : String
  deriving DecidableEq, Repr

/-- A call and the answer to it. -/
structure Call where
  participant : String
  request : String
  note : Option String
  deriving DecidableEq, Repr

/-- A sequence diagram. -/
structure SequenceDiagram where
  participants : List Participant
  calls : List Call
  deriving DecidableEq, Repr

/-- The line of a participant. -/
def Participant.line (participant : Participant) : String :=
  "  participant " ++ participant.name ++ " as " ++ participant.title

/-- The lines of a call. -/
def Call.lines (call : Call) : List String :=
  ["  Client->>" ++ call.participant ++ ": " ++ call.request] ++
    (call.note.toList.map fun note => "  Note over " ++ call.participant ++ ": " ++ note) ++
    ["  " ++ call.participant ++ "-->>Client: Response"]

/-- The lines of a diagram. -/
def SequenceDiagram.lines (diagram : SequenceDiagram) : List String :=
  ["sequenceDiagram", "  participant Client"] ++
    if diagram.calls.isEmpty then
      ["  participant System", "  Note over Client,System: No API endpoints found"]
    else diagram.participants.map Participant.line ++ [""] ++ diagram.calls.flatMap Call.lines

/-- The participants of endpoints, each owner once. -/
def participants (model : Model) : List Participant :=
  (firstByKey id (model.endpoints.map Endpoint.component)).map fun owner =>
    ⟨nodeName owner, label (model.componentName owner)⟩

/-- The call of an endpoint. -/
def endpointCall (endpoint : Endpoint) : Call :=
  { participant := nodeName endpoint.component
    request := endpoint.method.getD "CALL" ++ " " ++ label endpoint.path
    note := endpoint.description.map label }

/-- The calls that the project answers. -/
def sequenceDiagram (model : Model) : SequenceDiagram :=
  ⟨participants model, model.endpoints.map endpointCall⟩

/-! ## Documents -/

/-- How diagrams are to be drawn. -/
structure DrawingOptions where
  theme : Option String := none
  /-- Whether a diagram of systems shows those that are not part of the project. -/
  includeExternal : Bool := true
  deriving DecidableEq, Repr

/-- What opens and closes the lines of a diagram. -/
def fence : String := "\x60\x60\x60"

/-- The line that chooses a theme. -/
def themeLine (theme : String) : String :=
  "%%\x7binit: \x7b'theme': '" ++ theme ++ "'\x7d\x7d%%"

/-- The lines of a diagram as a document. -/
def documentLines (title : String) (theme : Option String) (lines : List String) : List String :=
  ["# " ++ title, "", fence ++ "mermaid"] ++ theme.toList.map themeLine ++ lines ++ [fence]

/-- Lines as a text, each ended by a line feed. -/
def textOfLines (lines : List String) : String :=
  String.join (lines.map (· ++ "\n"))

/-- The title and the lines of a diagram of a kind that is drawn as one. -/
def diagram? (options : DrawingOptions) (model : Model) :
    DiagramKind → Option (String × List String)
  | .context =>
      some ("C4 Context Diagram", (contextDiagram model options.includeExternal).lines)
  | .container => some ("C4 Container Diagram", (containerDiagram model).lines)
  | .component => some ("C4 Component Diagram", (componentDiagram model).lines)
  | .dependencies => some ("Dependency Graph", (dependencyGraph model).lines)
  | .entities => some ("Entity-Relationship Diagram", (entityDiagram model).lines)
  | .flows => some ("Message Flow Diagram", (messageGraph model).lines)
  | .sequence => some ("API Sequence Diagram", (sequenceDiagram model).lines)
  | .endpoints => none
  | .deployment => none

/-- The document of a diagram of a kind that is drawn as one. -/
def document? (options : DrawingOptions) (model : Model) (kind : DiagramKind) : Option String :=
  (diagram? options model kind).map fun (title, lines) =>
    textOfLines (documentLines title options.theme lines)

end ArchSurvey.Diagram
