import ArchSurvey.Proofs.Diagram.Frames

/-!
# Elements and arrows

What a diagram of components shows.  Each shown component has one line with an
element, and each relationship between shown components one line with an arrow,
both in the order of the model.  Leaving out the systems beside the project
leaves out their elements and the arrows that end at them, and nothing else.
-/

namespace ArchSurvey.Diagram

/-! ## Lines that draw -/

/-- The shapes of elements. -/
def shapes : List String :=
  ["System", "SystemDb_Ext", "SystemQueue_Ext", "System_Ext", "Container",
    "ContainerDb", "ContainerQueue", "Component"]

/-- Whether a line draws an element. -/
def drawsElement (line : String) : Bool :=
  shapes.any fun shape =>
    Text.startsWith ("  " ++ shape ++ "(").toList line.toList

/-- Whether a line draws an arrow. -/
def drawsArrow (line : String) : Bool :=
  Text.startsWith "  Rel(".toList line.toList

section Lines

variable {line : String}

theorem getElem?_of_startsWith {start text : List Char}
    (starts : Text.startsWith start text = true) {place : Nat}
    (inside : place < start.length) : text[place]? = start[place]? := by
  obtain ⟨rest, rfl⟩ := Text.startsWith_iff.mp starts
  exact List.getElem?_append_left inside

theorem startsWith_append (start rest : String) :
    Text.startsWith start.toList (start ++ rest).toList = true := by
  rw [Text.startsWith_iff, String.toList_append]
  exact List.prefix_append _ _

/-- The first character of a line, and the one behind the indent. -/
def mark (line : String) : Option Char × Option Char :=
  (line.toList[0]?, line.toList[2]?)

theorem mark_of_startsWith {start : String} (long : 2 < start.toList.length)
    (starts : Text.startsWith start.toList line.toList = true) :
    mark line = mark start := by
  rw [mark, mark, getElem?_of_startsWith starts (by omega),
    getElem?_of_startsWith starts long]

theorem mark_of_drawsElement (draws : drawsElement line = true) :
    mark line ∈ [(some ' ', some 'S'), (some ' ', some 'C')] := by
  obtain ⟨shape, member, starts⟩ := List.any_eq_true.mp draws
  have each : ∀ shape ∈ shapes,
      2 < ("  " ++ shape ++ "(").toList.length ∧
        mark ("  " ++ shape ++ "(") ∈
          [(some ' ', some 'S'), (some ' ', some 'C')] := by
    decide +kernel
  obtain ⟨long, marked⟩ := each shape member
  rwa [mark_of_startsWith long starts]

theorem mark_of_drawsArrow (draws : drawsArrow line = true) :
    mark line = (some ' ', some 'R') :=
  mark_of_startsWith (by decide) draws

/-- No line draws both. -/
theorem drawsArrow_of_drawsElement (draws : drawsElement line = true) :
    drawsArrow line = false := by
  rw [Bool.eq_false_iff]
  intro arrow
  have marked := mark_of_drawsElement draws
  rw [mark_of_drawsArrow arrow] at marked
  revert marked
  decide

theorem drawsElement_of_drawsArrow (draws : drawsArrow line = true) :
    drawsElement line = false := by
  rw [Bool.eq_false_iff]
  intro element
  rw [drawsArrow_of_drawsElement element] at draws
  cases draws

/-- The marks of lines that draw. -/
def marks : List (Option Char × Option Char) :=
  [(some ' ', some 'S'), (some ' ', some 'C'), (some ' ', some 'R')]

theorem draws_nothing_of_mark (other : mark line ∉ marks) :
    drawsElement line = false ∧ drawsArrow line = false := by
  constructor <;> rw [Bool.eq_false_iff] <;> intro draws
  · have marked := mark_of_drawsElement draws
    exact other (List.mem_append_left [(some ' ', some 'R')] marked)
  · rw [mark_of_drawsArrow draws] at other
    exact other (by decide)

theorem draws_element {element : Element} (shaped : element.shape ∈ shapes) :
    drawsElement element.line = true := by
  refine List.any_eq_true.mpr ⟨element.shape, shaped, ?_⟩
  have spelled : element.line = ("  " ++ element.shape ++ "(") ++
      (", ".intercalate (element.name :: element.labels.map quoted) ++ ")") :=
    String.append_assoc
  rw [spelled]
  exact startsWith_append _ _

theorem draws_connection (connection : Connection) :
    drawsArrow connection.line = true := by
  unfold drawsArrow Connection.line
  simp only [String.append_assoc]
  exact startsWith_append _ _

end Lines

/-- The headings of diagrams of components. -/
def headings : List String :=
  ["C4Context", "C4Container", "C4Component"]

section Diagrams

variable {diagram : ComponentDiagram} {draws : String → Bool}

theorem filter_eq_nil {lines : List String}
    (none : ∀ line ∈ lines, draws line = false) : lines.filter draws = [] := by
  rw [List.filter_eq_nil_iff]
  intro line member
  rw [none line member]
  exact Bool.false_ne_true

/-- The blank line over the arrows stands only where there are any. -/
theorem filter_behind (blank : draws "" = false)
    {connections : List Connection} :
    (if connections.isEmpty then []
      else "" :: connections.map Connection.line).filter draws =
    (connections.map Connection.line).filter draws := by
  cases connections with
  | nil => rfl
  | cons connection connections => simp [blank]

/-- The lines over the elements draw nothing. -/
theorem draws_nothing (heading : diagram.heading ∈ headings) :
    ∀ line ∈ [diagram.heading, "  title " ++ diagram.title, ""],
      drawsElement line = false ∧ drawsArrow line = false := by
  have headed : ∀ heading ∈ headings, mark heading ∉ marks := by
    decide
  have titled : mark ("  title " ++ diagram.title) ∉ marks := by
    simp [mark, marks]
  have blank : mark "" ∉ marks := by
    decide
  simp only [List.forall_mem_cons, List.not_mem_nil, false_implies,
    implies_true, and_true]
  exact ⟨draws_nothing_of_mark (headed _ heading), draws_nothing_of_mark titled,
    draws_nothing_of_mark blank⟩

/-- The elements and the arrows of a diagram are told apart by their lines. -/
theorem filter_lines (heading : diagram.heading ∈ headings)
    (shaped : ∀ element ∈ diagram.elements, element.shape ∈ shapes) :
    diagram.lines.filter drawsElement = diagram.elements.map Element.line ∧
      diagram.lines.filter drawsArrow =
        diagram.connections.map Connection.line := by
  have front := draws_nothing heading
  have elements : ∀ line ∈ diagram.elements.map Element.line,
      drawsElement line = true :=
    List.forall_mem_map.mpr fun element member =>
      draws_element (shaped element member)
  have arrows : ∀ line ∈ diagram.connections.map Connection.line,
      drawsArrow line = true :=
    List.forall_mem_map.mpr fun connection _ => draws_connection connection
  have noArrows : (diagram.elements.map Element.line).filter drawsArrow = [] :=
    filter_eq_nil fun line member =>
      drawsArrow_of_drawsElement (elements line member)
  have noElements :
      (diagram.connections.map Connection.line).filter drawsElement = [] :=
    filter_eq_nil fun line member =>
      drawsElement_of_drawsArrow (arrows line member)
  rw [ComponentDiagram.lines]
  constructor
  · rw [List.filter_append, List.filter_append,
      filter_eq_nil fun line member => (front line member).1,
      List.filter_eq_self.mpr elements, filter_behind rfl, noElements,
      List.nil_append, List.append_nil]
  · rw [List.filter_append, List.filter_append,
      filter_eq_nil fun line member => (front line member).2,
      noArrows, filter_behind rfl, List.filter_eq_self.mpr arrows]
    rfl

end Diagrams

/-! ## What is shown -/

/-- The kinds of diagrams of components. -/
def componentKinds : List DiagramKind :=
  [.context, .container, .component]

/-- Whether a diagram of a kind shows a component.  The systems beside the
project may be left out. -/
def IsShown (kind : DiagramKind) (includeExternal : Bool)
    (component : Component) : Prop :=
  kind = .context → includeExternal = false →
    component.kind ∈ [ComponentKind.service, .module, .apiGateway]

instance (kind : DiagramKind) (includeExternal : Bool) :
    DecidablePred (IsShown kind includeExternal) :=
  fun component => inferInstanceAs (Decidable (kind = .context →
    includeExternal = false →
      component.kind ∈ [ComponentKind.service, .module, .apiGateway]))

/-- The components that a diagram of a kind shows. -/
def shown (kind : DiagramKind) (includeExternal : Bool) (model : Model) :
    List Component :=
  model.components.filter fun component =>
    IsShown kind includeExternal component

/-- Whether both ends of a relationship are among components. -/
def Joins (components : List Component) (relationship : Relationship) : Prop :=
  (∃ component ∈ components, component.id = relationship.source) ∧
    ∃ component ∈ components, component.id = relationship.target

instance (components : List Component) : DecidablePred (Joins components) :=
  fun relationship => inferInstanceAs (Decidable (
    (∃ component ∈ components, component.id = relationship.source) ∧
      ∃ component ∈ components, component.id = relationship.target))

/-- The relationships between components that a diagram of a kind shows. -/
def joined (kind : DiagramKind) (includeExternal : Bool) (model : Model) :
    List Relationship :=
  model.relationships.filter fun relationship =>
    Joins (shown kind includeExternal model) relationship

/-- The element of a component in a diagram of a kind. -/
def elementOf (model : Model) : DiagramKind → Component → Element
  | .container => containerElement
  | .component => componentElement model
  | _ => systemElement

/-- The line in place of elements where no component is shown. -/
def placeholder : DiagramKind → String
  | .container =>
      "  Container(placeholder, \"No components found\", \"\", \"\")"
  | .component =>
      "  Component(placeholder, \"No components found\", \"\", \"\")"
  | _ => "  System(placeholder, \"No components found\", \"\")"

/-- The lines of the elements of a diagram of a kind. -/
def elementLines (kind : DiagramKind) (includeExternal : Bool)
    (model : Model) : List String :=
  if shown kind includeExternal model = [] then [placeholder kind]
  else (shown kind includeExternal model).map fun component =>
    (elementOf model kind component).line

section Shown

variable (model : Model) (includeExternal : Bool)

theorem shown_context :
    shown .context includeExternal model =
      shownSystems model includeExternal := by
  refine List.filter_congr fun component _ => ?_
  cases includeExternal with
  | true => simp [IsShown]
  | false =>
      rw [isInternal]
      cases kind : component.kind <;> simp [IsShown, kind]

theorem shown_eq_components {kind : DiagramKind} (other : kind ≠ .context) :
    shown kind includeExternal model = model.components :=
  List.filter_eq_self.mpr fun _ _ =>
    decide_eq_true fun same => absurd same other

/-- Where systems are left out, only relationships with them are. -/
theorem joined_without_external (kind : DiagramKind) :
    joined kind false model =
      (joined kind true model).filter fun relationship =>
        Joins (shown kind false model) relationship := by
  have among {component : Component}
      (member : component ∈ shown kind false model) :
      component ∈ shown kind true model := by
    rw [shown, List.mem_filter] at member ⊢
    exact ⟨member.1, decide_eq_true fun _ impossible => nomatch impossible⟩
  rw [joined, joined, List.filter_filter]
  refine List.filter_congr fun relationship _ => ?_
  rw [Bool.eq_iff_iff, Bool.and_eq_true, decide_eq_true_iff,
    decide_eq_true_iff]
  constructor
  · rintro ⟨⟨source, inside, starts⟩, target, inside', ends⟩
    exact ⟨⟨⟨source, inside, starts⟩, target, inside', ends⟩,
      ⟨source, among inside, starts⟩, target, among inside', ends⟩
  · exact And.left

end Shown

/-! ## What is drawn -/

/-- An element that stands for a component. -/
def Element.Stands (element : Element) (component : Component) : Prop :=
  element.name = nodeName component.id ∧
    element.labels.head? = some (label component.name)

/-- Lines that draw the shown components and the relationships between them,
each in one line and in the order of the model, and nothing else. -/
structure Shows (kind : DiagramKind) (includeExternal : Bool) (model : Model)
    (lines : List String) : Prop where
  unbroken : ∀ line ∈ lines, Unbroken line
  elements : lines.filter drawsElement = elementLines kind includeExternal model
  stands : ∀ component, (elementOf model kind component).Stands component
  arrows : lines.filter drawsArrow =
    (joined kind includeExternal model).map fun relationship =>
      (connection relationship).line

section Drawn

variable {model : Model} {includeExternal : Bool} {kind : DiagramKind}

theorem connections_eq_map (model : Model) (components : List Component) :
    connections model components =
      (model.relationships.filter fun relationship =>
        Joins components relationship).map connection := by
  rw [connections]
  congr 1
  refine List.filter_congr fun relationship _ => ?_
  rw [Bool.eq_iff_iff, Bool.and_eq_true, List.contains_iff_mem,
    List.contains_iff_mem, List.mem_map, List.mem_map, decide_eq_true_iff,
    Joins]

theorem elementOf_shape_mem (model : Model) (kind : DiagramKind)
    (component : Component) :
    (elementOf model kind component).shape ∈ shapes := by
  have system : systemShape component ∈ shapes := by
    rw [systemShape]
    cases component.kind <;> decide
  have container : containerShape component ∈ shapes := by
    rw [containerShape]
    cases component.kind <;> decide
  cases kind
  case container => exact container
  case component => exact (by decide : "Component" ∈ shapes)
  all_goals exact system

theorem elementOf_stands (model : Model) (kind : DiagramKind)
    (component : Component) :
    (elementOf model kind component).Stands component := by
  cases kind <;> exact ⟨rfl, rfl⟩

/-- The element in place of components. -/
def noElement (shape : String) (labels : Nat) : Element :=
  ⟨shape, "placeholder",
    "No components found" :: List.replicate (labels - 1) ""⟩

theorem elements_nil (shape : String) (labels : Nat)
    (element : Component → Element) :
    elements shape labels element [] = [noElement shape labels] :=
  rfl

theorem elements_of_ne_nil {shape : String} {labels : Nat}
    {element : Component → Element} {components : List Component}
    (some : components ≠ []) :
    elements shape labels element components = components.map element :=
  if_neg (by simpa using some)

/-- A diagram with the elements of the shown components. -/
theorem shows_of_elements {diagram : ComponentDiagram} (shape : String)
    (labels : Nat) (heading : diagram.heading ∈ headings)
    (shaped : shape ∈ shapes)
    (empty : (noElement shape labels).line = placeholder kind)
    (drawn : diagram.elements = elements shape labels (elementOf model kind)
      (shown kind includeExternal model))
    (connected : diagram.connections =
      connections model (shown kind includeExternal model))
    (tame : ∀ line ∈ diagram.lines, Tame line) :
    Shows kind includeExternal model diagram.lines := by
  have shapesOf : ∀ element ∈ diagram.elements, element.shape ∈ shapes := by
    rw [drawn]
    by_cases none : shown kind includeExternal model = []
    · rw [none, elements_nil, List.forall_mem_singleton]
      exact shaped
    · rw [elements_of_ne_nil none, List.forall_mem_map]
      exact fun component _ => elementOf_shape_mem model kind component
  have linesOf : diagram.elements.map Element.line =
      elementLines kind includeExternal model := by
    rw [drawn, elementLines]
    by_cases none : shown kind includeExternal model = []
    · rw [if_pos none, none, elements_nil, List.map_singleton, empty]
    · rw [if_neg none, elements_of_ne_nil none, List.map_map]
      rfl
  obtain ⟨elements, arrows⟩ := filter_lines heading shapesOf
  refine ⟨fun line member => (tame line member).unbroken, ?_,
    elementOf_stands model kind, ?_⟩
  · rw [elements, linesOf]
  · rw [arrows, connected, connections_eq_map, List.map_map]
    rfl

theorem exists_shows (model : Model) (options : DrawingOptions)
    (member : kind ∈ componentKinds) :
    ∃ title lines, diagram? options model kind = some (title, lines) ∧
      Unbroken title ∧ Shows kind options.includeExternal model lines := by
  simp only [componentKinds, List.mem_cons, List.not_mem_nil, or_false]
    at member
  have known : "C4Context" ∈ headings ∧ "C4Container" ∈ headings ∧
      "C4Component" ∈ headings := by
    decide
  rcases member with rfl | rfl | rfl
  · refine ⟨_, _, rfl, by decide,
      shows_of_elements "System" 2 known.1 (by decide) (by decide) ?_ ?_
        (tame_contextDiagram model options.includeExternal)⟩
    all_goals
      rw [shown_context]
      rfl
  · refine ⟨_, _, rfl, by decide,
      shows_of_elements "Container" 3 known.2.1 (by decide) (by decide) ?_ ?_
        (tame_containerDiagram model)⟩
    all_goals
      rw [shown_eq_components model _ (by decide)]
      rfl
  · refine ⟨_, _, rfl, by decide,
      shows_of_elements "Component" 3 known.2.2 (by decide) (by decide) ?_ ?_
        (tame_diagramOfComponents model)⟩
    all_goals
      rw [shown_eq_components model _ (by decide)]
      rfl

end Drawn

/-- A diagram of components has one line for each component that it shows, or
for the placeholder if it shows none, and one for each relationship between
two of them.  A theme stands in front of the diagram.  Without the systems
beside the project, the relationships are those between the other ones. -/
theorem componentDiagrams_draw_shown (model : Model)
    (options : DrawingOptions) :
    ∀ kind ∈ componentKinds,
      (∃ title lines,
        Generator.diagrams.draw options model kind = .ok ⟨kind.name,
          textOfLines (documentLines title options.theme lines)⟩ ∧
        Unbroken title ∧ Shows kind options.includeExternal model lines) ∧
      joined kind false model =
        (joined kind true model).filter fun relationship =>
          Joins (shown kind false model) relationship := by
  intro kind member
  obtain ⟨title, lines, drawn, unbroken, shows⟩ :=
    exists_shows model options member
  refine ⟨⟨title, lines, ?_, unbroken, shows⟩,
    joined_without_external model kind⟩
  rw [Generator.draw_eq_ok_iff, Generator.draw?, document?, drawn]
  rfl

/-- A shop with a database, one of whose relationships ends nowhere. -/
def shopWithDatabase : Model :=
  { projectName := "shop"
    components :=
      [{ id := "svc", name := "orders", kind := .service },
        { id := "db", name := "orders-db", kind := .database }]
    relationships :=
      [{ source := "svc", target := "gone", kind := .calls },
        { source := "svc", target := "db", kind := .writesTo }] }

theorem componentDiagrams_draw_shown_shop :
    ∃ title lines,
      Generator.diagrams.draw ⟨some "dark", true⟩ shopWithDatabase .context =
          .ok ⟨"c4-context",
            textOfLines (documentLines title (some "dark") lines)⟩ ∧
        lines.filter drawsElement =
          ["  System(svc, \"orders\", \"\")",
            "  SystemDb_Ext(db, \"orders-db\", \"\")"] ∧
        lines.filter drawsArrow =
          ["  Rel(svc, db, \"writes to\", \"\")"] := by
  obtain ⟨⟨title, lines, drawn, -, shows⟩, -⟩ :=
    componentDiagrams_draw_shown shopWithDatabase ⟨some "dark", true⟩
      .context (by decide)
  exact ⟨title, lines, drawn, shows.elements.trans (by decide +kernel),
    shows.arrows.trans (by decide +kernel)⟩

/-- Without the database, nothing is left to join. -/
example : joined .context false shopWithDatabase = [] := by
  decide

end ArchSurvey.Diagram
