import ArchSurvey.Proofs.Diagram.Generator
import ArchSurvey.Proofs.Diagram.Lines

/-!
# Frames of diagrams

A document with a diagram has as many lines as the parts that are drawn ask for,
and no line but the one that opens the diagram and the last is a fence.  Only
the method of an endpoint can break this, as it is shown as it is.
-/

namespace ArchSurvey.Diagram

/-! ## Heights -/

/-- So many lines a diagram of components has. -/
def ComponentDiagram.height (diagram : ComponentDiagram) : Nat :=
  3 + diagram.elements.length +
    if diagram.connections.length = 0 then 0
    else 1 + diagram.connections.length

theorem ComponentDiagram.length_lines (diagram : ComponentDiagram) :
    diagram.lines.length = diagram.height := by
  rw [lines, height]
  cases diagram.connections <;> simp <;> omega

/-- So many lines a graph has in which so many gaps stand. -/
def Graph.height (gaps : Nat) (graph : Graph) : Nat :=
  let drawn := (nodes graph.content).length + (edges graph.content).length
  if drawn = 0 then 2 else 1 + drawn + gaps

theorem length_lines_graph (lines : List GraphLine) :
    lines.length =
      (nodes lines).length + (edges lines).length + lines.count .gap := by
  induction lines with
  | nil => rfl
  | cons line lines ih =>
      cases line with
      | node node =>
          have here : nodes (.node node :: lines) = node :: nodes lines := rfl
          have others : edges (.node node :: lines) = edges lines := rfl
          simp [here, others, ih]
          omega
      | edge edge =>
          have here : edges (.edge edge :: lines) = edge :: edges lines := rfl
          have others : nodes (.edge edge :: lines) = nodes lines := rfl
          simp [here, others, ih]
          omega
      | gap =>
          have none : nodes (.gap :: lines) = nodes lines := rfl
          have none' : edges (.gap :: lines) = edges lines := rfl
          simp [none, none', ih]
          omega

theorem Graph.length_lines {graph : Graph} {gaps : Nat}
    (apart : graph.content = [] ∨
      graph.content.count .gap = gaps ∧ gaps < graph.content.length) :
    graph.lines.length = graph.height gaps := by
  rw [lines, height]
  rcases apart with empty | ⟨counted, more⟩
  · simp [empty, nodes, edges]
  · have length := length_lines_graph graph.content
    have filled : graph.content.isEmpty = false := by
      rw [List.isEmpty_eq_false_iff]
      exact List.ne_nil_of_length_pos (by omega)
    rw [counted] at length
    simp only [filled, List.length_cons, List.length_map, Bool.false_eq_true,
      if_false]
    split <;> omega

theorem gap_notMem_dependencyGraph (model : Model) :
    GraphLine.gap ∉ (dependencyGraph model).content := by
  intro member
  rcases cases_of_mem_dependencyGraph member with
    ⟨component, wrong⟩ | ⟨dependency, drawn⟩ | ⟨relationship, wrong⟩
  · cases wrong
  · simp [dependencyLines] at drawn
  · cases wrong

theorem length_dependencyGraph (model : Model) :
    (dependencyGraph model).lines.length =
      (dependencyGraph model).height 0 := by
  apply Graph.length_lines
  rw [List.count_eq_zero.mpr (gap_notMem_dependencyGraph model)]
  by_cases empty : (dependencyGraph model).content = []
  · exact .inl empty
  · exact .inr ⟨rfl, List.length_pos_iff.mpr empty⟩

theorem gap_notMem_flowNodes (model : Model) :
    GraphLine.gap ∉
      declareOnce [] (model.flows.flatMap (flowNodes model)) := by
  intro member
  obtain ⟨flow, -, inside⟩ :=
    List.mem_flatMap.mp ((declareOnce_sublist _ _).mem member)
  simp [flowNodes] at inside

/-- A flow declares the node of its topic at least. -/
theorem flowNodes_ne_nil (model : Model) {flow : MessageFlow}
    (shown : flow ∈ model.flows) :
    declareOnce [] (model.flows.flatMap (flowNodes model)) ≠ [] := by
  have declared : (topicNode flow.topic).name ∈ names
      (declareOnce [] (model.flows.flatMap (flowNodes model))) := by
    rw [mem_names_declareOnce, names, nodes_flows, List.map_flatMap]
    exact List.mem_flatMap.mpr ⟨flow, shown, by simp⟩
  intro none
  rw [none] at declared
  cases declared

theorem length_messageGraph (model : Model) :
    (messageGraph model).lines.length = (messageGraph model).height 1 := by
  apply Graph.length_lines
  rw [messageGraph]
  by_cases none : model.flows = []
  · exact .inl (if_pos (List.isEmpty_iff.mpr none))
  · obtain ⟨flow, shown⟩ := List.exists_mem_of_ne_nil _ none
    have declared := List.length_pos_iff.mpr (flowNodes_ne_nil model shown)
    have gapless : GraphLine.gap ∉
        (model.flows.flatMap flowEdges).map GraphLine.edge := by simp
    rw [if_neg (by simpa using none)]
    refine .inr ⟨?_, ?_⟩
    · rw [List.count_append, List.count_append,
        List.count_eq_zero.mpr (gap_notMem_flowNodes model),
        List.count_eq_zero.mpr gapless]
      rfl
    · rw [List.length_append, List.length_append, List.length_singleton]
      omega

/-- So many lines a diagram of entities has. -/
def EntityDiagram.height (diagram : EntityDiagram) : Nat :=
  1 + 2 * diagram.blocks.length +
    (diagram.blocks.flatMap EntityBlock.attributes).length +
    diagram.relations.length

theorem length_blocks (blocks : List EntityBlock) :
    (blocks.flatMap EntityBlock.lines).length =
      2 * blocks.length +
        (blocks.flatMap EntityBlock.attributes).length := by
  induction blocks with
  | nil => rfl
  | cons block blocks ih =>
      simp only [List.flatMap_cons, List.length_append, ih, EntityBlock.lines,
        List.length_map, List.length_cons, List.length_nil]
      omega

theorem EntityDiagram.length_lines (diagram : EntityDiagram) :
    diagram.lines.length = diagram.height := by
  rw [lines, height, List.length_append, List.length_cons, length_blocks,
    List.length_map]
  omega

/-- So many lines a sequence diagram has. -/
def SequenceDiagram.height (diagram : SequenceDiagram) : Nat :=
  2 + if diagram.calls.length = 0 then 2
    else diagram.participants.length + 1 + 2 * diagram.calls.length +
      (diagram.calls.filterMap Call.note).length

theorem length_calls (calls : List Call) :
    (calls.flatMap Call.lines).length =
      2 * calls.length + (calls.filterMap Call.note).length := by
  induction calls with
  | nil => rfl
  | cons call calls ih =>
      cases noted : call.note <;>
        simp [Call.lines, noted, ih] <;> omega

theorem SequenceDiagram.length_lines (diagram : SequenceDiagram) :
    diagram.lines.length = diagram.height := by
  rw [lines, height, List.length_append]
  cases empty : diagram.calls with
  | nil => rfl
  | cons call calls =>
      simp only [List.isEmpty_cons, Bool.false_eq_true, if_false,
        List.length_append, length_calls, List.length_map]
      simp
      omega

/-! ## Documents -/

/-- A text of so many lines, the last of which closes the block that an earlier
one opens.  No other line is a fence. -/
def Framed (content : String) (height : Nat) : Prop :=
  ∃ before within : List String,
    content = textOfLines
      (before ++ (fence ++ "mermaid") :: (within ++ [fence])) ∧
    (∀ line ∈ before ++ within, Unbroken line ∧ ¬ IsFence line) ∧
    before.length + within.length + 2 = height

/-- How often a text ends a line. -/
def lineEnds (text : String) : Nat :=
  text.toList.countP fun c => c = '\n' ∨ c = '\r'

theorem unbroken_iff_lineEnds {text : String} :
    Unbroken text ↔ lineEnds text = 0 := by
  simp [Unbroken, lineEnds, List.countP_eq_zero]

theorem lineEnds_textOfLines_cons (line : String) (lines : List String) :
    lineEnds (textOfLines (line :: lines)) =
      lineEnds line + 1 + lineEnds (textOfLines lines) := by
  simp [lineEnds, textOfLines]
  omega

theorem length_le_lineEnds (lines : List String) :
    lines.length ≤ lineEnds (textOfLines lines) := by
  induction lines with
  | nil => exact Nat.zero_le _
  | cons line lines ih =>
      rw [lineEnds_textOfLines_cons, List.length_cons]
      omega

/-- A text of lines has as many line ends as lines exactly if none of them is
broken. -/
theorem lineEnds_eq_length_iff {lines : List String} :
    lineEnds (textOfLines lines) = lines.length ↔
      ∀ line ∈ lines, Unbroken line := by
  induction lines with
  | nil => simp [textOfLines, lineEnds, String.join]
  | cons line lines ih =>
      have least := length_le_lineEnds lines
      rw [lineEnds_textOfLines_cons, List.length_cons, List.forall_mem_cons,
        ← ih, unbroken_iff_lineEnds]
      omega

theorem unbroken_fence :
    Unbroken (fence ++ "mermaid") ∧ Unbroken fence := by
  decide

/-- Lines that are no fences are framed by their document exactly if they are
unbroken. -/
theorem framed_document_iff {title : String} {lines : List String}
    (unbroken : Unbroken title) (harmless : ∀ line ∈ lines, Harmless line) :
    Framed (textOfLines (documentLines title none lines)) (4 + lines.length) ↔
      ∀ line ∈ lines, Unbroken line := by
  have heading : Tame ("# " ++ title) := by
    have mark : Unbroken "# " := by decide
    exact ⟨unbroken_append.mpr ⟨mark, unbroken⟩, by simp [Harmless]⟩
  have spelled : documentLines title none lines =
      ["# " ++ title, ""] ++ (fence ++ "mermaid") :: (lines ++ [fence]) := rfl
  constructor
  · rintro ⟨before, within, same, tame, height⟩ line member
    have unbrokenToo : ∀ line ∈ before ++ (fence ++ "mermaid") ::
        (within ++ [fence]), Unbroken line := by
      intro other inside
      simp only [List.mem_append, List.mem_cons, List.not_mem_nil, or_false]
        at inside
      rcases inside with front | rfl | back | rfl
      · exact (tame other (List.mem_append_left _ front)).1
      · exact unbroken_fence.1
      · exact (tame other (List.mem_append_right _ back)).1
      · exact unbroken_fence.2
    -- Both ways of writing the document have as many lines.
    have counted : lineEnds (textOfLines (documentLines title none lines)) =
        (documentLines title none lines).length := by
      rw [same, lineEnds_eq_length_iff.mpr unbrokenToo, spelled]
      simp only [List.length_append, List.length_cons, List.length_nil]
      omega
    refine lineEnds_eq_length_iff.mp counted line ?_
    rw [spelled]
    simp [member]
  · intro each
    refine ⟨["# " ++ title, ""], lines, by rw [spelled], ?_, ?_⟩
    · intro line member
      simp only [List.cons_append, List.nil_append, List.mem_cons] at member
      rcases member with rfl | rfl | inside
      · exact ⟨heading.unbroken, heading.harmless.not_isFence⟩
      · exact ⟨tame_empty.unbroken, tame_empty.harmless.not_isFence⟩
      · exact ⟨each line inside, (harmless line inside).not_isFence⟩
    · simp
      omega

/-- So many lines the diagram of a kind has. -/
def height (includeExternal : Bool) (model : Model) : DiagramKind → Nat
  | .context => (contextDiagram model includeExternal).height
  | .container => (containerDiagram model).height
  | .component => (componentDiagram model).height
  | .dependencies => (dependencyGraph model).height 0
  | .entities => (entityDiagram model).height
  | .flows => (messageGraph model).height 1
  | .sequence => (sequenceDiagram model).height
  | .endpoints => 0
  | .deployment => 0

/-- Lines and a title of the diagram of a kind, no line of which is a fence, and
none of which is broken but by the method of an endpoint. -/
structure Draws (includeExternal : Bool) (model : Model) (kind : DiagramKind)
    (title : String) (lines : List String) : Prop where
  drawn : diagram? ⟨none, includeExternal⟩ model kind = some (title, lines)
  title : Unbroken title
  harmless : ∀ line ∈ lines, Harmless line
  unbroken : (∀ line ∈ lines, Unbroken line) ↔
    (kind = .sequence → MethodsUnbroken model)
  height : lines.length = height includeExternal model kind

section Models

variable (model : Model) (includeExternal : Bool)

/-- Where every line is tame, methods do not matter. -/
theorem draws_of_tame {kind : DiagramKind} {title : String}
    {lines : List String} (other : kind ≠ .sequence)
    (drawn : diagram? ⟨none, includeExternal⟩ model kind = some (title, lines))
    (unbroken : Unbroken title) (tame : ∀ line ∈ lines, Tame line)
    (height : lines.length = height includeExternal model kind) :
    Draws includeExternal model kind title lines where
  drawn := drawn
  title := unbroken
  harmless line member := (tame line member).harmless
  unbroken := ⟨fun _ same => absurd same other,
    fun _ line member => (tame line member).unbroken⟩
  height := height

theorem tame_contextDiagram :
    ∀ line ∈ (contextDiagram model includeExternal).lines, Tame line := by
  have heading : IsName "C4Context" := by decide
  have shape : IsName "System" := by decide
  have front : Unbroken "System Context Diagram for " := by decide
  exact tame_componentDiagram heading (by simp [contextDiagram, front])
    (tidy_elements shape tidy_systemElement) fun _ => mem_connections

theorem tame_containerDiagram :
    ∀ line ∈ (containerDiagram model).lines, Tame line := by
  have heading : IsName "C4Container" := by decide
  have shape : IsName "Container" := by decide
  have front : Unbroken "Container Diagram for " := by decide
  exact tame_componentDiagram heading (by simp [containerDiagram, front])
    (tidy_elements shape tidy_containerElement) fun _ => mem_connections

theorem tame_diagramOfComponents :
    ∀ line ∈ (componentDiagram model).lines, Tame line := by
  have heading : IsName "C4Component" := by decide
  have shape : IsName "Component" := by decide
  have front : Unbroken "Component Diagram for " := by decide
  exact tame_componentDiagram heading (by simp [componentDiagram, front])
    (tidy_elements shape (tidy_componentElement model)) fun _ => mem_connections

theorem tame_dependencyGraph :
    ∀ line ∈ (dependencyGraph model).lines, Tame line := by
  have direction : Unbroken "LR" := by decide
  have placeholder : Unbroken "No dependencies found" := by decide
  exact tame_graph direction placeholder (tidy_dependencyGraph model)

theorem tame_messageGraph :
    ∀ line ∈ (messageGraph model).lines, Tame line := by
  have direction : Unbroken "TB" := by decide
  have placeholder : Unbroken "No message flows found" := by decide
  exact tame_graph direction placeholder (tidy_messageGraph model)

theorem exists_draws {kind : DiagramKind}
    (member : kind ∈ Generator.diagrams.kinds) :
    ∃ title lines, Draws includeExternal model kind title lines := by
  simp only [Generator.kinds, List.mem_cons, List.not_mem_nil, or_false]
    at member
  rcases member with rfl | rfl | rfl | rfl | rfl | rfl | rfl
  · exact ⟨_, _, draws_of_tame _ _ (by decide) rfl (by decide)
      (tame_contextDiagram model includeExternal)
      (ComponentDiagram.length_lines _)⟩
  · exact ⟨_, _, draws_of_tame _ _ (by decide) rfl (by decide)
      (tame_containerDiagram model) (ComponentDiagram.length_lines _)⟩
  · exact ⟨_, _, draws_of_tame _ _ (by decide) rfl (by decide)
      (tame_diagramOfComponents model) (ComponentDiagram.length_lines _)⟩
  · exact ⟨_, _, draws_of_tame _ _ (by decide) rfl (by decide)
      (tame_dependencyGraph model) (length_dependencyGraph model)⟩
  · exact ⟨_, _, draws_of_tame _ _ (by decide) rfl (by decide)
      (tame_entityDiagram model) (EntityDiagram.length_lines _)⟩
  · exact ⟨_, _, draws_of_tame _ _ (by decide) rfl (by decide)
      (tame_messageGraph model) (length_messageGraph model)⟩
  · refine ⟨_, _, rfl, by decide, harmless_sequenceDiagram model, ?_,
      SequenceDiagram.length_lines _⟩
    rw [unbroken_sequenceDiagram_iff]
    exact ⟨fun unbroken _ => unbroken, fun unbroken => unbroken rfl⟩

end Models

/-- Every document with a diagram is so many lines between two fences, but that
of a sequence diagram only if no method of an endpoint breaks its line. -/
theorem framed_drawing_iff (model : Model) (includeExternal : Bool) :
    ∀ kind ∈ Generator.diagrams.kinds, ∃ drawing,
      Generator.diagrams.draw ⟨none, includeExternal⟩ model kind = .ok drawing ∧
      (Framed drawing.content (4 + height includeExternal model kind) ↔
        (kind = .sequence → MethodsUnbroken model)) := by
  intro kind member
  obtain ⟨title, lines, draws⟩ := exists_draws model includeExternal member
  refine ⟨⟨kind.name, textOfLines (documentLines title none lines)⟩, ?_, ?_⟩
  · rw [Generator.draw_eq_ok_iff, Generator.draw?, document?, draws.drawn]
    rfl
  · rw [← draws.height, framed_document_iff draws.title draws.harmless]
    exact draws.unbroken

/-- A shop whose orders are asked for by a method, with a description of two
lines. -/
def shopAskedBy (method : String) : Model :=
  { projectName := "shop"
    endpoints :=
      [{ component := "svc", kind := .rest, path := "/orders",
         method := some method, description := some "All\norders" }] }

theorem methodsUnbroken_shopAskedBy_iff {method : String} :
    MethodsUnbroken (shopAskedBy method) ↔ Unbroken method := by
  simp [MethodsUnbroken, shopAskedBy]

/-- A description of two lines is shown in one. -/
theorem framed_drawing_iff_shop :
    ∃ drawing,
      Generator.diagrams.draw ⟨none, true⟩ (shopAskedBy "GET") .sequence =
          .ok drawing ∧
        Framed drawing.content 11 := by
  have unbroken : Unbroken "GET" := by decide
  obtain ⟨drawing, drawn, framed⟩ :=
    framed_drawing_iff (shopAskedBy "GET") true .sequence (by decide)
  exact ⟨drawing, drawn,
    framed.mpr fun _ => methodsUnbroken_shopAskedBy_iff.mpr unbroken⟩

/-- A method with a line feed puts a fence into the diagram. -/
theorem not_framed_drawing :
    ¬ ∀ (model : Model) (includeExternal : Bool),
      ∀ kind ∈ Generator.diagrams.kinds, ∃ drawing,
        Generator.diagrams.draw ⟨none, includeExternal⟩ model kind =
            .ok drawing ∧
          Framed drawing.content (4 + height includeExternal model kind) := by
  intro always
  obtain ⟨drawing, drawn, framed⟩ :=
    always (shopAskedBy "GET\n\x60\x60\x60") true .sequence (by decide)
  have title : Unbroken "API Sequence Diagram" := by decide
  obtain rfl : drawing = ⟨"sequence", textOfLines
      (documentLines "API Sequence Diagram" none
        (sequenceDiagram (shopAskedBy "GET\n\x60\x60\x60")).lines)⟩ :=
    Option.some.inj (Generator.draw_eq_ok_iff.mp drawn).symm
  have length :
      height true (shopAskedBy "GET\n\x60\x60\x60") .sequence =
        (sequenceDiagram (shopAskedBy "GET\n\x60\x60\x60")).lines.length :=
    (SequenceDiagram.length_lines _).symm
  rw [length, framed_document_iff title (harmless_sequenceDiagram _),
    unbroken_sequenceDiagram_iff, methodsUnbroken_shopAskedBy_iff] at framed
  revert framed
  decide

end ArchSurvey.Diagram
