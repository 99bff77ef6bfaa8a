import ArchSurvey.Proofs.Diagram.Graphs
import ArchSurvey.Proofs.Text.Split

/-!
# What edges and relations connect

The edges of a graph end at nodes that lines in front of them declare, and the
relations between entities at blocks of the diagram.  Each side of a flow, each
dependency and each relation is drawn once.
-/

namespace ArchSurvey.Diagram

/-! ## Edges of graphs -/

/-- The edges of a kind end at nodes that lines in front of them declare. -/
def Connects (kind : Edge → Prop) (lines : List GraphLine) : Prop :=
  ∀ front edge back, lines = front ++ .edge edge :: back → kind edge →
    edge.source ∈ names front ∧ edge.target ∈ names front

/-- From some line on no node is declared that a line in front of it
declares. -/
def DeclaresNewFrom (start : Nat) (lines : List GraphLine) : Prop :=
  ∀ front node back, lines = front ++ .node node :: back →
    start ≤ front.length → node.name ∉ names front

theorem declaresNewFrom_append {first second : List GraphLine}
    (distinct : (names second).Nodup)
    (apart : ∀ name ∈ names second, name ∉ names first) :
    DeclaresNewFrom first.length (first ++ second) := by
  intro front node back split long
  -- The line of the node stands in the second part.
  obtain ⟨within, rfl⟩ : first <+: front :=
    List.prefix_of_prefix_length_le ⟨second, rfl⟩ ⟨_, split.symm⟩ long
  rw [List.append_assoc] at split
  obtain rfl := List.append_cancel_left split
  have spelled : names (within ++ .node node :: back) =
      names within ++ node.name :: names back := names_append _ _
  rw [spelled] at distinct apart
  rw [names_append, List.mem_append, not_or]
  constructor
  · exact apart node.name (by simp)
  · intro member
    exact (List.nodup_append.mp distinct).2.2 _ member _ List.mem_cons_self rfl

section Models

variable (model : Model)

theorem names_components :
    names ((model.components.map componentNode).map GraphLine.node) =
      componentNames model := by
  rw [names, nodes_map_node, List.map_map]
  rfl

theorem grounded_dependencyLines (dependency : Dependency) :
    Grounded [] (dependencyLines dependency) := by
  simp [dependencyLines, Grounded, dependencyEdge]

theorem grounded_dependencyGraph :
    Grounded [] (dependencyGraph model).content := by
  obtain ⟨dotted, strokes, content⟩ := exists_content_dependencyGraph model
  rw [content, grounded_append, grounded_append, names_components,
    List.append_nil]
  refine ⟨grounded_map_node _, ?_, ?_⟩
  · exact (grounded_flatMap fun dependency _ =>
      grounded_dependencyLines dependency).declareOnce
  · refine grounded_map_edge fun edge member solid => ?_
    rw [strokes edge member] at solid
    cases solid

/-- What lines declare, they still declare without repetitions. -/
theorem mem_names_declareOnce {lines : List GraphLine} {name : String} :
    name ∈ names (declareOnce [] lines) ↔ name ∈ names lines := by
  rw [names, nodes_declareOnce]
  exact mem_keys_firstByKey_iff Node.name

/-- A flow declares the ends of its edges. -/
theorem ends_of_mem_flowEdges {flow : MessageFlow} {edge : Edge}
    (member : edge ∈ flowEdges flow) :
    edge.source ∈ names (flowNodes model flow) ∧
      edge.target ∈ names (flowNodes model flow) := by
  have topic : (topicNode flow.topic).name ∈ names (flowNodes model flow) := by
    rw [names, flowNodes, nodes_map_node]
    simp
  have participant {id : String} (among : id ∈ flowParticipants flow) :
      nodeName id ∈ names (flowNodes model flow) := by
    rw [names, flowNodes, nodes_map_node, List.map_append, List.mem_append]
    exact .inl (List.mem_map.mpr
      ⟨participantNode model id, List.mem_map_of_mem among, rfl⟩)
  rcases List.mem_append.mp member with sent | taken
  · obtain ⟨publisher, given, rfl⟩ := List.mem_map.mp sent
    exact ⟨participant (List.mem_append_left _ given), topic⟩
  · obtain ⟨subscriber, given, rfl⟩ := List.mem_map.mp taken
    exact ⟨topic, participant (List.mem_append_right _ given)⟩

theorem stroke_of_mem_flowEdges {flow : MessageFlow} {edge : Edge}
    (member : edge ∈ flowEdges flow) : edge.stroke = .solid := by
  rcases List.mem_append.mp member with sent | taken
  · obtain ⟨publisher, -, rfl⟩ := List.mem_map.mp sent
    rfl
  · obtain ⟨subscriber, -, rfl⟩ := List.mem_map.mp taken
    rfl

theorem grounded_gaps {gaps : List GraphLine} {declared : List String}
    (silent : ∀ line ∈ gaps, line = .gap) : Grounded declared gaps := by
  induction gaps with
  | nil => trivial
  | cons line gaps ih =>
      obtain ⟨rfl, later⟩ := List.forall_mem_cons.mp silent
      exact ih later

theorem grounded_messageGraph :
    Grounded [] (messageGraph model).content := by
  obtain ⟨gaps, silent, content⟩ := exists_content_messageGraph model
  rw [content, grounded_append, grounded_append]
  refine ⟨?_, grounded_gaps silent, ?_⟩
  · exact (grounded_flatMap fun flow _ => grounded_map_node _).declareOnce
  · refine grounded_map_edge fun edge member _ => ?_
    obtain ⟨flow, shown, drawn⟩ := List.mem_flatMap.mp member
    have declared {name : String}
        (here : name ∈ names (flowNodes model flow)) :
        name ∈ names gaps ++ (names (declareOnce []
          (model.flows.flatMap (flowNodes model))) ++ []) := by
      refine List.mem_append_right _ (List.mem_append_left _ ?_)
      rw [mem_names_declareOnce, names, nodes_flatMap, List.map_flatMap]
      exact List.mem_flatMap.mpr ⟨flow, shown, here⟩
    have ends := ends_of_mem_flowEdges model drawn
    exact ⟨declared ends.1, declared ends.2⟩

theorem edges_messageGraph :
    edges (messageGraph model).content = model.flows.flatMap flowEdges := by
  obtain ⟨gaps, silent, content⟩ := exists_content_messageGraph model
  have none : edges gaps = [] := by
    refine List.filterMap_eq_nil_iff.mpr fun line member => ?_
    rw [silent line member]
    rfl
  have noEdges (flow : MessageFlow) : edges (flowNodes model flow) = [] :=
    edges_map_node _
  rw [content, edges_append, edges_append, edges_map_edge, none,
    edges_declareOnce, edges_flatMap]
  simp only [noEdges]
  simp

theorem solid_edges_dependencyGraph :
    (edges (dependencyGraph model).content).filter
        (fun edge => edge.stroke = .solid) =
      model.dependencies.map dependencyEdge := by
  obtain ⟨dotted, strokes, content⟩ := exists_content_dependencyGraph model
  have others : dotted.filter (fun edge => edge.stroke = .solid) = [] := by
    rw [List.filter_eq_nil_iff]
    intro edge member
    simp [strokes edge member]
  have drawn : edges (model.dependencies.flatMap dependencyLines) =
      model.dependencies.map dependencyEdge := by
    rw [edges_flatMap, List.map_eq_flatMap]
    rfl
  rw [content, edges_append, edges_append, edges_map_node, edges_map_edge,
    edges_declareOnce, drawn, List.nil_append, List.filter_append, others,
    List.append_nil, List.filter_eq_self]
  intro edge member
  obtain ⟨dependency, -, rfl⟩ := List.mem_map.mp member
  rfl

theorem nodup_names_messageGraph :
    (names (messageGraph model).content).Nodup := by
  rw [names, nodes_messageGraph]
  exact nodup_keys_firstByKeyFrom Node.name [] _

/-- No line of the graph of dependencies declares a node that a line of the
components or an earlier line of the others declares. -/
theorem declaresNewFrom_dependencyGraph :
    DeclaresNewFrom model.components.length
      (dependencyGraph model).content := by
  obtain ⟨dotted, -, content⟩ := exists_content_dependencyGraph model
  have second : names (declareOnce (componentNames model)
        (model.dependencies.flatMap dependencyLines) ++
          dotted.map GraphLine.edge) =
      (firstByKeyFrom Node.name (componentNames model)
        (nodes (model.dependencies.flatMap dependencyLines))).map
          Node.name := by
    rw [names, nodes_append, nodes_map_edge, List.append_nil,
      nodes_declareOnce]
  have long : model.components.length =
      ((model.components.map componentNode).map GraphLine.node).length := by
    simp
  rw [content, long]
  apply declaresNewFrom_append
  · rw [second]
    exact nodup_keys_firstByKeyFrom Node.name _ _
  · rw [names_components, second]
    intro name member
    obtain ⟨node, kept, rfl⟩ := List.mem_map.mp member
    exact not_mem_seen_of_mem_firstByKeyFrom Node.name kept

theorem take_dependencyGraph :
    (dependencyGraph model).content.take model.components.length =
      model.components.map fun component =>
        .node (componentNode component) := by
  obtain ⟨dotted, -, content⟩ := exists_content_dependencyGraph model
  rw [content, List.map_map]
  exact List.take_left' (List.length_map _)

end Models

/-! ## Relations between blocks -/

/-- What stands one place behind the first word of an indented line. -/
def markOf (line : String) : Option Char :=
  ((line.toList.drop 2).dropWhile isNodeChar)[1]?

theorem markOf_named {name : String} (isName : IsName name) (rest : String) :
    markOf ("  " ++ name ++ rest) = (rest.toList.dropWhile isNodeChar)[1]? := by
  have spelled : ("  " ++ name ++ rest).toList.drop 2 =
      name.toList ++ rest.toList := by simp
  rw [markOf, spelled, List.dropWhile_append_of_pos isName]

theorem Relation.toList_line (relation : Relation) :
    relation.line.toList =
      ' ' :: ' ' :: (relation.one.toList ++ ' ' :: ("||--o\x7b ".toList ++
        (relation.many.toList ++ ' ' :: (": \"".toList ++
          (relation.label.toList ++ ['"']))))) := by
  simp [Relation.line, quoted]

theorem Relation.markOf_line {relation : Relation}
    (isName : IsName relation.one) : markOf relation.line = some '|' := by
  have spelled : relation.line = "  " ++ relation.one ++
      (" ||--o\x7b " ++ relation.many ++ " : " ++ quoted relation.label) := by
    simp only [Relation.line, String.append_assoc]
  have blank : isNodeChar ' ' = false := by decide
  rw [spelled, markOf_named isName]
  simp [blank]

theorem EntityBlock.markOf_of_mem_lines {block : EntityBlock}
    (isName : IsName block.name) {line : String}
    (member : line ∈ block.lines) : markOf line ≠ some '|' := by
  have blank : isNodeChar ' ' = false := by decide
  have brace : isNodeChar '}' = false := by decide
  simp only [EntityBlock.lines, List.cons_append, List.nil_append,
    List.mem_cons, List.mem_append, List.mem_map, List.not_mem_nil, or_false]
    at member
  rcases member with rfl | ⟨column, -, rfl⟩ | rfl
  · rw [markOf_named isName]
    simp [blank]
  · simp [markOf, Attribute.line, blank]
  · simp [markOf, brace]

/-- Relations between blocks are known by their lines. -/
theorem Relation.eq_of_line_eq {relation other : Relation}
    (one : IsName relation.one) (many : IsName relation.many)
    (one' : IsName other.one) (many' : IsName other.many)
    (same : relation.line = other.line) : relation = other := by
  have blank : isNodeChar ' ' = false := by decide
  have letters := congrArg String.toList same
  rw [toList_line, toList_line] at letters
  obtain ⟨ones, rest⟩ := Text.parted_unique (one.not_mem blank)
    (one'.not_mem blank) (List.cons.inj (List.cons.inj letters).2).2
  obtain ⟨manys, rest⟩ := Text.parted_unique (many.not_mem blank)
    (many'.not_mem blank) (List.append_cancel_left rest)
  have labels := List.append_cancel_right (List.append_cancel_left rest)
  cases relation
  cases other
  simp only [Relation.mk.injEq, ← String.toList_inj]
  exact ⟨ones, manys, labels⟩

section Models

variable (model : Model)

theorem exists_entities_of_mem_relations {relation : Relation}
    (member : relation ∈ (entityDiagram model).relations) :
    ∃ target ∈ model.entities, ∃ entity ∈ model.entities,
      relation.one = blockName target.name ∧
        relation.many = blockName entity.name := by
  obtain ⟨entity, shown, drawn⟩ :=
    List.mem_flatMap.mp (mem_firstByKey_id.mp member)
  obtain ⟨field, -, points⟩ := List.mem_filterMap.mp drawn
  obtain ⟨target, referenced, rfl⟩ := Option.map_eq_some_iff.mp points
  obtain ⟨name, -, found⟩ := Option.bind_eq_some_iff.mp referenced
  exact ⟨target, List.mem_of_find?_eq_some found, entity, shown, rfl, rfl⟩

theorem exists_block {entity : DataEntity} (shown : entity ∈ model.entities) :
    ∃ block ∈ (entityDiagram model).blocks,
      block.name = blockName entity.name := by
  have some : model.entities.isEmpty = false :=
    List.isEmpty_eq_false_iff.mpr (List.ne_nil_of_mem shown)
  refine ⟨entityBlock entity, ?_, rfl⟩
  rw [entityDiagram, some]
  exact List.mem_map_of_mem shown

theorem isName_of_mem_blocks {block : EntityBlock}
    (member : block ∈ (entityDiagram model).blocks) : IsName block.name := by
  rw [entityDiagram] at member
  split at member
  · obtain rfl := List.mem_singleton.mp member
    decide
  · obtain ⟨entity, -, rfl⟩ := List.mem_map.mp member
    exact isName_blockName entity.name

/-- The line of a relation stands in the diagram once. -/
theorem count_line_eq_one {relation : Relation}
    (member : relation ∈ (entityDiagram model).relations) :
    (entityDiagram model).lines.count relation.line = 1 := by
  have isName {relation : Relation}
      (member : relation ∈ (entityDiagram model).relations) :
      IsName relation.one ∧ IsName relation.many := by
    obtain ⟨target, -, entity, -, one, many⟩ :=
      exists_entities_of_mem_relations model member
    rw [one, many]
    exact ⟨isName_blockName _, isName_blockName _⟩
  -- Only the lines of relations have a bar behind their first word.
  have mark := Relation.markOf_line (isName member).1
  have front : relation.line ∉ "erDiagram" ::
      (entityDiagram model).blocks.flatMap EntityBlock.lines := by
    rw [List.mem_cons, not_or]
    constructor
    · intro same
      rw [same] at mark
      revert mark
      decide +kernel
    · intro inside
      obtain ⟨block, shown, line⟩ := List.mem_flatMap.mp inside
      exact block.markOf_of_mem_lines (isName_of_mem_blocks model shown) line
        mark
  have distinct :
      ((entityDiagram model).relations.map Relation.line).Nodup := by
    refine List.Nodup.map_on ?_ (nodup_firstByKey_id _)
    intro one inside other insideToo same
    exact Relation.eq_of_line_eq (isName inside).1 (isName inside).2
      (isName insideToo).1 (isName insideToo).2 same
  rw [EntityDiagram.lines, List.count_append, List.count_eq_zero.mpr front,
    List.count_eq_one_of_mem distinct (List.mem_map_of_mem member)]

end Models

/-! ## What is drawn -/

theorem Grounded.connects {lines : List GraphLine}
    (grounded : Grounded [] lines) :
    Connects (fun edge => edge.stroke = .solid) lines :=
  fun _ _ _ split solid => grounded.ends_declared split solid

/-- All edges of flows and the edges of dependencies end at nodes declared in
front of them, no node is declared again but for components, each side of a
flow and each dependency has one edge, and each relation stands once between
blocks of the diagram. -/
theorem edges_connect_declared (model : Model) :
    (Connects (fun _ => True) (messageGraph model).content ∧
      (names (messageGraph model).content).Nodup ∧
      edges (messageGraph model).content = model.flows.flatMap flowEdges ∧
      ∀ flow ∈ model.flows,
        (flowEdges flow).length = (flowParticipants flow).length) ∧
    (Connects (fun edge => edge.stroke = .solid)
        (dependencyGraph model).content ∧
      (dependencyGraph model).content.take model.components.length =
        model.components.map (fun component =>
          .node (componentNode component)) ∧
      DeclaresNewFrom model.components.length
        (dependencyGraph model).content ∧
      (edges (dependencyGraph model).content).filter
          (fun edge => edge.stroke = .solid) =
        model.dependencies.map dependencyEdge) ∧
    ∀ relation ∈ (entityDiagram model).relations,
      (∃ block ∈ (entityDiagram model).blocks, block.name = relation.one) ∧
      (∃ block ∈ (entityDiagram model).blocks, block.name = relation.many) ∧
      (entityDiagram model).lines.count relation.line = 1 := by
  refine ⟨⟨?_, nodup_names_messageGraph model, edges_messageGraph model, ?_⟩,
    ⟨(grounded_dependencyGraph model).connects, take_dependencyGraph model,
      declaresNewFrom_dependencyGraph model,
      solid_edges_dependencyGraph model⟩, ?_⟩
  · intro front edge back split _
    have drawn : edge ∈ edges (messageGraph model).content := by
      rw [split, edges_append]
      exact List.mem_append_right _ List.mem_cons_self
    rw [edges_messageGraph] at drawn
    obtain ⟨flow, -, member⟩ := List.mem_flatMap.mp drawn
    exact (grounded_messageGraph model).ends_declared split
      (stroke_of_mem_flowEdges member)
  · intro flow _
    simp [flowEdges, flowParticipants]
  · intro relation member
    obtain ⟨target, shown, entity, shownToo, one, many⟩ :=
      exists_entities_of_mem_relations model member
    rw [one, many]
    exact ⟨exists_block model shown, exists_block model shownToo,
      count_line_eq_one model member⟩

end ArchSurvey.Diagram
