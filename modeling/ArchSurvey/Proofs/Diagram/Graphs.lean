import ArchSurvey.Diagram.Graph
import ArchSurvey.Proofs.Diagram.Names
import ArchSurvey.Proofs.Model.FirstByKey
import Mathlib.Data.Set.Card

/-!
# Nodes and edges of graphs

A graph declares each node once, in front of the edges that need it.  Things
share a node exactly if their names do not tell them apart, and a thing has no
node of its own shape where another node took its name before.
-/

namespace ArchSurvey.Diagram

/-! ## Lines of graphs -/

/-- The node that a line declares. -/
def GraphLine.node? : GraphLine → Option Node
  | node declared => some declared
  | edge _ => none
  | gap => none

/-- The edge that a line draws. -/
def GraphLine.edge? : GraphLine → Option Edge
  | node _ => none
  | edge drawn => some drawn
  | gap => none

/-- The nodes that lines declare. -/
def nodes (lines : List GraphLine) : List Node :=
  lines.filterMap GraphLine.node?

/-- The edges that lines draw. -/
def edges (lines : List GraphLine) : List Edge :=
  lines.filterMap GraphLine.edge?

/-- The names of the nodes that lines declare. -/
def names (lines : List GraphLine) : List String :=
  (nodes lines).map Node.name

section Lines

variable (first second lines : List GraphLine)

@[simp] theorem nodes_append :
    nodes (first ++ second) = nodes first ++ nodes second :=
  List.filterMap_append

@[simp] theorem edges_append :
    edges (first ++ second) = edges first ++ edges second :=
  List.filterMap_append

@[simp] theorem names_append :
    names (first ++ second) = names first ++ names second := by
  rw [names, nodes_append, List.map_append]
  rfl

@[simp] theorem nodes_map_node (declared : List Node) :
    nodes (declared.map GraphLine.node) = declared := by
  rw [nodes, List.filterMap_map]
  exact List.filterMap_some

@[simp] theorem edges_map_node (declared : List Node) :
    edges (declared.map GraphLine.node) = [] := by
  simp [edges, List.filterMap_map, Function.comp_def, GraphLine.edge?]

@[simp] theorem nodes_map_edge (drawn : List Edge) :
    nodes (drawn.map GraphLine.edge) = [] := by
  simp [nodes, List.filterMap_map, Function.comp_def, GraphLine.node?]

@[simp] theorem edges_map_edge (drawn : List Edge) :
    edges (drawn.map GraphLine.edge) = drawn := by
  rw [edges, List.filterMap_map]
  exact List.filterMap_some

/-- Of the declarations of a name the first one stays. -/
theorem nodes_declareOnce (declared : List String) :
    nodes (declareOnce declared lines) =
      firstByKeyFrom Node.name declared (nodes lines) := by
  induction lines generalizing declared with
  | nil => rfl
  | cons line lines ih =>
      cases line with
      | node node =>
          rw [declareOnce]
          change _ = firstByKeyFrom Node.name declared (node :: nodes lines)
          rw [firstByKeyFrom]
          split
          · exact ih declared
          · exact congrArg (node :: ·) (ih _)
      | edge edge => exact ih declared
      | gap => exact ih declared

theorem edges_declareOnce (declared : List String) :
    edges (declareOnce declared lines) = edges lines := by
  induction lines generalizing declared with
  | nil => rfl
  | cons line lines ih =>
      cases line with
      | node node =>
          rw [declareOnce]
          split
          · exact ih declared
          · exact ih _
      | edge edge => exact congrArg (edge :: ·) (ih declared)
      | gap => exact ih declared

theorem declareOnce_sublist (declared : List String) :
    (declareOnce declared lines).Sublist lines := by
  induction lines generalizing declared with
  | nil => exact List.Sublist.refl _
  | cons line lines ih =>
      cases line with
      | node node =>
          rw [declareOnce]
          split
          · exact (ih declared).cons _
          · exact (ih _).cons_cons _
      | edge edge => exact (ih declared).cons_cons _
      | gap => exact (ih declared).cons_cons _

end Lines

/-! ## Edges between nodes declared before -/

/-- Each edge of a solid stroke ends at nodes that are declared in front of it
or among the names given. -/
def Grounded (declared : List String) : List GraphLine → Prop
  | [] => True
  | .node node :: lines => Grounded (node.name :: declared) lines
  | .edge edge :: lines =>
      (edge.stroke = .solid →
        edge.source ∈ declared ∧ edge.target ∈ declared) ∧
      Grounded declared lines
  | .gap :: lines => Grounded declared lines

section Grounded

variable {declared more : List String} {lines first second : List GraphLine}

theorem Grounded.mono (grounded : Grounded declared lines)
    (among : declared ⊆ more) : Grounded more lines := by
  induction lines generalizing declared more with
  | nil => trivial
  | cons line lines ih =>
      cases line with
      | node node => exact ih grounded (List.cons_subset_cons _ among)
      | edge edge =>
          exact ⟨fun solid => (grounded.1 solid).imp (@among _) (@among _),
            ih grounded.2 among⟩
      | gap => exact ih grounded among

theorem grounded_append :
    Grounded declared (first ++ second) ↔
      Grounded declared first ∧ Grounded (names first ++ declared) second := by
  induction first generalizing declared with
  | nil => simp [Grounded, names, nodes]
  | cons line first ih =>
      cases line with
      | node node =>
          -- The order of the names declared before does not matter.
          have same : Grounded (names first ++ node.name :: declared) second ↔
              Grounded (names (.node node :: first) ++ declared) second :=
            ⟨fun grounded => grounded.mono List.perm_middle.subset,
              fun grounded => grounded.mono List.perm_middle.symm.subset⟩
          rw [← same]
          exact ih
      | edge edge =>
          change _ ∧ Grounded declared (first ++ second) ↔
            (_ ∧ Grounded declared first) ∧ _
          rw [ih, and_assoc]
          rfl
      | gap => exact ih

/-- The ends of an edge are declared in the lines in front of it. -/
theorem Grounded.ends_declared (grounded : Grounded [] lines)
    {front back : List GraphLine} {edge : Edge}
    (split : lines = front ++ .edge edge :: back)
    (solid : edge.stroke = .solid) :
    edge.source ∈ names front ∧ edge.target ∈ names front := by
  rw [split, grounded_append, List.append_nil] at grounded
  exact grounded.2.1 solid

/-- A node that is declared before need not be declared again. -/
theorem Grounded.declareOnce (grounded : Grounded declared lines) :
    Grounded declared (declareOnce declared lines) := by
  induction lines generalizing declared with
  | nil => trivial
  | cons line lines ih =>
      cases line with
      | node node =>
          have inner : Grounded (node.name :: declared) lines := grounded
          rw [Diagram.declareOnce]
          split
          · next known =>
              refine ih (inner.mono ?_)
              exact List.cons_subset.mpr ⟨known, List.Subset.refl _⟩
          · exact ih inner
      | edge edge => exact ⟨grounded.1, ih grounded.2⟩
      | gap => exact ih grounded

/-- Lines that declare the nodes of their own edges may be put together. -/
theorem grounded_flatMap {α : Type} {things : List α}
    {parts : α → List GraphLine}
    (each : ∀ thing ∈ things, Grounded [] (parts thing)) :
    Grounded declared (things.flatMap parts) := by
  induction things generalizing declared with
  | nil => trivial
  | cons thing things ih =>
      obtain ⟨here, later⟩ := List.forall_mem_cons.mp each
      rw [List.flatMap_cons, grounded_append]
      exact ⟨here.mono (List.nil_subset _), ih later⟩

theorem grounded_map_node (declaredNodes : List Node) :
    Grounded declared (declaredNodes.map GraphLine.node) := by
  induction declaredNodes generalizing declared with
  | nil => trivial
  | cons node rest ih => exact ih

theorem grounded_map_edge {drawn : List Edge}
    (ends : ∀ edge ∈ drawn, edge.stroke = .solid →
      edge.source ∈ declared ∧ edge.target ∈ declared) :
    Grounded declared (drawn.map GraphLine.edge) := by
  induction drawn with
  | nil => trivial
  | cons edge drawn ih =>
      obtain ⟨here, later⟩ := List.forall_mem_cons.mp ends
      exact ⟨here, ih later⟩

end Grounded

/-! ## Nodes of dependencies and of topics -/

/-- The nodes of a shape that lines declare. -/
def nodesOf (shape : NodeShape) (lines : List GraphLine) : List Node :=
  (nodes lines).filter fun node => node.shape = shape

/-- The names that things have for nodes of their own: those that are not taken
beforehand, nor by the other names that come with a thing up to and with the
first that has the name. -/
def ownNames {α : Type} (taken : List String) (others : α → List String)
    (own : α → String) (things : List α) : Set String :=
  {name | name ∉ taken ∧ ∃ front thing back, things = front ++ thing :: back ∧
    own thing = name ∧ name ∉ (front ++ [thing]).flatMap others}

section OwnNames

variable {α : Type}

/-- The first of some things has its own name unless that is taken, and the
names of the others are free of all its names. -/
theorem mem_ownNames_cons {taken : List String} {others : α → List String}
    {own : α → String} {thing : α} {things : List α} {name : String} :
    name ∈ ownNames taken others own (thing :: things) ↔
      (name = own thing ∧ name ∉ others thing ++ taken) ∨
        name ∈ ownNames (others thing ++ [own thing] ++ taken) others own
          things := by
  constructor
  · rintro ⟨new, front, first, back, split, rfl, free⟩
    cases front with
    | nil =>
        obtain ⟨rfl, -⟩ := List.cons.inj split
        have apart : own thing ∉ others thing := by simpa using free
        exact .inl ⟨rfl, List.not_mem_append apart new⟩
    | cons head front =>
        obtain ⟨rfl, later⟩ := List.cons.inj split
        rw [List.cons_append, List.flatMap_cons, List.mem_append, not_or]
          at free
        by_cases same : own first = own thing
        · exact .inl ⟨same, List.not_mem_append free.1 new⟩
        · refine .inr ⟨?_, front, first, back, later, rfl, free.2⟩
          simp [same, free.1, new]
  · rintro (⟨rfl, new⟩ | ⟨new, front, first, back, split, rfl, free⟩)
    · rw [List.mem_append, not_or] at new
      exact ⟨new.2, [], thing, things, rfl, rfl, by simpa using new.1⟩
    · simp only [List.mem_append, not_or] at new
      refine ⟨new.2, thing :: front, first, back, by rw [split]; rfl, rfl, ?_⟩
      rw [List.cons_append, List.flatMap_cons]
      exact List.not_mem_append new.1.1 free

variable {others : α → List Node} {own : α → Node} {shape : NodeShape}
  (alien : ∀ thing, ∀ node ∈ others thing, node.shape ≠ shape)
  (shaped : ∀ thing, (own thing).shape = shape)

include alien shaped

/-- Where each thing declares other nodes and then one of its own shape, the
nodes of this shape have the names that things have of their own. -/
theorem mem_names_own_iff (seen : List String) (things : List α)
    {name : String} :
    name ∈ ((firstByKeyFrom Node.name seen
        (things.flatMap fun thing => others thing ++ [own thing])).filter
          fun node => node.shape = shape).map Node.name ↔
      name ∈ ownNames seen (fun thing => (others thing).map Node.name)
        (fun thing => (own thing).name) things := by
  induction things generalizing seen with
  | nil => simp [firstByKeyFrom, ownNames]
  | cons thing things ih =>
      -- Of what a thing declares, the filter leaves its own node or nothing.
      have silent : (firstByKeyFrom Node.name seen (others thing)).filter
          (fun node => node.shape = shape) = [] := by
        rw [List.filter_eq_nil_iff]
        intro node member
        simpa using alien thing node
          ((firstByKeyFrom_sublist Node.name seen (others thing)).mem member)
      have here : name ∈ ((firstByKeyFrom Node.name
            ((others thing).map Node.name ++ seen) [own thing]).filter
              fun node => node.shape = shape).map Node.name ↔
          name = (own thing).name ∧
            name ∉ (others thing).map Node.name ++ seen := by
        rw [firstByKeyFrom, firstByKeyFrom]
        split
        · next known =>
            constructor
            · intro member
              cases member
            · rintro ⟨rfl, new⟩
              exact absurd known new
        · next new =>
            rw [firstByKeyFrom, List.filter_cons_of_pos (by simp [shaped])]
            constructor
            · intro member
              obtain rfl : name = (own thing).name := by simpa using member
              exact ⟨rfl, new⟩
            · rintro ⟨rfl, -⟩
              simp
      rw [List.flatMap_cons, firstByKeyFrom_append, firstByKeyFrom_append,
        List.filter_append, List.filter_append, silent, List.nil_append,
        List.map_append, List.mem_append, ih, here, mem_ownNames_cons,
        List.map_append]
      rfl

/-- So many nodes have the shape as things have names of their own. -/
theorem length_own_eq_ncard (seen : List String) (things : List α) :
    ((firstByKeyFrom Node.name seen
      (things.flatMap fun thing => others thing ++ [own thing])).filter
        fun node => node.shape = shape).length =
      (ownNames seen (fun thing => (others thing).map Node.name)
        (fun thing => (own thing).name) things).ncard := by
  have distinct : (((firstByKeyFrom Node.name seen
      (things.flatMap fun thing => others thing ++ [own thing])).filter
        fun node => node.shape = shape).map Node.name).Nodup :=
    (List.filter_sublist.map Node.name).nodup
      (nodup_keys_firstByKeyFrom Node.name seen _)
  rw [← List.length_map Node.name, ← List.toFinset_card_of_nodup distinct,
    ← Set.ncard_coe_finset]
  congr 1
  ext name
  rw [← mem_names_own_iff alien shaped]
  simp

end OwnNames

/-! ## Graphs of models -/

theorem nodes_flatMap {α : Type} (things : List α)
    (parts : α → List GraphLine) :
    nodes (things.flatMap parts) =
      things.flatMap fun thing => nodes (parts thing) :=
  List.filterMap_flatMap

theorem edges_flatMap {α : Type} (things : List α)
    (parts : α → List GraphLine) :
    edges (things.flatMap parts) =
      things.flatMap fun thing => edges (parts thing) :=
  List.filterMap_flatMap

section Models

variable (model : Model)

/-- The names of the nodes of components. -/
def componentNames : List String :=
  model.components.map fun component => nodeName component.id

/-- The components that a flow names. -/
def flowParticipants (flow : MessageFlow) : List String :=
  flow.publisher.toList ++ flow.subscriber.toList

/-- The nodes of components come first, then those of dependencies with their
edges, and edges of dotted strokes last. -/
theorem exists_content_dependencyGraph : ∃ dotted : List Edge,
    (∀ edge ∈ dotted, edge.stroke = .dotted) ∧
      (dependencyGraph model).content =
        (model.components.map componentNode).map GraphLine.node ++
          (declareOnce (componentNames model)
              (model.dependencies.flatMap dependencyLines) ++
            dotted.map GraphLine.edge) := by
  have named : (model.components.map componentNode).map Node.name =
      componentNames model := List.map_map
  by_cases empty : (model.components.isEmpty &&
      model.dependencies.isEmpty) = true
  · refine ⟨[], by simp, ?_⟩
    rw [dependencyGraph, if_pos empty]
    rw [Bool.and_eq_true, List.isEmpty_iff, List.isEmpty_iff] at empty
    rw [empty.1, empty.2]
    rfl
  · refine ⟨model.relationships.map relationshipEdge, ?_, ?_⟩
    · intro edge member
      obtain ⟨relationship, -, rfl⟩ := List.mem_map.mp member
      rfl
    · rw [dependencyGraph, if_neg empty]
      simp only [named, List.map_map, List.append_assoc]
      rfl

/-- The nodes of flows come first, and behind a gap their edges. -/
theorem exists_content_messageGraph : ∃ gaps : List GraphLine,
    (∀ line ∈ gaps, line = .gap) ∧
      (messageGraph model).content =
        declareOnce [] (model.flows.flatMap (flowNodes model)) ++
          (gaps ++ (model.flows.flatMap flowEdges).map GraphLine.edge) := by
  by_cases empty : model.flows.isEmpty = true
  · refine ⟨[], by simp, ?_⟩
    rw [messageGraph, if_pos empty, List.isEmpty_iff.mp empty]
    rfl
  · refine ⟨[.gap], by simp, ?_⟩
    rw [messageGraph, if_neg empty]
    simp only [List.append_assoc]

theorem nodes_flows :
    nodes (model.flows.flatMap (flowNodes model)) =
      model.flows.flatMap fun flow =>
        (flowParticipants flow).map (participantNode model) ++
          [topicNode flow.topic] := by
  rw [nodes_flatMap]
  congr 1
  funext flow
  exact nodes_map_node _

theorem nodes_gaps {gaps : List GraphLine}
    (silent : ∀ line ∈ gaps, line = .gap) : nodes gaps = [] := by
  refine List.filterMap_eq_nil_iff.mpr fun line member => ?_
  rw [silent line member]
  rfl

theorem nodes_dependencyGraph :
    nodes (dependencyGraph model).content =
      model.components.map componentNode ++
        firstByKeyFrom Node.name (componentNames model)
          (model.dependencies.flatMap fun dependency =>
            [ownerNode dependency] ++ [packageNode dependency]) := by
  obtain ⟨dotted, -, content⟩ := exists_content_dependencyGraph model
  rw [content, nodes_append, nodes_append, nodes_map_node, nodes_map_edge,
    nodes_declareOnce, nodes_flatMap, List.append_nil]
  rfl

theorem nodes_messageGraph :
    nodes (messageGraph model).content =
      firstByKeyFrom Node.name []
        (model.flows.flatMap fun flow =>
          (flowParticipants flow).map (participantNode model) ++
            [topicNode flow.topic]) := by
  obtain ⟨gaps, silent, content⟩ := exists_content_messageGraph model
  rw [content, nodes_append, nodes_append, nodes_map_edge, nodes_gaps silent,
    nodes_declareOnce, nodes_flows, List.append_nil, List.append_nil]

theorem length_packages :
    (nodesOf .pill (dependencyGraph model).content).length =
      (ownNames (componentNames model)
        (fun dependency => [nodeName dependency.source])
        (fun dependency => (packageNode dependency).name)
        model.dependencies).ncard := by
  have boxes : (model.components.map componentNode).filter
      (fun node => node.shape = .pill) = [] := by
    rw [List.filter_eq_nil_iff]
    intro node member
    obtain ⟨component, -, rfl⟩ := List.mem_map.mp member
    simp [componentNode]
  rw [nodesOf, nodes_dependencyGraph, List.filter_append, boxes,
    List.nil_append]
  have alien : ∀ dependency, ∀ node ∈ [ownerNode dependency],
      node.shape ≠ .pill := by
    intro dependency node member
    obtain rfl := List.mem_singleton.mp member
    simp [ownerNode]
  have shaped (dependency : Dependency) :
      (packageNode dependency).shape = .pill := rfl
  exact length_own_eq_ncard alien shaped _ _

theorem length_topics :
    (nodesOf .hexagon (messageGraph model).content).length =
      (ownNames [] (fun flow => (flowParticipants flow).map nodeName)
        (fun flow => (topicNode flow.topic).name) model.flows).ncard := by
  have named (flow : MessageFlow) :
      ((flowParticipants flow).map (participantNode model)).map Node.name =
        (flowParticipants flow).map nodeName := List.map_map
  have alien : ∀ flow : MessageFlow,
      ∀ node ∈ (flowParticipants flow).map (participantNode model),
        node.shape ≠ .hexagon := by
    intro flow node member
    obtain ⟨participant, -, rfl⟩ := List.mem_map.mp member
    simp [participantNode]
  have shaped (flow : MessageFlow) :
      (topicNode flow.topic).shape = .hexagon := rfl
  simp only [← named]
  rw [nodesOf, nodes_messageGraph]
  exact length_own_eq_ncard alien shaped _ _

end Models

/-- Two dependencies share a node exactly if no name tells their groups and
artifacts apart, and so do two topics.  There are as many nodes of dependencies
and of topics as these have names of their own. -/
theorem nodes_tell_apart (model : Model) :
    (∀ one other : Dependency,
      (dependencyEdge one).target = (dependencyEdge other).target ↔
        List.Forall₂ Alike (one.group ++ "_" ++ one.artifact).toList
          (other.group ++ "_" ++ other.artifact).toList) ∧
    (∀ one other : MessageFlow,
      (topicNode one.topic).name = (topicNode other.topic).name ↔
        List.Forall₂ Alike one.topic.toList other.topic.toList) ∧
    (nodesOf .pill (dependencyGraph model).content).length =
      (ownNames (componentNames model)
        (fun dependency => [nodeName dependency.source])
        (fun dependency => (packageNode dependency).name)
        model.dependencies).ncard ∧
    (nodesOf .hexagon (messageGraph model).content).length =
      (ownNames [] (fun flow => (flowParticipants flow).map nodeName)
        (fun flow => (topicNode flow.topic).name) model.flows).ncard := by
  refine ⟨?_, ?_, length_packages model, length_topics model⟩
  · intro one other
    rw [← nodeName_eq_iff]
    exact String.append_right_inj "dep_"
  · intro one other
    rw [← nodeName_eq_iff]
    exact String.append_right_inj "topic_"

/-- Topics that differ in a mark only share a node. -/
theorem not_nodes_tell_apart :
    ¬ ∀ model : Model,
      (∀ one ∈ model.dependencies, ∀ other ∈ model.dependencies,
        (dependencyEdge one).target = (dependencyEdge other).target →
          (one.group, one.artifact) = (other.group, other.artifact)) ∧
      (∀ one ∈ model.flows, ∀ other ∈ model.flows,
        (topicNode one.topic).name = (topicNode other.topic).name →
          one.topic = other.topic) ∧
      (nodesOf .pill (dependencyGraph model).content).length =
        (model.dependencies.map fun dependency =>
          (dependency.group, dependency.artifact)).dedup.length ∧
      (nodesOf .hexagon (messageGraph model).content).length =
        (model.flows.map MessageFlow.topic).dedup.length := by
  intro always
  let created : MessageFlow := { topic := "orders.created" }
  let dashed : MessageFlow := { topic := "orders-created" }
  obtain ⟨-, apart, -⟩ :=
    always { projectName := "shop", flows := [created, dashed] }
  have same := apart created (by simp) dashed (by simp) (by decide +kernel)
  revert same
  decide

end ArchSurvey.Diagram
