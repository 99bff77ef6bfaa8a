import ArchSurvey.Diagram.Document
import ArchSurvey.Proofs.Diagram.Edges

/-!
# Lines of diagrams

No line of a diagram looks like a fence, and the texts of a model cannot break
lines: they appear as labels and as names.  But for one: the method of an
endpoint is shown as it is.
-/

namespace ArchSurvey.Diagram

/-! ## Texts in a line -/

/-- A text without line ends. -/
def Unbroken (text : String) : Prop :=
  ∀ c ∈ text.toList, c ≠ '\n' ∧ c ≠ '\r'

instance : DecidablePred Unbroken := fun text =>
  inferInstanceAs (Decidable (∀ c ∈ text.toList, c ≠ '\n' ∧ c ≠ '\r'))

/-- A line that opens or closes a block of code, however far it is indented. -/
def IsFence (line : String) : Prop :=
  ∃ mark ∈ ['\x60', '~'],
    [mark, mark, mark] <+: line.toList.dropWhile (· == ' ')

/-- The first character of a line that is not a blank is no mark of a fence. -/
def Harmless (line : String) : Prop :=
  ∀ c ∈ (line.toList.dropWhile (· == ' ')).head?, c ∉ ['\x60', '~']

instance : DecidablePred Harmless := fun line =>
  Option.decidableForallMem (line.toList.dropWhile (· == ' ')).head?

theorem Harmless.not_isFence {line : String} (harmless : Harmless line) :
    ¬ IsFence line := by
  rintro ⟨mark, isMark, after, split⟩
  refine harmless mark ?_ isMark
  rw [← split]
  rfl

section Texts

variable {text other : String}

@[simp] theorem unbroken_append :
    Unbroken (text ++ other) ↔ Unbroken text ∧ Unbroken other := by
  simp only [Unbroken, String.toList_append, List.forall_mem_append]

@[simp] theorem unbroken_label (text : String) : Unbroken (label text) := by
  intro c member
  rw [label, String.toList_ofList] at member
  obtain ⟨source, -, rfl⟩ := List.mem_map.mp member
  exact labelChar_not_lineEnd source

@[simp] theorem unbroken_optionalLabel (text : Option String) :
    Unbroken (optionalLabel text) :=
  unbroken_label _

@[simp] theorem unbroken_quoted : Unbroken (quoted text) ↔ Unbroken text := by
  have mark : Unbroken "\"" := by decide
  simp [quoted, mark]

theorem IsName.unbroken (isName : IsName text) : Unbroken text :=
  fun _ member => forall_nodeChar (fun c => c ≠ '\n' ∧ c ≠ '\r')
    (by decide +kernel) (isName _ member)

@[simp] theorem unbroken_nodeName (text : String) : Unbroken (nodeName text) :=
  (isName_nodeName text).unbroken

theorem unbroken_intercalate {separator : String} {texts : List String}
    (between : Unbroken separator) (each : ∀ text ∈ texts, Unbroken text) :
    Unbroken (separator.intercalate texts) := by
  induction texts with
  | nil => simp [Unbroken]
  | cons text texts ih =>
      obtain ⟨here, later⟩ := List.forall_mem_cons.mp each
      cases texts with
      | nil => simpa using here
      | cons next texts =>
          rw [String.intercalate_cons_cons, unbroken_append, unbroken_append]
          exact ⟨⟨here, between⟩, ih later⟩

/-- Blanks in front of a line do not count. -/
theorem harmless_blanks_append {blanks : String}
    (blank : ∀ c ∈ blanks.toList, c = ' ') :
    Harmless (blanks ++ text) ↔ Harmless text := by
  rw [Harmless, String.toList_append, List.dropWhile_append_of_pos]
  · rfl
  · simpa using blank

/-- A name in front of a line does no harm. -/
theorem IsName.harmless_append (isName : IsName text)
    (harmless : Harmless other) : Harmless (text ++ other) := by
  rw [Harmless, String.toList_append]
  cases letters : text.toList with
  | nil => exact harmless
  | cons c rest =>
      have named : isNodeChar c = true := isName c (by simp [letters])
      have solid : c ≠ ' ' ∧ c ∉ ['\x60', '~'] :=
        forall_nodeChar (fun c => c ≠ ' ' ∧ c ∉ ['\x60', '~'])
          (by decide +kernel) named
      simpa [solid.1] using solid.2

theorem IsName.harmless (isName : IsName text) : Harmless text := by
  have nothing : Harmless "" := by simp [Harmless]
  simpa using isName.harmless_append nothing

theorem isName_append (one : IsName text) (two : IsName other) :
    IsName (text ++ other) := by
  rw [IsName, String.toList_append]
  exact List.forall_mem_append.mpr ⟨one, two⟩

end Texts

/-- A line that is one line and no fence. -/
structure Tame (line : String) : Prop where
  unbroken : Unbroken line
  harmless : Harmless line

instance : DecidablePred Tame := fun _ =>
  decidable_of_iff (Unbroken _ ∧ Harmless _)
    ⟨fun both => ⟨both.1, both.2⟩, fun tame => ⟨tame.unbroken, tame.harmless⟩⟩

theorem tame_empty : Tame "" := by
  decide

/-! ## Diagrams of components -/

/-- An element whose texts stay in its line. -/
structure Element.Tidy (element : Element) : Prop where
  shape : IsName element.shape
  name : IsName element.name
  labels : ∀ label ∈ element.labels, Unbroken label

theorem Element.Tidy.tame {element : Element} (tidy : element.Tidy) :
    Tame element.line := by
  have inside : Unbroken (", ".intercalate
      (element.name :: element.labels.map quoted)) := by
    refine unbroken_intercalate (by decide) ?_
    rw [List.forall_mem_cons, List.forall_mem_map]
    exact ⟨tidy.name.unbroken, fun label member =>
      unbroken_quoted.mpr (tidy.labels label member)⟩
  have marks : Unbroken "  " ∧ Unbroken "(" ∧ Unbroken ")" := by decide
  constructor
  · simp [Element.line, marks, tidy.shape.unbroken, inside]
  · simp (disch := decide) only [Element.line, String.append_assoc,
      harmless_blanks_append]
    apply tidy.shape.harmless_append
    simp [Harmless]

theorem tidy_elements {shape : String} {labels : Nat}
    {element : Component → Element} {shown : List Component}
    (isName : IsName shape) (tidy : ∀ component, (element component).Tidy) :
    ∀ drawn ∈ elements shape labels element shown, drawn.Tidy := by
  intro drawn member
  rw [elements] at member
  split at member
  · obtain rfl := List.mem_singleton.mp member
    have named : IsName "placeholder" := by decide
    refine ⟨isName, named, ?_⟩
    intro label member
    rcases List.mem_cons.mp member with rfl | blank
    · decide
    · rw [List.eq_of_mem_replicate blank]
      decide
  · obtain ⟨component, -, rfl⟩ := List.mem_map.mp member
    exact tidy component

theorem tidy_systemElement (component : Component) :
    (systemElement component).Tidy := by
  have shaped : IsName (systemShape component) := by
    rw [systemShape]
    cases component.kind <;> decide
  exact ⟨shaped, isName_nodeName _, by simp [systemElement]⟩

theorem tidy_containerElement (component : Component) :
    (containerElement component).Tidy := by
  have shaped : IsName (containerShape component) := by
    rw [containerShape]
    cases component.kind <;> decide
  exact ⟨shaped, isName_nodeName _, by simp [containerElement]⟩

theorem tidy_componentElement (model : Model) (component : Component) :
    (componentElement model component).Tidy := by
  have shaped : IsName "Component" := by decide
  exact ⟨shaped, isName_nodeName _, by simp [componentElement]⟩

theorem tame_connection (relationship : Relationship) :
    Tame (connection relationship).line := by
  have marks : Unbroken "  Rel(" ∧ Unbroken ", " ∧ Unbroken ")" := by decide
  have spelled : (connection relationship).line =
      "  Rel(" ++ nodeName relationship.source ++ ", " ++
        nodeName relationship.target ++ ", " ++
        quoted (label (relationship.description.getD relationship.kind.verb)) ++
        ", " ++ quoted (optionalLabel relationship.technology) ++ ")" := rfl
  rw [spelled]
  exact ⟨by simp [marks], by simp [Harmless]⟩

theorem tame_title {title : String} (unbroken : Unbroken title) :
    Tame ("  title " ++ title) := by
  have word : Unbroken "  title " := by decide
  exact ⟨unbroken_append.mpr ⟨word, unbroken⟩, by simp [Harmless]⟩

/-- The lines of a diagram of components. -/
theorem tame_componentDiagram {diagram : ComponentDiagram}
    (heading : IsName diagram.heading) (title : Unbroken diagram.title)
    (elements : ∀ element ∈ diagram.elements, element.Tidy)
    (connections : ∀ drawn ∈ diagram.connections,
      ∃ relationship, drawn = connection relationship) :
    ∀ line ∈ diagram.lines, Tame line := by
  have arrows : ∀ line ∈ diagram.connections.map Connection.line,
      Tame line := by
    intro line member
    obtain ⟨drawn, inside, rfl⟩ := List.mem_map.mp member
    obtain ⟨relationship, rfl⟩ := connections drawn inside
    exact tame_connection relationship
  intro line member
  rw [ComponentDiagram.lines, List.mem_append, List.mem_append] at member
  rcases member with (front | element) | arrow
  · simp only [List.mem_cons, List.not_mem_nil, or_false] at front
    rcases front with rfl | rfl | rfl
    · exact ⟨heading.unbroken, heading.harmless⟩
    · exact tame_title title
    · exact tame_empty
  · obtain ⟨drawn, inside, rfl⟩ := List.mem_map.mp element
    exact (elements drawn inside).tame
  · split at arrow
    · cases arrow
    · rcases List.mem_cons.mp arrow with rfl | drawn
      · exact tame_empty
      · exact arrows line drawn

theorem mem_connections {model : Model} {shown : List Component}
    {drawn : Connection} (member : drawn ∈ connections model shown) :
    ∃ relationship, drawn = connection relationship := by
  obtain ⟨relationship, -, rfl⟩ := List.mem_map.mp member
  exact ⟨relationship, rfl⟩

/-! ## Graphs -/

/-- What a graph draws in place of a line that stays in it. -/
def GraphLine.Tidy : GraphLine → Prop
  | node declared => IsName declared.name ∧ Unbroken declared.label
  | edge drawn =>
      IsName drawn.source ∧ IsName drawn.target ∧
        ∀ label ∈ drawn.label, Unbroken label
  | gap => True

theorem tame_node {node : Node} (isName : IsName node.name)
    (label : Unbroken node.label) : Tame node.line := by
  have brackets : Unbroken node.shape.brackets.1 ∧
      Unbroken node.shape.brackets.2 := by
    cases node.shape <;> decide
  have indent : Unbroken "  " := by decide
  constructor
  · simp [Node.line, indent, isName.unbroken, brackets, label]
  · simp (disch := decide) only [Node.line, String.append_assoc,
      harmless_blanks_append]
    apply isName.harmless_append
    cases node.shape <;> simp [Harmless, NodeShape.brackets]

theorem tame_edge {edge : Edge} (source : IsName edge.source)
    (target : IsName edge.target)
    (label : ∀ label ∈ edge.label, Unbroken label) : Tame edge.line := by
  have arrow : Unbroken edge.stroke.arrow := by
    cases edge.stroke <;> decide
  have marks : Unbroken "  " ∧ Unbroken " " ∧ Unbroken "|" := by decide
  constructor
  · cases given : edge.label with
    | none =>
        simp [Edge.line, given, marks, arrow, source.unbroken, target.unbroken]
    | some shown =>
        have inside : Unbroken shown := label shown (by simp [given])
        simp [Edge.line, given, marks, arrow, source.unbroken, target.unbroken,
          inside]
  · simp (disch := decide) only [Edge.line, String.append_assoc,
      harmless_blanks_append]
    apply source.harmless_append
    cases edge.stroke <;> cases edge.label <;> simp [Harmless, Stroke.arrow]

theorem GraphLine.Tidy.tame {line : GraphLine} (tidy : line.Tidy) :
    Tame line.line := by
  cases line with
  | node declared => exact tame_node tidy.1 tidy.2
  | edge drawn => exact tame_edge tidy.1 tidy.2.1 tidy.2.2
  | gap => exact tame_empty

theorem isName_dependencyNodes (dependency : Dependency) :
    IsName (ownerNode dependency).name ∧
      IsName (packageNode dependency).name := by
  have front : IsName "dep_" := by decide
  exact ⟨isName_nodeName _, isName_append front (isName_nodeName _)⟩

theorem isName_topicNode (topic : String) : IsName (topicNode topic).name := by
  have front : IsName "topic_" := by decide
  exact isName_append front (isName_nodeName topic)

/-- What the lines of the graph of dependencies are about. -/
theorem cases_of_mem_dependencyGraph {model : Model} {line : GraphLine}
    (member : line ∈ (dependencyGraph model).content) :
    (∃ component, line = .node (componentNode component)) ∨
      (∃ dependency, line ∈ dependencyLines dependency) ∨
      ∃ relationship, line = .edge (relationshipEdge relationship) := by
  rw [dependencyGraph] at member
  split at member
  · cases member
  · rw [List.mem_append, List.mem_append, List.map_map] at member
    rcases member with (component | dependency) | relationship
    · obtain ⟨shown, -, rfl⟩ := List.mem_map.mp component
      exact .inl ⟨shown, rfl⟩
    · obtain ⟨shown, -, drawn⟩ :=
        List.mem_flatMap.mp ((declareOnce_sublist _ _).mem dependency)
      exact .inr (.inl ⟨shown, drawn⟩)
    · obtain ⟨shown, -, rfl⟩ := List.mem_map.mp relationship
      exact .inr (.inr ⟨shown, rfl⟩)

theorem tidy_dependencyGraph (model : Model) :
    ∀ line ∈ (dependencyGraph model).content, line.Tidy := by
  intro line member
  rcases cases_of_mem_dependencyGraph member with
    ⟨component, rfl⟩ | ⟨dependency, drawn⟩ | ⟨relationship, rfl⟩
  · exact ⟨isName_nodeName _, unbroken_label _⟩
  · have named := isName_dependencyNodes dependency
    simp only [dependencyLines, List.mem_cons, List.not_mem_nil, or_false]
      at drawn
    rcases drawn with rfl | rfl | rfl
    · exact ⟨named.1, unbroken_label _⟩
    · exact ⟨named.2, unbroken_label _⟩
    · refine ⟨named.1, named.2, ?_⟩
      intro version given
      obtain ⟨text, -, rfl⟩ := Option.map_eq_some_iff.mp given
      exact unbroken_label text
  · refine ⟨isName_nodeName _, isName_nodeName _, ?_⟩
    rintro verb ⟨⟩
    cases relationship.kind <;> decide

theorem tidy_flowEdge {flow : MessageFlow} {edge : Edge}
    (member : edge ∈ flowEdges flow) : (GraphLine.edge edge).Tidy := by
  have topic := isName_topicNode flow.topic
  rcases List.mem_append.mp member with sent | taken
  · obtain ⟨publisher, -, rfl⟩ := List.mem_map.mp sent
    refine ⟨isName_nodeName _, topic, ?_⟩
    rintro kind ⟨⟩
    exact unbroken_label _
  · obtain ⟨subscriber, -, rfl⟩ := List.mem_map.mp taken
    exact ⟨topic, isName_nodeName _, by simp⟩

theorem tidy_messageGraph (model : Model) :
    ∀ line ∈ (messageGraph model).content, line.Tidy := by
  intro line member
  rw [messageGraph] at member
  split at member
  · cases member
  · rw [List.mem_append, List.mem_append, List.mem_singleton] at member
    rcases member with (declared | rfl) | drawn
    · obtain ⟨flow, -, shown⟩ :=
        List.mem_flatMap.mp ((declareOnce_sublist _ _).mem declared)
      obtain ⟨node, among, rfl⟩ := List.mem_map.mp shown
      rcases List.mem_append.mp among with participant | topic
      · obtain ⟨id, -, rfl⟩ := List.mem_map.mp participant
        exact ⟨isName_nodeName _, unbroken_label _⟩
      · obtain rfl := List.mem_singleton.mp topic
        exact ⟨isName_topicNode _, unbroken_label _⟩
    · trivial
    · obtain ⟨edge, among, rfl⟩ := List.mem_map.mp drawn
      obtain ⟨flow, -, inside⟩ := List.mem_flatMap.mp among
      exact tidy_flowEdge inside

/-- The lines of a graph. -/
theorem tame_graph {graph : Graph} (direction : Unbroken graph.direction)
    (placeholder : Unbroken graph.placeholder)
    (tidy : ∀ line ∈ graph.content, line.Tidy) :
    ∀ line ∈ graph.lines, Tame line := by
  have words : Unbroken "graph " ∧ Unbroken "  A[" ∧ Unbroken "]" := by decide
  intro line member
  rw [Graph.lines] at member
  rcases List.mem_cons.mp member with rfl | inside
  · exact ⟨by simp [words, direction], by simp [Harmless]⟩
  · split at inside
    · obtain rfl := List.mem_singleton.mp inside
      exact ⟨by simp [words, placeholder], by simp [Harmless]⟩
    · obtain ⟨drawn, among, rfl⟩ := List.mem_map.mp inside
      exact (tidy drawn among).tame

/-! ## Diagrams of entities -/

/-- An attribute whose texts stay in its line. -/
structure Attribute.Tidy (column : Attribute) : Prop where
  dataType : IsName column.dataType
  name : IsName column.name
  comment : ∀ comment ∈ column.comment, Unbroken comment

theorem Attribute.Tidy.tame {column : Attribute} (tidy : column.Tidy) :
    Tame column.line := by
  have marks : Unbroken "    " ∧ Unbroken " " ∧ Unbroken "" := by decide
  have roles : Unbroken column.roles := by
    rw [Attribute.roles]
    cases column.isKey <;> cases column.isReference <;> decide
  have front := tidy.dataType.unbroken
  have name := tidy.name.unbroken
  constructor
  · cases given : column.comment with
    | none => simp [Attribute.line, given, marks, front, name, roles]
    | some comment =>
        have inside := tidy.comment comment (by simp [given])
        simp [Attribute.line, given, marks, front, name, roles, inside]
  · have behind (comment : String) (harmless : Harmless comment) :
        Harmless (column.roles ++ comment) := by
      rw [Attribute.roles]
      cases column.isKey <;> cases column.isReference
      case false.false => simpa using harmless
      all_goals simp [Harmless]
    simp (disch := decide) only [Attribute.line, String.append_assoc,
      harmless_blanks_append]
    apply tidy.dataType.harmless_append
    simp (disch := decide) only [harmless_blanks_append]
    apply tidy.name.harmless_append
    apply behind
    cases column.comment <;> simp [Harmless, quoted]

theorem mem_of_mem_trimWhere {p : Char → Bool} {text : List Char} {c : Char}
    (member : c ∈ trimWhere p text) : c ∈ text := by
  rw [trimWhere, List.mem_reverse] at member
  have inner := (List.dropWhile_sublist p).mem member
  rw [List.mem_reverse] at inner
  exact (List.dropWhile_sublist p).mem inner

theorem isName_attributeType (dataType : String) :
    IsName (attributeType dataType) := by
  have fallback : IsName "string" := by decide
  rw [attributeType]
  split
  · exact fallback
  · intro c member
    rw [String.toList_ofList] at member
    exact isName_nodeName _ c (mem_of_mem_trimWhere member)

theorem tidy_fieldAttribute (entity : DataEntity) (field : Field) :
    (fieldAttribute entity field).Tidy := by
  have typed := isName_attributeType field.dataType
  rw [fieldAttribute]
  -- The word is kept from being computed when the parts are compared.
  generalize attributeType field.dataType = word at typed ⊢
  refine ⟨typed, isName_nodeName field.name, ?_⟩
  intro comment given
  obtain ⟨text, -, rfl⟩ := Option.map_eq_some_iff.mp given
  exact unbroken_label text

theorem tidy_entityDiagram (model : Model) :
    ∀ block ∈ (entityDiagram model).blocks,
      ∀ column ∈ block.attributes, column.Tidy := by
  have names : IsName "string" ∧ IsName "placeholder" ∧ IsName "note" := by
    decide
  have comments : Unbroken "No fields defined" ∧
      Unbroken "No data entities found" := by decide
  intro block shown column member
  rw [entityDiagram] at shown
  split at shown
  · obtain rfl := List.mem_singleton.mp shown
    obtain rfl := List.mem_singleton.mp member
    refine ⟨names.1, names.2.2, ?_⟩
    intro comment given
    exact Option.some.inj given ▸ comments.2
  · obtain ⟨entity, -, rfl⟩ := List.mem_map.mp shown
    rw [entityBlock] at member
    split at member
    · obtain rfl := List.mem_singleton.mp member
      refine ⟨names.1, names.2.1, ?_⟩
      intro comment given
      exact Option.some.inj given ▸ comments.1
    · obtain ⟨field, -, rfl⟩ := List.mem_map.mp member
      exact tidy_fieldAttribute entity field

theorem EntityBlock.tame {block : EntityBlock} (isName : IsName block.name)
    (tidy : ∀ column ∈ block.attributes, column.Tidy) :
    ∀ line ∈ block.lines, Tame line := by
  have marks : Unbroken "  " ∧ Unbroken " \x7b" := by decide
  have ending : Tame "  \x7d" := by decide
  intro line member
  simp only [EntityBlock.lines, List.cons_append, List.nil_append,
    List.mem_cons, List.mem_append, List.not_mem_nil, or_false] at member
  rcases member with rfl | inside | rfl
  · constructor
    · simp [marks, isName.unbroken]
    · simp (disch := decide) only [String.append_assoc, harmless_blanks_append]
      apply isName.harmless_append
      simp [Harmless]
  · obtain ⟨column, among, rfl⟩ := List.mem_map.mp inside
    exact (tidy column among).tame
  · exact ending

theorem tame_relation {relation : Relation} (one : IsName relation.one)
    (many : IsName relation.many) (label : Unbroken relation.label) :
    Tame relation.line := by
  have marks : Unbroken "  " ∧ Unbroken " ||--o\x7b " ∧ Unbroken " : " := by
    decide
  constructor
  · simp [Relation.line, marks, one.unbroken, many.unbroken, label]
  · simp (disch := decide) only [Relation.line, String.append_assoc,
      harmless_blanks_append]
    apply one.harmless_append
    simp [Harmless]

theorem label_of_mem_relations {model : Model} {relation : Relation}
    (member : relation ∈ (entityDiagram model).relations) :
    Unbroken relation.label := by
  obtain ⟨entity, -, drawn⟩ :=
    List.mem_flatMap.mp (mem_firstByKey_id.mp member)
  obtain ⟨field, -, points⟩ := List.mem_filterMap.mp drawn
  obtain ⟨target, -, rfl⟩ := Option.map_eq_some_iff.mp points
  exact unbroken_label field.name

/-- The lines of a diagram of entities. -/
theorem tame_entityDiagram (model : Model) :
    ∀ line ∈ (entityDiagram model).lines, Tame line := by
  intro line member
  rw [EntityDiagram.lines, List.cons_append, List.mem_cons, List.mem_append]
    at member
  have heading : Tame "erDiagram" := by decide
  rcases member with rfl | inside | relation
  · exact heading
  · obtain ⟨block, shown, among⟩ := List.mem_flatMap.mp inside
    exact EntityBlock.tame (isName_of_mem_blocks model shown)
      (tidy_entityDiagram model block shown) line among
  · obtain ⟨drawn, among, rfl⟩ := List.mem_map.mp relation
    obtain ⟨target, -, entity, -, one, many⟩ :=
      exists_entities_of_mem_relations model among
    refine tame_relation ?_ ?_ (label_of_mem_relations among)
    · rw [one]
      exact isName_blockName _
    · rw [many]
      exact isName_blockName _

/-! ## Sequence diagrams -/

/-- A call that stays in its lines but for what is requested. -/
structure Call.Tidy (call : Call) : Prop where
  participant : IsName call.participant
  note : ∀ note ∈ call.note, Unbroken note

theorem Call.Tidy.harmless {call : Call} (tidy : call.Tidy) :
    ∀ line ∈ call.lines, Harmless line := by
  intro line member
  simp only [Call.lines, List.cons_append, List.nil_append, List.mem_cons,
    List.mem_append, List.mem_map, List.not_mem_nil, or_false] at member
  rcases member with rfl | ⟨note, -, rfl⟩ | rfl
  · simp [Harmless]
  · simp [Harmless]
  · simp (disch := decide) only [String.append_assoc, harmless_blanks_append]
    apply tidy.participant.harmless_append
    simp [Harmless]

theorem Call.Tidy.unbroken_iff {call : Call} (tidy : call.Tidy) :
    (∀ line ∈ call.lines, Unbroken line) ↔ Unbroken call.request := by
  have marks : Unbroken "  Client->>" ∧ Unbroken ": " ∧
      Unbroken "  Note over " ∧ Unbroken "  " ∧
      Unbroken "-->>Client: Response" := by decide
  have name := tidy.participant.unbroken
  cases noted : call.note with
  | none => simp [Call.lines, noted, marks, name]
  | some note =>
      have inside := tidy.note note (by simp [noted])
      simp [Call.lines, noted, marks, name, inside]

theorem tidy_endpointCall (endpoint : Endpoint) :
    (endpointCall endpoint).Tidy := by
  refine ⟨isName_nodeName _, ?_⟩
  intro note given
  obtain ⟨text, -, rfl⟩ := Option.map_eq_some_iff.mp given
  exact unbroken_label text

theorem unbroken_request_iff (endpoint : Endpoint) :
    Unbroken (endpointCall endpoint).request ↔
      ∀ method, endpoint.method = some method → Unbroken method := by
  have blank : Unbroken " " := by decide
  have fallback : Unbroken "CALL " := by decide
  cases given : endpoint.method <;>
    simp [endpointCall, given, blank, fallback]

/-- The line of the participant that owns an endpoint. -/
theorem tame_participant {model : Model} {participant : Participant}
    (member : participant ∈ participants model) : Tame participant.line := by
  have words : Unbroken "  participant " ∧ Unbroken " as " := by decide
  obtain ⟨owner, -, rfl⟩ := List.mem_map.mp member
  change Tame ("  participant " ++ nodeName owner ++ " as " ++
    label (model.componentName owner))
  exact ⟨by simp [words], by simp [Harmless]⟩

theorem mem_lines_sequenceDiagram {model : Model} {line : String}
    (member : line ∈ (sequenceDiagram model).lines) :
    Tame line ∨ ∃ endpoint ∈ model.endpoints,
      line ∈ (endpointCall endpoint).lines := by
  have front : ∀ line ∈ ["sequenceDiagram", "  participant Client"],
      Tame line := by decide
  have missing : ∀ line ∈ ["  participant System",
      "  Note over Client,System: No API endpoints found"],
      Tame line := by decide
  rw [SequenceDiagram.lines, List.mem_append] at member
  rcases member with opening | inside
  · exact .inl (front line opening)
  · split at inside
    · exact .inl (missing line inside)
    · rw [List.mem_append, List.mem_append, List.mem_singleton] at inside
      rcases inside with (participant | rfl) | call
      · obtain ⟨shown, among, rfl⟩ := List.mem_map.mp participant
        exact .inl (tame_participant among)
      · exact .inl tame_empty
      · obtain ⟨drawn, among, within⟩ := List.mem_flatMap.mp call
        obtain ⟨endpoint, shown, rfl⟩ := List.mem_map.mp among
        exact .inr ⟨endpoint, shown, within⟩

theorem mem_lines_of_endpoint {model : Model} {endpoint : Endpoint}
    (shown : endpoint ∈ model.endpoints) {line : String}
    (member : line ∈ (endpointCall endpoint).lines) :
    line ∈ (sequenceDiagram model).lines := by
  have called : endpointCall endpoint ∈ (sequenceDiagram model).calls :=
    List.mem_map_of_mem shown
  rw [SequenceDiagram.lines, if_neg]
  · exact List.mem_append_right _ (List.mem_append_right _
      (List.mem_flatMap.mpr ⟨_, called, member⟩))
  · simpa using List.ne_nil_of_mem called

theorem harmless_sequenceDiagram (model : Model) :
    ∀ line ∈ (sequenceDiagram model).lines, Harmless line := by
  intro line member
  rcases mem_lines_sequenceDiagram member with tame | ⟨endpoint, -, inside⟩
  · exact tame.harmless
  · exact (tidy_endpointCall endpoint).harmless line inside

/-- The methods of the endpoints of a model are texts of one line. -/
def MethodsUnbroken (model : Model) : Prop :=
  ∀ endpoint ∈ model.endpoints, ∀ method,
    endpoint.method = some method → Unbroken method

/-- The lines of a sequence diagram stay lines exactly if the methods of
endpoints do. -/
theorem unbroken_sequenceDiagram_iff (model : Model) :
    (∀ line ∈ (sequenceDiagram model).lines, Unbroken line) ↔
      MethodsUnbroken model := by
  have each (endpoint : Endpoint) :
      (∀ line ∈ (endpointCall endpoint).lines, Unbroken line) ↔
        ∀ method, endpoint.method = some method → Unbroken method :=
    (tidy_endpointCall endpoint).unbroken_iff.trans
      (unbroken_request_iff endpoint)
  constructor
  · intro unbroken endpoint shown
    exact (each endpoint).mp fun line member =>
      unbroken line (mem_lines_of_endpoint shown member)
  · intro unbroken line member
    rcases mem_lines_sequenceDiagram member with
      tame | ⟨endpoint, shown, inside⟩
    · exact tame.unbroken
    · exact (each endpoint).mpr (unbroken endpoint shown) line inside

end ArchSurvey.Diagram
