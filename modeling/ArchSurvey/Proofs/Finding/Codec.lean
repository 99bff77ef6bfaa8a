import ArchSurvey.Finding.Codec
import ArchSurvey.Proofs.Json.Omission

/-!
# Written findings

Findings are read back as they were written, and are not read when a field that
has to be given is left out.
-/

namespace ArchSurvey

open Json

theorem ComponentKind.ofName?_name (kind : ComponentKind) :
    ofName? kind.name = some kind := by
  cases kind <;> rfl

theorem ApiKind.ofName?_name (kind : ApiKind) :
    ofName? kind.name = some kind := by
  cases kind <;> rfl

theorem RelationshipKind.ofName?_name (kind : RelationshipKind) :
    ofName? kind.name = some kind := by
  cases kind <;> rfl

namespace Component

/-- The facts stand in the order of their names, each once. -/
def Storable (component : Component) : Prop :=
  Keyed.Sorted component.metadata

theorem map_metadata {component : Component} (storable : component.Storable) :
    map string (obj (component.metadata.map
      fun (key, value) => (key, str value))) = some component.metadata :=
  map_encode (fun _ _ => rfl) storable

theorem ofJson?_toJson {component : Component} (storable : component.Storable) :
    ofJson? component.toJson = some component := by
  rw [ofJson?, toJson, record_obj _ (by simp)]
  simp [ComponentKind.ofName?_name, map_metadata storable]

theorem printable_metadata (component : Component) :
    Printable (obj (component.metadata.map
      fun (key, value) => (key, str value))) :=
  .obj_map fun entry _ => .str entry.2

theorem printable (component : Component) : Printable component.toJson := by
  rw [toJson, Printable.obj_iff]
  simpa [-Printable.obj_iff] using component.printable_metadata

/-- The fields of a component that have to be given. -/
def shape : Shape :=
  .record ["id", "name", "type"] fun _ => .plain

theorem demands : Demands ofJson? shape := by
  refine .record (fun _ _ => rfl) ?_ fun _ _ _ _ => nofun
  intro fields name member absent
  simp only [List.mem_cons, List.not_mem_nil, or_false] at member
  rcases member with rfl | rfl | rfl <;> simp [Fields.required, absent]

end Component

namespace Dependency

theorem ofJson?_toJson (dependency : Dependency) :
    ofJson? dependency.toJson = some dependency := by
  rw [ofJson?, toJson, record_obj _ (by simp)]
  simp

theorem printable (dependency : Dependency) :
    Printable dependency.toJson := by
  simp [toJson]

/-- The fields of a dependency that have to be given. -/
def shape : Shape :=
  .record ["source_component_id", "group_id", "artifact_id", "scope", "direct"]
    fun _ => .plain

theorem demands : Demands ofJson? shape := by
  refine .record (fun _ _ => rfl) ?_ fun _ _ _ _ => nofun
  intro fields name member absent
  simp only [List.mem_cons, List.not_mem_nil, or_false] at member
  rcases member with rfl | rfl | rfl | rfl | rfl <;>
    simp [Fields.required, absent]

end Dependency

namespace Endpoint

theorem ofJson?_toJson (endpoint : Endpoint) :
    ofJson? endpoint.toJson = some endpoint := by
  rw [ofJson?, toJson, record_obj _ (by simp)]
  simp [ApiKind.ofName?_name]

theorem printable (endpoint : Endpoint) : Printable endpoint.toJson := by
  simp [toJson]

/-- The fields of an endpoint that have to be given. -/
def shape : Shape :=
  .record ["component_id", "type", "path"] fun _ => .plain

theorem demands : Demands ofJson? shape := by
  refine .record (fun _ _ => rfl) ?_ fun _ _ _ _ => nofun
  intro fields name member absent
  simp only [List.mem_cons, List.not_mem_nil, or_false] at member
  rcases member with rfl | rfl | rfl <;> simp [Fields.required, absent]

end Endpoint

namespace MessageFlow

theorem ofJson?_toJson (flow : MessageFlow) :
    ofJson? flow.toJson = some flow := by
  rw [ofJson?, toJson, record_obj _ (by simp)]
  simp

theorem printable (flow : MessageFlow) : Printable flow.toJson := by
  simp [toJson]

/-- The fields of a message flow that have to be given. -/
def shape : Shape :=
  .record ["topic"] fun _ => .plain

theorem demands : Demands ofJson? shape := by
  refine .record (fun _ _ => rfl) ?_ fun _ _ _ _ => nofun
  intro fields name member absent
  obtain rfl := List.mem_singleton.mp member
  simp [Fields.required, absent]

end MessageFlow

namespace Field

theorem ofJson?_toJson (field : Field) : ofJson? field.toJson = some field := by
  rw [ofJson?, toJson, record_obj _ (by simp)]
  simp

theorem printable (field : Field) : Printable field.toJson := by
  simp [toJson]

/-- The fields of an entity's field that have to be given. -/
def shape : Shape :=
  .record ["name", "data_type", "nullable"] fun _ => .plain

theorem demands : Demands ofJson? shape := by
  refine .record (fun _ _ => rfl) ?_ fun _ _ _ _ => nofun
  intro fields name member absent
  simp only [List.mem_cons, List.not_mem_nil, or_false] at member
  rcases member with rfl | rfl | rfl <;> simp [Fields.required, absent]

end Field

namespace DataEntity

theorem ofJson?_toJson (entity : DataEntity) :
    ofJson? entity.toJson = some entity := by
  have fields : list Field.ofJson? (arr (entity.fields.map Field.toJson)) =
      some entity.fields :=
    list_encode fun field _ => field.ofJson?_toJson
  rw [ofJson?, toJson, record_obj _ (by simp)]
  simp [fields]

theorem printable (entity : DataEntity) : Printable entity.toJson := by
  simp [toJson, Field.printable]

/-- The fields of an entity that have to be given. -/
def shape : Shape :=
  .record ["component_id", "name"] fun name =>
    if name = "fields" then .list Field.shape else .plain

theorem demands : Demands ofJson? shape := by
  refine .record ?_ ?_ ?_
  · intro name unknown
    rw [if_neg]
    rintro rfl
    simp at unknown
  · intro fields name member absent
    simp only [List.mem_cons, List.not_mem_nil, or_false] at member
    rcases member with rfl | rfl <;> simp [Fields.required, absent]
  · intro fields name value value' omits held
    split at omits
    · next same =>
        subst same
        have refused := Field.demands.list _ _ omits
        simp [Fields.listOf, Fields.withDefault, held, refused]
    · cases omits

end DataEntity

namespace Relationship

theorem ofJson?_toJson (relationship : Relationship) :
    ofJson? relationship.toJson = some relationship := by
  rw [ofJson?, toJson, record_obj _ (by simp)]
  simp [RelationshipKind.ofName?_name]

theorem printable (relationship : Relationship) :
    Printable relationship.toJson := by
  simp [toJson]

/-- The fields of a relationship that have to be given. -/
def shape : Shape :=
  .record ["source_id", "target_id", "type"] fun _ => .plain

theorem demands : Demands ofJson? shape := by
  refine .record (fun _ _ => rfl) ?_ fun _ _ _ _ => nofun
  intro fields name member absent
  simp only [List.mem_cons, List.not_mem_nil, or_false] at member
  rcases member with rfl | rfl | rfl <;> simp [Fields.required, absent]

end Relationship

namespace Findings

/-- Each component has its facts in order. -/
def Storable (findings : Findings) : Prop :=
  ∀ component ∈ findings.components, component.Storable

/-- Findings are read among the fields of a record that give them. -/
theorem ofFields?_of_lookup {findings : Findings} (storable : findings.Storable)
    {members : List (String × Json)}
    (given : ∀ member ∈ findings.toMembers,
      members.lookup member.1 = some member.2) :
    ofFields? ⟨members⟩ = some findings := by
  have components := list_encode fun component member =>
    Component.ofJson?_toJson (storable component member)
  have dependencies : list Dependency.ofJson?
      (arr (findings.dependencies.map Dependency.toJson)) =
        some findings.dependencies :=
    list_encode fun item _ => item.ofJson?_toJson
  have endpoints : list Endpoint.ofJson?
      (arr (findings.endpoints.map Endpoint.toJson)) =
        some findings.endpoints :=
    list_encode fun item _ => item.ofJson?_toJson
  have flows : list MessageFlow.ofJson?
      (arr (findings.flows.map MessageFlow.toJson)) = some findings.flows :=
    list_encode fun item _ => item.ofJson?_toJson
  have entities : list DataEntity.ofJson?
      (arr (findings.entities.map DataEntity.toJson)) =
        some findings.entities :=
    list_encode fun item _ => item.ofJson?_toJson
  have relationships : list Relationship.ofJson?
      (arr (findings.relationships.map Relationship.toJson)) =
        some findings.relationships :=
    list_encode fun item _ => item.ofJson?_toJson
  simp only [toMembers, List.forall_mem_cons] at given
  obtain ⟨first, second, third, fourth, fifth, sixth, -⟩ := given
  simp [ofFields?, first, second, third, fourth, fifth, sixth, components,
    dependencies, endpoints, flows, entities, relationships]

theorem printable_of_mem {findings : Findings} {member : String × Json}
    (inside : member ∈ findings.toMembers) : Printable member.2 := by
  simp only [toMembers, List.mem_cons, List.not_mem_nil, or_false] at inside
  rcases inside with rfl | rfl | rfl | rfl | rfl | rfl <;>
    simp [Component.printable, Dependency.printable, Endpoint.printable,
      MessageFlow.printable, DataEntity.printable, Relationship.printable]

/-- What is demanded of the findings under a name. -/
def shapeOf (name : String) : Shape :=
  match name with
  | "components" => .list Component.shape
  | "dependencies" => .list Dependency.shape
  | "api_endpoints" => .list Endpoint.shape
  | "message_flows" => .list MessageFlow.shape
  | "data_entities" => .list DataEntity.shape
  | "relationships" => .list Relationship.shape
  | _ => .plain

theorem shapeOf_of_not_mem {name : String} (unknown : name ∉ categories) :
    shapeOf name = .plain := by
  unfold shapeOf
  split <;> first | rfl | simp [categories] at unknown

theorem ofFields?_of_omits {fields : Fields} {name : String}
    {value value' : Json} (omits : Omits (shapeOf name) value value')
    (held : fields.value? name = some value') : ofFields? fields = none := by
  unfold shapeOf at omits
  split at omits
  · have refused := Component.demands.list _ _ omits
    simp [ofFields?, Fields.listOf, Fields.withDefault, held, refused]
  · have refused := Dependency.demands.list _ _ omits
    simp [ofFields?, Fields.listOf, Fields.withDefault, held, refused]
  · have refused := Endpoint.demands.list _ _ omits
    simp [ofFields?, Fields.listOf, Fields.withDefault, held, refused]
  · have refused := MessageFlow.demands.list _ _ omits
    simp [ofFields?, Fields.listOf, Fields.withDefault, held, refused]
  · have refused := DataEntity.demands.list _ _ omits
    simp [ofFields?, Fields.listOf, Fields.withDefault, held, refused]
  · have refused := Relationship.demands.list _ _ omits
    simp [ofFields?, Fields.listOf, Fields.withDefault, held, refused]
  · cases omits

end Findings

end ArchSurvey
