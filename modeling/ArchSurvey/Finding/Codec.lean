import ArchSurvey.Finding.Basic
import ArchSurvey.Json.Decode

/-!
# Findings in JSON

Each finding is a record; a field that may be absent may be left out or null when read, and is
always written.
-/

namespace ArchSurvey

open Json

/-- The kind of component with a name. -/
def ComponentKind.ofName? (name : String) : Option ComponentKind :=
  all.find? fun kind => kind.name == name

/-- The style of interface with a name. -/
def ApiKind.ofName? (name : String) : Option ApiKind :=
  all.find? fun kind => kind.name == name

/-- The kind of relationship with a name. -/
def RelationshipKind.ofName? (name : String) : Option RelationshipKind :=
  all.find? fun kind => kind.name == name

namespace Component

/-- Writes a component. -/
def toJson (component : Component) : Json :=
  obj [("id", str component.id), ("name", str component.name),
    ("type", str component.kind.name), ("description", ofString? component.description),
    ("technology", ofString? component.technology),
    ("repository", ofString? component.repository),
    ("metadata", obj (component.metadata.map fun (key, value) => (key, str value)))]

/-- Reads a component. -/
def ofJson? : Decoder Component := fun value => do
  let fields ← record
    ["id", "name", "type", "description", "technology", "repository", "metadata"] value
  some
    { id := ← fields.required "id" string
      name := ← fields.required "name" string
      kind := ← fields.required "type" (variant ComponentKind.ofName?)
      description := ← fields.optional "description" string
      technology := ← fields.optional "technology" string
      repository := ← fields.optional "repository" string
      metadata := ← fields.withDefault "metadata" [] (map string) }

end Component

namespace Dependency

/-- Writes a dependency. -/
def toJson (dependency : Dependency) : Json :=
  obj [("source_component_id", str dependency.source), ("group_id", str dependency.group),
    ("artifact_id", str dependency.artifact), ("version", ofString? dependency.version),
    ("scope", str dependency.scope), ("direct", bool dependency.direct)]

/-- Reads a dependency. -/
def ofJson? : Decoder Dependency := fun value => do
  let fields ← record
    ["source_component_id", "group_id", "artifact_id", "version", "scope", "direct"] value
  some
    { source := ← fields.required "source_component_id" string
      group := ← fields.required "group_id" string
      artifact := ← fields.required "artifact_id" string
      version := ← fields.optional "version" string
      scope := ← fields.required "scope" string
      direct := ← fields.required "direct" truth }

end Dependency

namespace Endpoint

/-- Writes an endpoint. -/
def toJson (endpoint : Endpoint) : Json :=
  obj [("component_id", str endpoint.component), ("type", str endpoint.kind.name),
    ("path", str endpoint.path), ("method", ofString? endpoint.method),
    ("description", ofString? endpoint.description),
    ("request_schema", ofString? endpoint.requestSchema),
    ("response_schema", ofString? endpoint.responseSchema),
    ("authentication", ofString? endpoint.authentication)]

/-- Reads an endpoint. -/
def ofJson? : Decoder Endpoint := fun value => do
  let fields ← record
    ["component_id", "type", "path", "method", "description", "request_schema",
      "response_schema", "authentication"] value
  some
    { component := ← fields.required "component_id" string
      kind := ← fields.required "type" (variant ApiKind.ofName?)
      path := ← fields.required "path" string
      method := ← fields.optional "method" string
      description := ← fields.optional "description" string
      requestSchema := ← fields.optional "request_schema" string
      responseSchema := ← fields.optional "response_schema" string
      authentication := ← fields.optional "authentication" string }

end Endpoint

namespace MessageFlow

/-- Writes a message flow. -/
def toJson (flow : MessageFlow) : Json :=
  obj [("publisher_component_id", ofString? flow.publisher),
    ("subscriber_component_id", ofString? flow.subscriber), ("topic", str flow.topic),
    ("message_type", ofString? flow.messageType), ("schema", ofString? flow.schema),
    ("broker", ofString? flow.broker)]

/-- Reads a message flow. -/
def ofJson? : Decoder MessageFlow := fun value => do
  let fields ← record
    ["publisher_component_id", "subscriber_component_id", "topic", "message_type", "schema",
      "broker"] value
  some
    { publisher := ← fields.optional "publisher_component_id" string
      subscriber := ← fields.optional "subscriber_component_id" string
      topic := ← fields.required "topic" string
      messageType := ← fields.optional "message_type" string
      schema := ← fields.optional "schema" string
      broker := ← fields.optional "broker" string }

end MessageFlow

namespace Field

/-- Writes a field. -/
def toJson (field : Field) : Json :=
  obj [("name", str field.name), ("data_type", str field.dataType),
    ("nullable", bool field.nullable), ("description", ofString? field.description),
    ("references", ofString? field.references)]

/-- Reads a field. -/
def ofJson? : Decoder Field := fun value => do
  let fields ← record ["name", "data_type", "nullable", "description", "references"] value
  some
    { name := ← fields.required "name" string
      dataType := ← fields.required "data_type" string
      nullable := ← fields.required "nullable" truth
      description := ← fields.optional "description" string
      references := ← fields.optional "references" string }

end Field

namespace DataEntity

/-- Writes an entity. -/
def toJson (entity : DataEntity) : Json :=
  obj [("component_id", str entity.component), ("name", str entity.name),
    ("type", ofString? entity.kind), ("fields", arr (entity.fields.map Field.toJson)),
    ("primary_key", ofString? entity.primaryKey),
    ("description", ofString? entity.description)]

/-- Reads an entity. -/
def ofJson? : Decoder DataEntity := fun value => do
  let fields ← record ["component_id", "name", "type", "fields", "primary_key", "description"] value
  some
    { component := ← fields.required "component_id" string
      name := ← fields.required "name" string
      kind := ← fields.optional "type" string
      fields := ← fields.listOf "fields" Field.ofJson?
      primaryKey := ← fields.optional "primary_key" string
      description := ← fields.optional "description" string }

end DataEntity

namespace Relationship

/-- Writes a relationship. -/
def toJson (relationship : Relationship) : Json :=
  obj [("source_id", str relationship.source), ("target_id", str relationship.target),
    ("type", str relationship.kind.name), ("description", ofString? relationship.description),
    ("technology", ofString? relationship.technology)]

/-- Reads a relationship. -/
def ofJson? : Decoder Relationship := fun value => do
  let fields ← record ["source_id", "target_id", "type", "description", "technology"] value
  some
    { source := ← fields.required "source_id" string
      target := ← fields.required "target_id" string
      kind := ← fields.required "type" (variant RelationshipKind.ofName?)
      description := ← fields.optional "description" string
      technology := ← fields.optional "technology" string }

end Relationship

namespace Findings

/-- The names under which the categories are written. -/
def categories : List String :=
  ["components", "dependencies", "api_endpoints", "message_flows", "data_entities",
    "relationships"]

/-- The members that findings add to a record. -/
def toMembers (findings : Findings) : List (String × Json) :=
  [("components", arr (findings.components.map Component.toJson)),
    ("dependencies", arr (findings.dependencies.map Dependency.toJson)),
    ("api_endpoints", arr (findings.endpoints.map Endpoint.toJson)),
    ("message_flows", arr (findings.flows.map MessageFlow.toJson)),
    ("data_entities", arr (findings.entities.map DataEntity.toJson)),
    ("relationships", arr (findings.relationships.map Relationship.toJson))]

/-- Writes findings. -/
def toJson (findings : Findings) : Json :=
  obj findings.toMembers

/-- Reads the findings among the fields of a record. -/
def ofFields? (fields : Fields) : Option Findings := do
  some
    { components := ← fields.listOf "components" Component.ofJson?
      dependencies := ← fields.listOf "dependencies" Dependency.ofJson?
      endpoints := ← fields.listOf "api_endpoints" Endpoint.ofJson?
      flows := ← fields.listOf "message_flows" MessageFlow.ofJson?
      entities := ← fields.listOf "data_entities" DataEntity.ofJson?
      relationships := ← fields.listOf "relationships" Relationship.ofJson? }

/-- Reads findings. -/
def ofJson? : Decoder Findings := fun value => do
  ofFields? (← record categories value)

end Findings

end ArchSurvey
