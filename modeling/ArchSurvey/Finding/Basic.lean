import ArchSurvey.Text.LetterCase

/-!
# Findings

What a survey finds in a project: components and what they depend on, offer, exchange and store.
-/

namespace ArchSurvey

/-- The kinds of component, in the order in which catalogs list them. -/
inductive ComponentKind where
  | service
  | module
  | library
  | external
  | database
  | messageBroker
  | apiGateway
  | cache
  | unknown
  deriving DecidableEq, Repr

/-- Every kind of component, in order. -/
def ComponentKind.all : List ComponentKind :=
  [service, module, library, external, database, messageBroker, apiGateway, cache, unknown]

/-- The name of a kind of component. -/
def ComponentKind.name : ComponentKind → String
  | service => "service"
  | module => "module"
  | library => "library"
  | external => "external"
  | database => "database"
  | messageBroker => "message_broker"
  | apiGateway => "api_gateway"
  | cache => "cache"
  | unknown => "unknown"

/-- A deployable or logical unit of a system. -/
structure Component where
  id : String
  name : String
  kind : ComponentKind
  description : Option String := none
  technology : Option String := none
  repository : Option String := none
  /-- Further facts by name, in the order of the names. -/
  metadata : List (String × String) := []
  deriving DecidableEq, Repr

/-- A package that a component declares to need. -/
structure Dependency where
  source : String
  group : String
  artifact : String
  version : Option String := none
  scope : String := "compile"
  direct : Bool := true
  deriving DecidableEq, Repr

/-- The dependency with a version, an empty one counting as none. -/
def Dependency.withVersion (dependency : Dependency) (version : Option String) : Dependency :=
  { dependency with version := version.filter (· != "") }

/-- Group, artifact and version, parted by colons; a group that says no more than the artifact is
left out. -/
def Dependency.coordinate (dependency : Dependency) : String :=
  let base :=
    if dependency.group == "" || dependency.group == dependency.artifact then dependency.artifact
    else dependency.group ++ ":" ++ dependency.artifact
  match dependency.version with
  | none => base
  | some version => base ++ ":" ++ version

/-- The styles of interface. -/
inductive ApiKind where
  | rest
  | graphqlQuery
  | graphqlMutation
  | graphqlSubscription
  | grpc
  | websocket
  | soap
  deriving DecidableEq, Repr

/-- Every style of interface. -/
def ApiKind.all : List ApiKind :=
  [rest, graphqlQuery, graphqlMutation, graphqlSubscription, grpc, websocket, soap]

/-- The name of a style of interface. -/
def ApiKind.name : ApiKind → String
  | rest => "rest"
  | graphqlQuery => "graphql_query"
  | graphqlMutation => "graphql_mutation"
  | graphqlSubscription => "graphql_subscription"
  | grpc => "grpc"
  | websocket => "websocket"
  | soap => "soap"

/-- The name of a style of interface as readers know it. -/
def ApiKind.title : ApiKind → String
  | rest => "REST"
  | graphqlQuery => "GraphQL query"
  | graphqlMutation => "GraphQL mutation"
  | graphqlSubscription => "GraphQL subscription"
  | grpc => "gRPC"
  | websocket => "WebSocket"
  | soap => "SOAP"

/-- An entry point that a component offers. -/
structure Endpoint where
  component : String
  kind : ApiKind
  path : String
  method : Option String := none
  description : Option String := none
  requestSchema : Option String := none
  responseSchema : Option String := none
  authentication : Option String := none
  deriving DecidableEq, Repr

/-- An endpoint of a web interface, its method in upper case. -/
def Endpoint.web (component method path : String) : Endpoint :=
  { component, kind := .rest, path, method := some (Text.upperString method) }

/-- Messages that a component sends to or takes from a topic. -/
structure MessageFlow where
  publisher : Option String := none
  subscriber : Option String := none
  topic : String
  messageType : Option String := none
  schema : Option String := none
  broker : Option String := none
  deriving DecidableEq, Repr

/-- One field of an entity. -/
structure Field where
  name : String
  dataType : String
  nullable : Bool
  description : Option String := none
  /-- The name of the entity that the field points at. -/
  references : Option String := none
  deriving DecidableEq, Repr

/-- A stored entity. -/
structure DataEntity where
  component : String
  name : String
  kind : Option String := none
  fields : List Field := []
  primaryKey : Option String := none
  description : Option String := none
  deriving DecidableEq, Repr

/-- An entity stored as a table. -/
def DataEntity.table (component name : String) : DataEntity :=
  { component, name, kind := some "table" }

/-- The kinds of relationship. -/
inductive RelationshipKind where
  | calls
  | uses
  | publishes
  | subscribes
  | dependsOn
  | readsFrom
  | writesTo
  | contains
  | deployedOn
  deriving DecidableEq, Repr

/-- Every kind of relationship. -/
def RelationshipKind.all : List RelationshipKind :=
  [calls, uses, publishes, subscribes, dependsOn, readsFrom, writesTo, contains, deployedOn]

/-- The name of a kind of relationship. -/
def RelationshipKind.name : RelationshipKind → String
  | calls => "calls"
  | uses => "uses"
  | publishes => "publishes"
  | subscribes => "subscribes"
  | dependsOn => "depends_on"
  | readsFrom => "reads_from"
  | writesTo => "writes_to"
  | contains => "contains"
  | deployedOn => "deployed_on"

/-- The verb of a kind of relationship. -/
def RelationshipKind.verb : RelationshipKind → String
  | calls => "calls"
  | uses => "uses"
  | publishes => "publishes"
  | subscribes => "subscribes"
  | dependsOn => "depends on"
  | readsFrom => "reads from"
  | writesTo => "writes to"
  | contains => "contains"
  | deployedOn => "deployed on"

/-- A directed relationship between two components. -/
structure Relationship where
  source : String
  target : String
  kind : RelationshipKind
  description : Option String := none
  technology : Option String := none
  deriving DecidableEq, Repr

/-- The findings of one scan, by category. -/
structure Findings where
  components : List Component := []
  dependencies : List Dependency := []
  endpoints : List Endpoint := []
  flows : List MessageFlow := []
  entities : List DataEntity := []
  relationships : List Relationship := []
  deriving DecidableEq, Repr

namespace Findings

/-- No findings. -/
def empty : Findings :=
  {}

/-- The categories with the number of findings in each. -/
def counts (findings : Findings) : List (String × Nat) :=
  [("components", findings.components.length), ("dependencies", findings.dependencies.length),
    ("api_endpoints", findings.endpoints.length), ("message_flows", findings.flows.length),
    ("data_entities", findings.entities.length),
    ("relationships", findings.relationships.length)]

/-- The number of findings. -/
def size (findings : Findings) : Nat :=
  findings.counts.foldl (fun size entry => size + entry.2) 0

/-- Whether there are no findings. -/
def isEmpty (findings : Findings) : Bool :=
  findings.components.isEmpty && findings.dependencies.isEmpty && findings.endpoints.isEmpty &&
    findings.flows.isEmpty && findings.entities.isEmpty && findings.relationships.isEmpty

/-- The findings of both, category by category. -/
def append (first second : Findings) : Findings :=
  { components := first.components ++ second.components
    dependencies := first.dependencies ++ second.dependencies
    endpoints := first.endpoints ++ second.endpoints
    flows := first.flows ++ second.flows
    entities := first.entities ++ second.entities
    relationships := first.relationships ++ second.relationships }

instance : Append Findings :=
  ⟨append⟩

/-- The findings of all, in order. -/
def concat (all : List Findings) : Findings :=
  all.foldl append empty

theorem isEmpty_iff_size (findings : Findings) : findings.isEmpty = true ↔ findings.size = 0 := by
  simp only [isEmpty, size, counts, Bool.and_eq_true, List.isEmpty_iff, List.foldl_cons,
    List.foldl_nil, ← List.length_eq_zero_iff]
  omega

end Findings

end ArchSurvey
