import ArchSurvey.Proofs.Model.Owners
import ArchSurvey.Proofs.Scan.Methods
import ArchSurvey.Proofs.Survey.Methods

/-!
# Owners of what the built-in scanners find
-/

namespace ArchSurvey

open Findings

namespace Manifest

theorem selfContained_declared {component : Component}
    {dependencies : List Dependency}
    (own : ∀ dependency ∈ dependencies, dependency.source = component.id) :
    ({ components := [component], dependencies } : Findings).SelfContained := by
  have single : ∀ id ∈
      ({ components := [component], dependencies } : Findings).owners,
      id = component.id := by
    simpa [owners] using own
  exact ⟨owned_of_single single fun _ => List.mem_singleton_self _, rfl⟩

theorem Pom.yields : Pom.engine.Yields SelfContained := by
  apply TierEngine.yields_of_read (fun _ _ => rfl) (fun _ _ => rfl)
  intro file pom
  apply selfContained_declared
  intro dependency member
  obtain ⟨declared, -, rfl⟩ := List.mem_map.mp member
  rfl

theorem PackageJson.yields (withDev : Bool) :
    (PackageJson.engine withDev).Yields SelfContained := by
  apply TierEngine.yields_of_read (fun _ _ => rfl) (fun _ _ => rfl)
  intro file manifest
  apply selfContained_declared
  have own : ∀ (source scope : String) (entries : List (String × Json)),
      ∀ dependency ∈ PackageJson.sectionDependencies source scope entries,
        dependency.source = source := by
    intro source scope entries dependency member
    obtain ⟨entry, -, rfl⟩ := List.mem_map.mp member
    rfl
  intro dependency member
  rcases List.mem_append.mp member with early | peer
  · rcases List.mem_append.mp early with plain | dev
    · exact own _ _ _ dependency plain
    · split at dev
      · exact own _ _ _ dependency dev
      · cases dev
  · exact own _ _ _ dependency peer

namespace PythonPackages

/-- Findings that are nothing but dependencies of one component. -/
structure RequiredBy (source : String) (findings : Findings) : Prop where
  only : findings = { dependencies := findings.dependencies }
  own : ∀ dependency ∈ findings.dependencies, dependency.source = source

theorem yields (source : String) :
    (engine source).Yields (RequiredBy source) := by
  refine ⟨fun _ _ data found => ?_, fun file text data found => ?_⟩
  · cases found
    exact List.forall_mem_nil _
  · cases found
    rw [List.forall_mem_singleton]
    refine ⟨rfl, fun dependency member => ?_⟩
    obtain ⟨requirement, -, rfl⟩ := List.mem_map.mp member
    rfl

theorem requiredBy_concat {source : String} {found : List Findings}
    (each : ∀ findings ∈ found, RequiredBy source findings) :
    RequiredBy source (concat found) := by
  apply holds_concat ⟨rfl, List.forall_mem_nil _⟩ _ each
  intro first second requiredFirst requiredSecond
  refine ⟨?_, List.forall_mem_append.mpr
    ⟨requiredFirst.own, requiredSecond.own⟩⟩
  rw [requiredFirst.only, requiredSecond.only]
  rfl

/-- The project joins what it requires. -/
theorem selfContained_conclude {project : Component} {found : List Findings}
    (each : ∀ findings ∈ found, RequiredBy project.id findings) :
    let findings := concat found
    ({ findings with
      components := findings.components ++
        if findings.dependencies.isEmpty then [] else [project] } :
      Findings).SelfContained := by
  obtain ⟨only, own⟩ := requiredBy_concat each
  generalize concat found = findings at only own
  rw [only]
  exact selfContained_of_items Dependency.source (by simp [owners]) rfl rfl own

end PythonPackages

theorem GoModule.yields : GoModule.engine.Yields SelfContained := by
  apply TierEngine.yields_of_read (fun _ _ => rfl) (fun _ _ => rfl)
  intro file module
  apply selfContained_declared
  intro dependency member
  obtain ⟨requirement, -, rfl⟩ := List.mem_map.mp member
  rfl

end Manifest

namespace Route

namespace Decorated

variable {component module : String} {endpoint : Endpoint}

theorem component_of_mem_ofOccurrence {occurrence : Grammar.Occurrence}
    (member : endpoint ∈ ofOccurrence component module occurrence) :
    endpoint.component = component := by
  rw [ofOccurrence] at member
  split at member
  · split at member
    · obtain ⟨method, -, rfl⟩ := List.mem_map.mp member
      rfl
    · cases member
  · cases member

theorem component_of_mem_ofLines {lines : List (List Char)}
    (member : endpoint ∈ ofLines component module lines) :
    endpoint.component = component := by
  induction lines with
  | nil => cases member
  | cons line rest ih =>
      rcases List.mem_append.mp member with here | later
      · split at here
        · obtain ⟨route, -, rfl⟩ := List.mem_map.mp here
          rfl
        · cases here
      · exact ih later

theorem yields (parser : Grammar.StructuralParser) (own : Component) :
    (engine parser own).Yields SelfContained := by
  apply TierEngine.yields_of_both (fun _ _ => rfl) (fun _ _ => rfl)
  · intro file occurrences
    apply selfContained_offer
    intro endpoint member
    obtain ⟨occurrence, -, found⟩ := List.mem_flatMap.mp member
    exact component_of_mem_ofOccurrence found
  · intro file text
    exact selfContained_offer fun _ member => component_of_mem_ofLines member

end Decorated

namespace Controller

theorem component_of_mem_endpoints {handler : Handler} {component : String}
    {endpoint : Endpoint} (member : endpoint ∈ handler.endpoints component) :
    endpoint.component = component := by
  rw [Handler.endpoints] at member
  split at member
  · obtain ⟨route, -, rfl⟩ := List.mem_map.mp member
    rfl
  · cases member

theorem yields (parser : Grammar.StructuralParser) (own : Component) :
    (engine parser own).Yields SelfContained := by
  apply TierEngine.yields_of_both (fun _ _ => rfl) (fun _ _ => rfl)
  · intro file occurrences
    apply selfContained_offer
    intro endpoint member
    obtain ⟨occurrence, -, found⟩ := List.mem_flatMap.mp member
    exact component_of_mem_endpoints found
  · intro file text
    apply selfContained_offer
    intro endpoint member
    obtain ⟨handler, -, found⟩ := List.mem_flatMap.mp member
    exact component_of_mem_endpoints found

end Controller

namespace Call

theorem component_of_endpoint? {component module object verb : String}
    {path : List Char} {endpoint : Endpoint}
    (found : endpoint? component module object verb path = some endpoint) :
    endpoint.component = component := by
  rw [endpoint?] at found
  split at found
  · cases found
    rfl
  · cases found

theorem component_of_ofOccurrence {component module : String}
    {occurrence : Grammar.Occurrence} {endpoint : Endpoint}
    (found : ofOccurrence component module occurrence = some endpoint) :
    endpoint.component = component := by
  simp only [ofOccurrence, Option.bind_eq_bind, Option.bind_eq_some_iff]
    at found
  obtain ⟨object, -, verb, -, path, -, found⟩ := found
  exact component_of_endpoint? found

theorem yields (parser : Grammar.StructuralParser) (own : Component) :
    (engine parser own).Yields SelfContained := by
  apply TierEngine.yields_of_both (fun _ _ => rfl) (fun _ _ => rfl)
  · intro file occurrences
    apply selfContained_offer
    intro endpoint member
    obtain ⟨occurrence, -, found⟩ := List.mem_filterMap.mp member
    exact component_of_ofOccurrence found
  · intro file text
    apply selfContained_offer
    intro endpoint member
    obtain ⟨call, -, found⟩ := List.mem_filterMap.mp member
    exact component_of_endpoint? found

theorem finds (javaScript typeScript : Grammar.StructuralParser)
    (own : Component) :
    (method javaScript typeScript own).Finds SelfContained := by
  have yieldsBoth : ∀ pass ∈ (method javaScript typeScript own).passes,
      pass.engine.Yields SelfContained := by
    intro pass member
    rcases List.mem_cons.mp member with rfl | last
    · exact yields javaScript own
    · obtain rfl := List.mem_singleton.mp last
      exact yields typeScript own
  exact Method.finds_of_yields yieldsBoth fun _ each =>
    selfContained_withoutRepeatedComponents (selfContained_concat each)

end Call

theorem Grouped.yields (parser : Grammar.StructuralParser) (own : Component) :
    (Grouped.engine parser own).Yields SelfContained := by
  have offers (routes : Grouped.FileRoutes) :
      (offer own (routes.endpoints own.id)).SelfContained := by
    apply selfContained_offer
    intro endpoint member
    obtain ⟨registration, -, rfl⟩ := List.mem_map.mp member
    rfl
  apply TierEngine.yields_of_both (fun _ _ => rfl) (fun _ _ => rfl)
  · exact fun _ _ => offers _
  · exact fun _ _ => offers _

end Route

namespace Entity.Mapped

/-- Findings whose entities all lie in one database. -/
structure StoredIn (database : Component) (findings : Findings) : Prop where
  selfContained : findings.SelfContained
  stored : ∀ entity ∈ findings.entities, entity.component = database.id

theorem component_of_mem_entitiesOf {database : String}
    {classes : List MappedClass} {entity : DataEntity}
    (member : entity ∈ entitiesOf database classes) :
    entity.component = database := by
  obtain ⟨mapped, -, found⟩ := List.mem_filterMap.mp member
  rw [MappedClass.entity?] at found
  split at found
  · cases found
    rfl
  · cases found

theorem yields (parser : Grammar.StructuralParser) (database : Component) :
    (engine parser database).Yields (StoredIn database) := by
  have stores (classes : List MappedClass) :
      StoredIn database (store database (entitiesOf database.id classes)) :=
    ⟨selfContained_store fun _ => component_of_mem_entitiesOf,
      fun _ => component_of_mem_entitiesOf⟩
  apply TierEngine.yields_of_both (fun _ _ => rfl) (fun _ _ => rfl)
  · exact fun _ _ => stores _
  · exact fun _ _ => stores _

theorem storedIn_concat {database : Component} {found : List Findings}
    (each : ∀ findings ∈ found, StoredIn database findings) :
    StoredIn database (concat found) := by
  apply holds_concat ⟨selfContained_empty, List.forall_mem_nil _⟩ _ each
  intro first second storedFirst storedSecond
  exact ⟨storedFirst.selfContained.append storedSecond.selfContained,
    List.forall_mem_append.mpr ⟨storedFirst.stored, storedSecond.stored⟩⟩

/-- What the scanner of mapped entities finds: the database is there, the project
that uses it need not be. -/
structure Found (project : String) (findings : Findings) : Prop where
  owned : findings.Owned
  ends : findings.ends ⊆ project :: findings.componentIds
  used : project ∈ findings.ends ↔ findings.entities ≠ []

theorem found_conclude {context : Context} {database : Component}
    {found : List Findings}
    (each : ∀ findings ∈ found, StoredIn database findings) :
    let findings := concat found
    Found (Project.ownId context)
      { findings with
        relationships := findings.relationships ++
          if findings.entities.isEmpty then []
          else [usage context database] } := by
  obtain ⟨selfContained, stored⟩ := storedIn_concat each
  generalize concat found = findings at selfContained stored
  dsimp only
  rw [selfContained.unrelated, List.nil_append]
  cases stands : findings.entities with
  | nil => exact ⟨stands ▸ selfContained.owned, List.nil_subset _, by simp [ends]⟩
  | cons entity rest =>
      have first : entity ∈ findings.entities := by simp [stands]
      -- The database owns an entity, so it is there without the relationship.
      have owner : entity.component ∈ findings.componentIds := by
        apply selfContained.owned
        simp [owners, stands]
      rw [stored entity first] at owner
      refine ⟨stands ▸ selfContained.owned, ?_, ?_⟩
      · intro id inEnds
        have either : id = Project.ownId context ∨ id = database.id := by
          simpa [ends, Relationship.ends, usage] using inEnds
        rcases either with rfl | rfl
        · exact List.mem_cons_self
        · exact List.mem_cons_of_mem _ owner
      · simp [ends, Relationship.ends, usage]

end Entity.Mapped

/-- Tables are found with the database that they stand in, whatever the scripts
are. -/
theorem Schema.selfContained_store (database : Component)
    (scripts : List (ScriptOrder × Script)) :
    (Entity.Mapped.store database
      ((replayInOrder scripts).map (Table.entity database.id))).SelfContained :=
  Entity.Mapped.selfContained_store fun _ member => by
    obtain ⟨table, -, rfl⟩ := List.mem_map.mp member
    rfl

namespace Messaging.Topic

/-- Findings that are nothing but messages that one service sends or takes. -/
structure ExchangedBy (service : String) (findings : Findings) : Prop where
  only : findings = { flows := findings.flows }
  own : ∀ flow ∈ findings.flows, flow.ends = [service]

theorem ends_of_mem_flowsOfMember {service : String}
    {member : Declaration.Declared} {flow : MessageFlow}
    (found : flow ∈ flowsOfMember service member) : flow.ends = [service] := by
  rw [flowsOfMember] at found
  split at found
  · rcases List.mem_append.mp found with taken | sent
    · obtain ⟨topic, -, rfl⟩ := List.mem_map.mp taken
      rfl
    · obtain ⟨topic, -, rfl⟩ := List.mem_map.mp sent
      rfl
  · cases found

theorem ends_of_mem_flowsOf {service path : String} {text : List Char}
    {flow : MessageFlow} (found : flow ∈ flowsOf service path text) :
    flow.ends = [service] := by
  rw [flowsOf] at found
  split at found
  · rcases List.mem_append.mp found with annotated | sent
    · obtain ⟨type, -, inType⟩ := List.mem_flatMap.mp annotated
      obtain ⟨member, -, ofMember⟩ := List.mem_flatMap.mp inType
      exact ends_of_mem_flowsOfMember ofMember
    · obtain ⟨call, -, rfl⟩ := List.mem_map.mp sent
      rfl
  · rw [flowsOfCalls] at found
    split at found
    · cases found
    · rcases List.mem_append.mp found with taken | sent
      · obtain ⟨topic, -, rfl⟩ := List.mem_map.mp taken
        rfl
      · obtain ⟨call, -, rfl⟩ := List.mem_map.mp sent
        rfl
  · cases found

theorem yields (service : String) :
    (engine service).Yields (ExchangedBy service) := by
  refine ⟨fun _ _ data found => ?_, fun file text data found => ?_⟩
  · cases found
    exact List.forall_mem_nil _
  · cases found
    rw [List.forall_mem_singleton]
    exact ⟨rfl, fun _ => ends_of_mem_flowsOf⟩

theorem exchangedBy_concat {service : String} {found : List Findings}
    (each : ∀ findings ∈ found, ExchangedBy service findings) :
    ExchangedBy service (concat found) := by
  apply holds_concat ⟨rfl, List.forall_mem_nil _⟩ _ each
  intro first second exchangedFirst exchangedSecond
  refine ⟨?_, List.forall_mem_append.mpr
    ⟨exchangedFirst.own, exchangedSecond.own⟩⟩
  rw [exchangedFirst.only, exchangedSecond.only]
  rfl

theorem ends_of_mem_relationshipsOf {service broker : String}
    {flows : List MessageFlow} {relationship : Relationship}
    (member : relationship ∈ relationshipsOf service broker flows) :
    relationship.ends = [service, broker] := by
  rcases List.mem_append.mp member with publishes | subscribes
  · split at publishes
    · obtain rfl := List.mem_singleton.mp publishes
      rfl
    · cases publishes
  · split at subscribes
    · obtain rfl := List.mem_singleton.mp subscribes
      rfl
    · cases subscribes

/-- The service and the broker join the messages, and are the ends of all
relationships. -/
theorem owned_linked_withTopology {context : Context} {findings : Findings}
    (exchanged : ExchangedBy (Project.ownId context) findings) :
    (withTopology context findings).Owned ∧
      (withTopology context findings).Linked := by
  obtain ⟨only, own⟩ := exchanged
  rw [only, withTopology]
  split
  · next silent =>
      have nothing : findings.flows = [] := List.isEmpty_iff.mp silent
      rw [nothing]
      exact ⟨selfContained_empty.owned, selfContained_empty.linked⟩
  · constructor
    · intro id owns
      have among : id ∈ findings.flows.flatMap MessageFlow.ends := by
        simpa [owners] using owns
      obtain ⟨flow, member, inEnds⟩ := List.mem_flatMap.mp among
      rw [own flow member, List.mem_singleton] at inEnds
      subst inEnds
      exact List.mem_cons_self
    · intro id inEnds
      obtain ⟨relationship, member, atEnd⟩ := List.mem_flatMap.mp inEnds
      rw [ends_of_mem_relationshipsOf member] at atEnd
      exact atEnd

end Messaging.Topic

/-- Every built-in scanner finds owners with what they own; and all but the one
for mapped entities find both ends of every relationship. -/
theorem finds_of_mem_builtinScanners {grammars : Bool} {scanner : Scanner}
    (member : scanner ∈ builtinScanners grammars) (context : Context) :
    (builtinMethod grammars scanner.id context).Finds fun findings =>
      findings.Owned ∧ (scanner.id ≠ "jpa-entities" → findings.Linked) := by
  have both : ∀ findings : Findings, findings.SelfContained →
      findings.Owned ∧ (scanner.id ≠ "jpa-entities" → findings.Linked) :=
    fun _ selfContained => ⟨selfContained.owned, fun _ => selfContained.linked⟩
  simp only [builtinScanners, List.mem_cons, List.not_mem_nil, or_false]
    at member
  rcases member with rfl | rfl | rfl | rfl | rfl | rfl | rfl | rfl | rfl | rfl |
    rfl
  · exact Method.finds_single Manifest.Pom.yields fun _ each =>
      both _ (selfContained_concat each)
  · exact Method.finds_single (Manifest.PackageJson.yields _) fun _ each =>
      both _ (selfContained_concat each)
  · exact Method.finds_single (Manifest.PythonPackages.yields _) fun _ each =>
      both _ (Manifest.PythonPackages.selfContained_conclude each)
  · exact Method.finds_single Manifest.GoModule.yields fun _ each =>
      both _ (selfContained_concat each)
  · exact Method.finds_single (Route.Decorated.yields _ _) fun _ each =>
      both _ (selfContained_concat each)
  · exact Method.finds_single (Route.Controller.yields _ _) fun _ each =>
      both _ (selfContained_concat each)
  · exact (Route.Call.finds _ _ _).mono both
  · exact Method.finds_single (Route.Grouped.yields _ _) fun _ each =>
      both _ (Route.selfContained_withoutRepeatedComponents
        (selfContained_concat each))
  · exact Method.finds_single (Entity.Mapped.yields _ _) fun _ each =>
      ⟨(Entity.Mapped.found_conclude each).owned, fun other => absurd rfl other⟩
  · exact fun _ reading _ => both _ (Schema.selfContained_store _ reading.1)
  · exact Method.finds_single (Messaging.Topic.yields _) fun _ each =>
      (Messaging.Topic.owned_linked_withTopology
        (Messaging.Topic.exchangedBy_concat each)).imp_right fun linked _ =>
          linked

theorem finds_mapped (grammars : Bool) (context : Context) :
    (builtinMethod grammars "jpa-entities" context).Finds
      (Entity.Mapped.Found (Project.ownId context)) :=
  Method.finds_single (Entity.Mapped.yields _ _) fun _ each =>
    Entity.Mapped.found_conclude each

/-- What a successful result of a built-in scanner holds. -/
structure ScanResult.Closed (project : String) (result : ScanResult) :
    Prop where
  owned : result.findings.Owned
  linked : result.scanner ≠ "jpa-entities" → result.findings.Linked
  mapped : result.scanner = "jpa-entities" →
    Entity.Mapped.Found project result.findings

theorem closed_of_mem_builtinScanners {grammars : Bool} {scanner : Scanner}
    (member : scanner ∈ builtinScanners grammars) {context : Context}
    (success : (scanner.runIsolated context).success = true) :
    (scanner.runIsolated context).Closed (Project.ownId context) := by
  have follows := follows_of_mem_builtinScanners member
  have own := follows.bearsOwnId.scanner_runIsolated context
  obtain ⟨owned, linked⟩ := follows.holds_of_success
    (finds_of_mem_builtinScanners member context) success
  rw [← own] at linked
  refine ⟨owned, linked, fun named => ?_⟩
  rw [own] at named
  rw [named] at follows
  exact follows.holds_of_success (finds_mapped grammars context) success

end ArchSurvey
