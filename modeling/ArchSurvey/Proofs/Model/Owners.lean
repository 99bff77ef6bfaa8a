import ArchSurvey.Entity.Mapped
import ArchSurvey.Proofs.Model.FirstByKey
import ArchSurvey.Proofs.Model.Merge
import ArchSurvey.Route.Offer

/-!
# Where the items of a model come from

Of the findings with one key a merged model keeps the first one of the least
successful result that has any; the statistics of a scanner are those of its
result of lowest priority, whether or not that result is successful.

Identities, owners and ends are parts of the keys, so a model names exactly
those that its parts name.
-/

/-!
## Owners of findings

Dependencies, endpoints, message flows and entities name the components that own
them, and relationships name the components at their ends.  Findings that are
put together have their owners if each part has its own.
-/

namespace ArchSurvey

/-- The identities of the components that send and take the messages. -/
def MessageFlow.ends (flow : MessageFlow) : List String :=
  flow.publisher.toList ++ flow.subscriber.toList

/-- The identities of the components at both ends. -/
def Relationship.ends (relationship : Relationship) : List String :=
  [relationship.source, relationship.target]

namespace Findings

/-- The identities of the components that were found. -/
def componentIds (findings : Findings) : List String :=
  findings.components.map Component.id

/-- The identities that dependencies, endpoints, message flows and entities name
as their owners. -/
def owners (findings : Findings) : List String :=
  findings.dependencies.map Dependency.source ++
    (findings.endpoints.map Endpoint.component ++
      (findings.flows.flatMap MessageFlow.ends ++
        findings.entities.map DataEntity.component))

/-- The identities that relationships go from and to. -/
def ends (findings : Findings) : List String :=
  findings.relationships.flatMap Relationship.ends

/-- All owners of findings are among the components. -/
def Owned (findings : Findings) : Prop :=
  findings.owners ⊆ findings.componentIds

/-- Both ends of every relationship are among the components. -/
def Linked (findings : Findings) : Prop :=
  findings.ends ⊆ findings.componentIds

/-- Findings with all their owners, and without relationships. -/
structure SelfContained (findings : Findings) : Prop where
  owned : findings.Owned
  unrelated : findings.relationships = []

section

variable {first second : Findings} {id : String}

theorem mem_componentIds_append :
    id ∈ (first ++ second).componentIds ↔
      id ∈ first.componentIds ∨ id ∈ second.componentIds := by
  change id ∈ (first.components ++ second.components).map Component.id ↔ _
  rw [List.map_append, List.mem_append]
  rfl

theorem mem_owners_append :
    id ∈ (first ++ second).owners ↔ id ∈ first.owners ∨ id ∈ second.owners := by
  change id ∈ (append first second).owners ↔ _
  simp only [owners, append, List.map_append, List.flatMap_append,
    List.mem_append]
  grind

theorem Owned.append (ownedFirst : first.Owned) (ownedSecond : second.Owned) :
    (first ++ second).Owned := by
  intro id owns
  rw [mem_componentIds_append]
  exact (mem_owners_append.mp owns).imp (ownedFirst ·) (ownedSecond ·)

theorem SelfContained.append (selfFirst : first.SelfContained)
    (selfSecond : second.SelfContained) : (first ++ second).SelfContained where
  owned := selfFirst.owned.append selfSecond.owned
  unrelated := by
    change first.relationships ++ second.relationships = []
    rw [selfFirst.unrelated, selfSecond.unrelated]
    rfl

end

theorem selfContained_empty : empty.SelfContained :=
  ⟨List.nil_subset _, rfl⟩

theorem SelfContained.linked {findings : Findings}
    (selfContained : findings.SelfContained) : findings.Linked := by
  rw [Linked, ends, selfContained.unrelated]
  exact List.nil_subset _

/-- What holds of no findings and is kept by putting findings together holds of
all together if it holds of each. -/
theorem holds_concat {holds : Findings → Prop} (empty : holds empty)
    (append : ∀ first second, holds first → holds second →
      holds (first ++ second))
    {all : List Findings} (each : ∀ findings ∈ all, holds findings) :
    holds (concat all) := by
  unfold concat
  generalize Findings.empty = start at empty
  induction all generalizing start with
  | nil => exact empty
  | cons next rest ih =>
      rw [List.forall_mem_cons] at each
      exact ih each.2 _ (append start next empty each.1)

theorem selfContained_concat {all : List Findings}
    (each : ∀ findings ∈ all, findings.SelfContained) :
    (concat all).SelfContained :=
  holds_concat selfContained_empty (fun _ _ => SelfContained.append) each

/-- Findings of a single owner are owned if it is a component wherever there are
any. -/
theorem owned_of_single {findings : Findings} {owner : String}
    (single : ∀ id ∈ findings.owners, id = owner)
    (present : findings.owners ≠ [] → owner ∈ findings.componentIds) :
    findings.Owned := by
  intro id owns
  rw [single id owns]
  exact present (List.ne_nil_of_mem owns)

/-- Items are found with the component that owns them, wherever there are any. -/
theorem selfContained_of_items {α : Type} {findings : Findings}
    {component : Component} {items : List α} (owner : α → String)
    (owners : findings.owners = items.map owner)
    (components : findings.components =
      if items.isEmpty then [] else [component])
    (unrelated : findings.relationships = [])
    (own : ∀ item ∈ items, owner item = component.id) :
    findings.SelfContained := by
  have single : ∀ id ∈ findings.owners, id = component.id := by
    rw [owners]
    exact List.forall_mem_map.mpr own
  have present : findings.owners ≠ [] → component.id ∈ findings.componentIds := by
    rw [owners]
    intro inhabited
    have nonempty : items.isEmpty = false := by simpa using inhabited
    simp [componentIds, components, nonempty]
  exact ⟨owned_of_single single present, unrelated⟩

end Findings

open Findings

theorem Route.selfContained_offer {component : Component}
    {endpoints : List Endpoint}
    (own : ∀ endpoint ∈ endpoints, endpoint.component = component.id) :
    (offer component endpoints).SelfContained :=
  selfContained_of_items Endpoint.component (by simp [owners, offer]) rfl rfl own

theorem Entity.Mapped.selfContained_store {database : Component}
    {entities : List DataEntity}
    (own : ∀ entity ∈ entities, entity.component = database.id) :
    (store database entities).SelfContained :=
  selfContained_of_items DataEntity.component (by simp [owners, store]) rfl rfl
    own

namespace Route

/-- Leaving out a component that repeats the one before it loses no identity. -/
theorem mem_ids_withoutRepeats {components : List Component} {id : String} :
    id ∈ (withoutRepeats components).map Component.id ↔
      id ∈ components.map Component.id := by
  induction components with
  | nil => rfl
  | cons first rest ih =>
      rw [List.map_cons, List.mem_cons, ← ih, withoutRepeats]
      cases withoutRepeats rest with
      | nil => simp
      | cons second others =>
          dsimp only
          split
          · next same =>
              have equal : first.id = second.id := eq_of_beq same
              simp [equal]
          · simp

theorem selfContained_withoutRepeatedComponents {findings : Findings}
    (selfContained : findings.SelfContained) :
    (withoutRepeatedComponents findings).SelfContained where
  owned := fun _ owns => mem_ids_withoutRepeats.mpr (selfContained.owned owns)
  unrelated := selfContained.unrelated

end Route

end ArchSurvey

namespace ArchSurvey

/-! ## Origins -/

/-- Whether an input succeeded with a finding that has a key. -/
def MergeInput.Offers {α κ : Type} (key : α → κ) (items : Findings → List α)
    (k : κ) (input : MergeInput) : Prop :=
  input.result.success = true ∧ k ∈ (items input.result.findings).map key

/-- `kept` holds one item for each key that a successful input has: the first
one with the key in the least of these inputs. -/
structure KeepsFirst {α κ : Type} [DecidableEq κ] (key : α → κ)
    (items : Findings → List α) (inputs : List MergeInput) (kept : List α) :
    Prop where
  distinct : (kept.map key).Nodup
  complete : ∀ k, k ∈ kept.map key ↔
    ∃ input ∈ inputs, input.Offers key items k
  origin : ∀ item ∈ kept, ∃ input,
    IsFirstLeast MergeInput.Precedes (MergeInput.Offers key items (key item))
      inputs input ∧
    (items input.result.findings).find? (fun other => key other = key item) =
      some item

/-- `kept` holds one entry for each scanner of any input: the statistics of its
first input of lowest priority. -/
structure KeepsStatistics (inputs : List MergeInput)
    (kept : List (String × Statistics)) : Prop where
  distinct : (kept.map Prod.fst).Nodup
  complete : ∀ id, id ∈ kept.map Prod.fst ↔
    ∃ input ∈ inputs, input.result.scanner = id
  origin : ∀ id statistics, (id, statistics) ∈ kept → ∃ input,
    IsFirstLeast (fun a b => a.priority < b.priority)
      (fun other => other.result.scanner = id) inputs input ∧
    input.result.statistics = statistics

section

variable {α κ : Type} [DecidableEq κ] (key : α → κ) (items : Findings → List α)

/-- The first item with a key among those that inputs offer comes from the
first input that offers one. -/
theorem find?_of_find?_flatMap_offered {inputs : List MergeInput} {k : κ}
    {item : α}
    (found : (inputs.flatMap (MergeInput.offered items)).find?
      (fun other => key other = k) = some item) :
    ∃ input,
      inputs.find? (fun other =>
        other.result.success &&
          decide (k ∈ (items other.result.findings).map key)) = some input ∧
      (items input.result.findings).find? (fun other => key other = k) =
        some item := by
  induction inputs with
  | nil => simp at found
  | cons input rest ih =>
      rw [List.flatMap_cons, List.find?_append] at found
      rw [List.find?_cons]
      cases succeeded : input.result.success with
      | false =>
          rw [MergeInput.offered, succeeded] at found
          simpa using ih (by simpa using found)
      | true =>
          rw [MergeInput.offered, if_pos succeeded] at found
          cases here : (items input.result.findings).find?
              (fun other => key other = k) with
          | none =>
              have absent : k ∉ (items input.result.findings).map key := by
                intro member
                obtain ⟨other, given, equal⟩ := List.mem_map.mp member
                have different := List.find?_eq_none.mp here other given
                exact different (by simpa using equal)
              rw [here, Option.none_or] at found
              simpa [absent] using ih found
          | some first =>
              rw [here, Option.some_or] at found
              have present : k ∈ (items input.result.findings).map key := by
                apply List.mem_map.mpr
                refine ⟨first, List.mem_of_find?_eq_some here, ?_⟩
                simpa using List.find?_some here
              refine ⟨input, by simp [present], ?_⟩
              rw [here, found]

/-- Each category of a merged model keeps the first item of each key. -/
theorem keepsFirst_mergeSort (inputs : List MergeInput) :
    KeepsFirst key items inputs
      (firstByKey key ((inputs.mergeSort MergeInput.le).flatMap
        (MergeInput.offered items))) where
  distinct := nodup_keys_firstByKey key _
  complete := by
    intro k
    rw [mem_keys_firstByKey_iff]
    constructor
    · intro member
      obtain ⟨item, offered, rfl⟩ := List.mem_map.mp member
      obtain ⟨input, inSorted, inInput⟩ := List.mem_flatMap.mp offered
      unfold MergeInput.offered at inInput
      split at inInput
      · next succeeded =>
          exact ⟨input, List.mem_mergeSort.mp inSorted, succeeded,
            List.mem_map_of_mem inInput⟩
      · simp at inInput
    · rintro ⟨input, given, succeeded, member⟩
      obtain ⟨item, inInput, rfl⟩ := List.mem_map.mp member
      apply List.mem_map_of_mem
      apply List.mem_flatMap.mpr
      refine ⟨input, List.mem_mergeSort.mpr given, ?_⟩
      rw [MergeInput.offered, if_pos succeeded]
      exact inInput
  origin := by
    intro item kept
    obtain ⟨input, first, inInput⟩ := find?_of_find?_flatMap_offered key items
      ((mem_firstByKey_iff key).mp kept)
    refine ⟨input, ?_, inInput⟩
    have least := isFirstLeast_of_find?_mergeSort MergeInput.le_trans
      MergeInput.le_total first
    refine least.imp ?_ ?_
    · intro other _
      simp [MergeInput.Offers]
    · intro a b _ _
      exact MergeInput.le_eq_false_iff.symm

end

/-- The statistics of a merged model keep those of lowest priority. -/
theorem keepsStatistics_mergeSort (inputs : List MergeInput) :
    KeepsStatistics inputs
      (Model.collect [] (inputs.mergeSort MergeInput.le)) where
  distinct := (Model.sorted_collect .nil _).nodup
  complete := by
    intro id
    constructor
    · intro member
      obtain ⟨⟨name, statistics⟩, kept, rfl⟩ := List.mem_map.mp member
      obtain ⟨input, found, -⟩ := Model.mem_collect_iff.mp kept
      refine ⟨input, List.mem_mergeSort.mp (List.mem_of_find?_eq_some found), ?_⟩
      simpa using List.find?_some found
    · rintro ⟨input, given, rfl⟩
      have holds : ((inputs.mergeSort MergeInput.le).find? fun other =>
          other.result.scanner == input.result.scanner).isSome := by
        rw [List.find?_isSome]
        exact ⟨input, List.mem_mergeSort.mpr given, by simp⟩
      obtain ⟨first, found⟩ := Option.isSome_iff_exists.mp holds
      have kept := Model.mem_collect_iff.mpr ⟨first, found, rfl⟩
      exact List.mem_map_of_mem kept
  origin := by
    intro id statistics kept
    obtain ⟨input, found, equal⟩ := Model.mem_collect_iff.mp kept
    refine ⟨input, ?_, equal⟩
    have least := isFirstLeast_of_find?_mergeSort MergeInput.le_trans
      MergeInput.le_total found
    refine least.imp ?_ ?_
    · intro other _
      simp
    · intro a b aScanner bScanner
      rw [beq_iff_eq] at aScanner bScanner
      rw [MergeInput.le_eq_false_iff,
        MergeInput.precedes_of_same_scanner (aScanner.trans bScanner.symm)]

/-- What a merged model holds, category by category, and what its statistics
are.  No finding of a failed input appears, since every kept item comes from an
input that succeeded. -/
theorem Model.merge_keeps (projectName : String) (inputs : List MergeInput) :
    KeepsFirst (fun c : Component => c.id) Findings.components inputs
      (merge projectName inputs).components ∧
    KeepsFirst
      (fun d : Dependency => (d.source, d.group, d.artifact, d.version))
      Findings.dependencies inputs (merge projectName inputs).dependencies ∧
    KeepsFirst (fun e : Endpoint => (e.component, e.method, e.path))
      Findings.endpoints inputs (merge projectName inputs).endpoints ∧
    KeepsFirst (fun f : MessageFlow => (f.topic, f.publisher, f.subscriber))
      Findings.flows inputs (merge projectName inputs).flows ∧
    KeepsFirst (fun e : DataEntity => (e.component, e.name))
      Findings.entities inputs (merge projectName inputs).entities ∧
    KeepsFirst (fun r : Relationship => (r.source, r.target, r.technology))
      Findings.relationships inputs
      (merge projectName inputs).relationships ∧
    KeepsStatistics inputs (merge projectName inputs).statistics := by
  simp only [merge, ofOrdered, flatMap_offered]
  exact ⟨keepsFirst_mergeSort Component.key _ inputs,
    keepsFirst_mergeSort Dependency.key _ inputs,
    keepsFirst_mergeSort Endpoint.key _ inputs,
    keepsFirst_mergeSort MessageFlow.key _ inputs,
    keepsFirst_mergeSort DataEntity.key _ inputs,
    keepsFirst_mergeSort Relationship.key _ inputs,
    keepsStatistics_mergeSort inputs⟩

/-! ## Owners -/

/-- A property that the key decides is found among the first items of each key
exactly if it is found among all. -/
theorem exists_mem_firstByKey_iff {α κ : Type} [DecidableEq κ] {key : α → κ}
    {items : List α} {holds : α → Prop}
    (decided : ∀ item other, key item = key other → holds item → holds other) :
    (∃ item ∈ firstByKey key items, holds item) ↔ ∃ item ∈ items, holds item := by
  constructor
  · rintro ⟨item, kept, held⟩
    exact ⟨item, (firstByKeyFrom_sublist key [] items).mem kept, held⟩
  · rintro ⟨item, given, held⟩
    -- The item may be left out, but then an earlier one has the same key.
    have known : key item ∈ (firstByKey key items).map key :=
      (mem_keys_firstByKey_iff key).mpr (List.mem_map_of_mem given)
    obtain ⟨first, kept, same⟩ := List.mem_map.mp known
    exact ⟨first, kept, decided item first same.symm held⟩

namespace Model

variable {projectName : String} {inputs : List MergeInput}

/-- The findings of the successful results in the order of merging. -/
def successes (inputs : List MergeInput) : List Findings :=
  ((inputs.mergeSort MergeInput.le).filter fun input =>
    input.result.success).map fun input => input.result.findings

theorem mem_successes_iff {findings : Findings} :
    findings ∈ successes inputs ↔
      ∃ input ∈ inputs, input.result.success = true ∧
        input.result.findings = findings := by
  simp [successes, and_assoc]

/-- One category of a model has a finding with a property that the key decides
exactly if some successful result has one. -/
theorem exists_mem_category_iff {α κ : Type} [DecidableEq κ] {key : α → κ}
    {category : Findings → List α} {holds : α → Prop}
    (decided : ∀ item other, key item = key other → holds item → holds other) :
    (∃ item ∈ firstByKey key ((successes inputs).flatMap category),
        holds item) ↔
      ∃ findings ∈ successes inputs, ∃ item ∈ category findings, holds item := by
  rw [exists_mem_firstByKey_iff decided]
  simp only [List.mem_flatMap]
  constructor
  · rintro ⟨item, ⟨findings, among, member⟩, held⟩
    exact ⟨findings, among, item, member, held⟩
  · rintro ⟨findings, among, item, member, held⟩
    exact ⟨item, ⟨findings, among, member⟩, held⟩

theorem mem_componentIds_merge {id : String} :
    id ∈ (merge projectName inputs).findings.componentIds ↔
      ∃ findings ∈ successes inputs, id ∈ findings.componentIds := by
  simp only [Findings.componentIds, List.mem_map]
  exact exists_mem_category_iff fun _ _ same held => same.symm.trans held

theorem mem_ends_merge {id : String} :
    id ∈ (merge projectName inputs).findings.ends ↔
      ∃ findings ∈ successes inputs, id ∈ findings.ends := by
  simp only [Findings.ends, List.mem_flatMap]
  apply exists_mem_category_iff
  intro relationship other same atEnd
  obtain ⟨source, rest⟩ := Prod.mk.inj same
  rwa [Relationship.ends, ← source, ← (Prod.mk.inj rest).1]

theorem mem_owners_merge {id : String} :
    id ∈ (merge projectName inputs).findings.owners ↔
      ∃ findings ∈ successes inputs, id ∈ findings.owners := by
  let merged := (merge projectName inputs).findings
  have sources : id ∈ merged.dependencies.map Dependency.source ↔
      ∃ findings ∈ successes inputs,
        id ∈ findings.dependencies.map Dependency.source := by
    simp only [List.mem_map]
    apply exists_mem_category_iff
    intro dependency other same owns
    exact (Prod.mk.inj same).1.symm.trans owns
  have offerers : id ∈ merged.endpoints.map Endpoint.component ↔
      ∃ findings ∈ successes inputs,
        id ∈ findings.endpoints.map Endpoint.component := by
    simp only [List.mem_map]
    apply exists_mem_category_iff
    intro endpoint other same owns
    exact (Prod.mk.inj same).1.symm.trans owns
  have partners : id ∈ merged.flows.flatMap MessageFlow.ends ↔
      ∃ findings ∈ successes inputs,
        id ∈ findings.flows.flatMap MessageFlow.ends := by
    simp only [List.mem_flatMap]
    apply exists_mem_category_iff
    intro flow other same atEnd
    obtain ⟨publisher, subscriber⟩ := Prod.mk.inj (Prod.mk.inj same).2
    rwa [MessageFlow.ends, ← publisher, ← subscriber]
  have stores : id ∈ merged.entities.map DataEntity.component ↔
      ∃ findings ∈ successes inputs,
        id ∈ findings.entities.map DataEntity.component := by
    simp only [List.mem_map]
    apply exists_mem_category_iff
    intro entity other same owns
    exact (Prod.mk.inj same).1.symm.trans owns
  change id ∈ merged.owners ↔ _
  simp only [Findings.owners, List.mem_append, sources, offerers, partners,
    stores, and_or_left, exists_or]

/-- A model has the owners of its findings if every part has. -/
theorem owned_merge
    (each : ∀ findings ∈ successes inputs, findings.Owned) :
    (merge projectName inputs).findings.Owned := by
  intro id owns
  obtain ⟨findings, among, part⟩ := mem_owners_merge.mp owns
  exact mem_componentIds_merge.mpr ⟨findings, among, each findings among part⟩

end Model

end ArchSurvey
