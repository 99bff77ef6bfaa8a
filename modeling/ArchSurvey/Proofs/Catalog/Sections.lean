import ArchSurvey.Proofs.Catalog.Groups
import ArchSurvey.Proofs.Catalog.Pages
import Mathlib.Data.List.Forall2

/-!
# Sections of catalogs

Every catalog lists every item once.  Endpoints, dependencies and message flows
stand in sections by owner and topic, in the order in which these first occur,
components in sections by kind, in the order of the kinds, and each entity has
a section of its own.  The counts of the dependencies add up to their rows.
-/

namespace ArchSurvey.Catalog

open Diagram (textOfLines)

variable {α κ : Type} [DecidableEq κ]

/-- Sections with a table each, one for each of some keys and in their order,
with a row for each item of the key in the order of the items.  All items
together have one row each. -/
structure Lists (key : α → κ) (items : List α) (title : κ → String)
    (columns : List String) (row : α → List String) (keys : List κ)
    (sections : List Section) : Prop where
  parts : List.Forall₂ (fun held (part : Section) =>
    part.title = title held ∧
      part.table = some
        ⟨columns, (items.filter fun item => key item = held).map row⟩)
    keys sections
  once : (sections.flatMap Section.rows).Perm (items.map row)

/-- The section of a key is a row for each of its items. -/
theorem lists_map {key : α → κ} {items : List α} {title : κ → String}
    {columns : List String} {row : α → List String} {keys : List κ}
    (distinct : keys.Nodup) (covered : ∀ item ∈ items, key item ∈ keys)
    (part : κ → Section)
    (titled : ∀ held, (part held).title = title held)
    (tabled : ∀ held, (part held).table = some
      ⟨columns, (items.filter fun item => key item = held).map row⟩) :
    Lists key items title columns row keys (keys.map part) where
  parts := by
    rw [List.forall₂_map_right_iff, List.forall₂_same]
    exact fun held _ => ⟨titled held, tabled held⟩
  once := by
    have rows (held : κ) : (part held).rows =
        (items.filter fun item => key item = held).map row := by
      rw [Section.rows, tabled held]
      simp
    have all : (keys.map part).flatMap Section.rows =
        (keys.flatMap fun held =>
          items.filter fun item => key item = held).map row := by
      rw [List.flatMap_map, List.map_flatMap]
      exact List.flatMap_congr fun held _ => rows held
    rw [all]
    exact (perm_flatMap_filter key distinct covered).map row

theorem exists_lists_groupBy (key : α → κ) (items : List α)
    (title : κ → String) (columns : List String) (row : α → List String)
    (introduction : κ → List α → List String) :
    ∃ keys, FirstOccurrences keys (items.map key) ∧
      Lists key items title columns row keys
        ((groupBy key items).map fun group =>
          { title := title group.1
            introduction := introduction group.1 group.2
            table := some ⟨columns, group.2.map row⟩ }) := by
  have first := firstOccurrences_firstByKey (items.map key)
  refine ⟨_, first, ?_⟩
  rw [groupBy, List.map_map]
  exact lists_map first.nodup
    (fun item member => (first.mem_iff _).mpr (List.mem_map_of_mem member)) _
    (fun _ => rfl) fun _ => rfl

/-! ## Components -/

/-- The kinds of some components, in the order of the kinds. -/
def kindsOf (components : List Component) : List ComponentKind :=
  ComponentKind.all.filter fun kind =>
    components.any fun component => component.kind == kind

theorem mem_kindsOf {components : List Component} {kind : ComponentKind} :
    kind ∈ kindsOf components ↔
      kind ∈ components.map Component.kind := by
  have known : kind ∈ ComponentKind.all := by cases kind <;> decide
  simp [kindsOf, known]

theorem pairwise_kindsOf (components : List Component) :
    (kindsOf components).Pairwise fun one other =>
      ComponentKind.all.idxOf one < ComponentKind.all.idxOf other :=
  List.Pairwise.filter _ (by decide)

theorem lists_componentSections (components : List Component) :
    Lists Component.kind components (fun kind => spaced kind.name)
      ["Name", "Technology", "Repository", "Description"] componentRow
      (kindsOf components) (componentSections components) := by
  have distinct : ComponentKind.all.Nodup := by decide
  have sections : componentSections components =
      (kindsOf components).map fun kind =>
        { title := spaced kind.name
          table := some
            ⟨["Name", "Technology", "Repository", "Description"],
              (components.filter fun component =>
                component.kind = kind).map componentRow⟩ } := by
    rw [componentSections, List.filter_map, List.map_map, kindsOf]
    congr 1
    refine List.filter_congr fun kind _ => ?_
    rw [Bool.eq_iff_iff]
    simp
  rw [sections]
  exact lists_map (distinct.filter _)
    (fun component member => mem_kindsOf.mpr (List.mem_map_of_mem member)) _
    (fun _ => rfl) fun _ => rfl

/-- Whether a line is the title of the details of a component. -/
def isDetailTitle (line : String) : Bool :=
  Text.startsWith "### ".toList line.toList

theorem isDetailTitle_of_isListed {line : String} (listed : IsListed line) :
    isDetailTitle line = false := by
  rw [isDetailTitle]
  cases letters : line.toList with
  | nil => rfl
  | cons c rest =>
      have mark : c = '-' ∨ c = ' ' := by simpa [IsListed, letters] using listed
      rcases mark with rfl | rfl <;> rfl

theorem filter_componentDetails (model : Model) (component : Component) :
    (componentDetails model component).filter isDetailTitle =
      ["### " ++ component.name] := by
  obtain ⟨facts, spelled, listed⟩ := exists_componentDetails model component
  have none : facts.filter isDetailTitle = [] :=
    List.filter_eq_nil_iff.mpr fun line member => by
      simp [isDetailTitle_of_isListed (listed line member)]
  have blank : isDetailTitle "" = false := rfl
  have title : isDetailTitle ("### " ++ component.name) = true := by
    rw [isDetailTitle, String.toList_append]
    rfl
  rw [spelled, List.filter_append, none]
  simp [blank, title]

/-- Details have one title for each component. -/
theorem filter_details (model : Model) :
    (componentCatalog model).closing.filter isDetailTitle =
      model.components.map fun component => "### " ++ component.name := by
  have heading : isDetailTitle "## Component Details" = false := rfl
  rw [componentCatalog, List.filter_cons_of_neg (by simp [heading]),
    List.filter_flatMap, List.map_eq_flatMap]
  exact List.flatMap_congr fun component _ =>
    filter_componentDetails model component

/-! ## Dependencies -/

/-- The number of rows of dependencies of some sort. -/
def countSort (sort : String) (rows : List (List String)) : Nat :=
  rows.countP fun row => row.getLast? = some sort

theorem sort_dependencyRow (dependency : Dependency) :
    ((dependencyRow dependency).getLast? = some "Direct" ↔
      dependency.direct = true) ∧
    ((dependencyRow dependency).getLast? = some "Transitive" ↔
      ¬ dependency.direct = true) := by
  have last : (dependencyRow dependency).getLast? =
      some (if dependency.direct then "Direct" else "Transitive") := rfl
  rw [last]
  split
  · next direct => simp [direct]
  · next transitive => simp [transitive]

section Rows

variable {rows : List (List String)} {dependencies : List Dependency}
  (once : rows.Perm (dependencies.map dependencyRow))

include once

theorem countSort_direct :
    countSort "Direct" rows =
      (dependencies.filter Dependency.direct).length := by
  rw [countSort, once.countP_eq, List.countP_map,
    ← List.countP_eq_length_filter]
  refine List.countP_congr fun dependency _ => ?_
  rw [Function.comp_apply, decide_eq_true_iff]
  exact (sort_dependencyRow dependency).1

theorem countSort_transitive :
    countSort "Transitive" rows = dependencies.length -
      (dependencies.filter Dependency.direct).length := by
  have all := List.length_eq_countP_add_countP Dependency.direct
    (l := dependencies)
  have others : countSort "Transitive" rows =
      dependencies.countP fun dependency => ¬ dependency.direct = true := by
    rw [countSort, once.countP_eq, List.countP_map]
    refine List.countP_congr fun dependency _ => ?_
    rw [Function.comp_apply, decide_eq_true_iff, decide_eq_true_iff]
    exact (sort_dependencyRow dependency).2
  rw [others, ← List.countP_eq_length_filter]
  omega

/-- The summary of dependencies counts their rows. -/
theorem dependencySummary_eq :
    dependencySummary dependencies = countTable
        [("Total Dependencies", rows.length),
          ("Direct Dependencies", countSort "Direct" rows),
          ("Transitive Dependencies", countSort "Transitive" rows)] ∧
      countSort "Direct" rows + countSort "Transitive" rows = rows.length := by
  have total : rows.length = dependencies.length := by
    rw [once.length_eq, List.length_map]
  have least := List.length_filter_le Dependency.direct dependencies
  rw [countSort_direct once, countSort_transitive once, total]
  exact ⟨rfl, by omega⟩

end Rows

/-! ## Entities -/

theorem rows_entitySection (model : Model) (entity : DataEntity) :
    (entitySection model entity).rows = entity.fields.map fieldRow := by
  rw [Section.rows, entitySection]
  by_cases none : entity.fields = []
  · simp [none]
  · simp [none]

/-! ## What the catalogs list -/

/-- Each catalog is drawn as a page that lists every item once: endpoints and
dependencies by owner, message flows by topic, components by kind with the
details of each of them behind, and entities with their fields.  The counts of
direct and transitive dependencies add up to the number of rows. -/
theorem catalogs_list_once (model : Model) :
    (∃ page owners, DrawnAs model .endpoints page ∧
      FirstOccurrences owners (model.endpoints.map Endpoint.component) ∧
      Lists Endpoint.component model.endpoints model.componentName
        ["Method", "Path", "Type", "Authentication", "Description"]
        endpointRow owners page.sections) ∧
    (∃ page owners direct transitive, DrawnAs model .dependencies page ∧
      FirstOccurrences owners (model.dependencies.map Dependency.source) ∧
      Lists Dependency.source model.dependencies model.componentName
        ["Group", "Artifact", "Version", "Scope", "Type"]
        dependencyRow owners page.sections ∧
      page.closing = ["## Dependency Summary", ""] ++
        (countTable
          [("Total Dependencies", direct + transitive),
            ("Direct Dependencies", direct),
            ("Transitive Dependencies", transitive)]).lines ∧
      direct = countSort "Direct" (page.sections.flatMap Section.rows) ∧
      transitive = countSort "Transitive"
        (page.sections.flatMap Section.rows) ∧
      direct + transitive = (page.sections.flatMap Section.rows).length) ∧
    (∃ page topics, DrawnAs model .flows page ∧
      FirstOccurrences topics (model.flows.map MessageFlow.topic) ∧
      Lists MessageFlow.topic model.flows id
        ["Publisher", "Subscriber", "Message Type", "Schema"]
        (flowRow model) topics page.sections) ∧
    (∃ page kinds, DrawnAs model .component page ∧
      (∀ kind, kind ∈ kinds ↔ kind ∈ model.components.map Component.kind) ∧
      kinds.Pairwise (fun one other =>
        ComponentKind.all.idxOf one < ComponentKind.all.idxOf other) ∧
      Lists Component.kind model.components (fun kind => spaced kind.name)
        ["Name", "Technology", "Repository", "Description"]
        componentRow kinds page.sections ∧
      page.closing = "## Component Details" ::
        model.components.flatMap (componentDetails model) ∧
      page.closing.filter isDetailTitle =
        model.components.map fun component => "### " ++ component.name) ∧
    ∃ page, DrawnAs model .entities page ∧
      List.Forall₂ (fun entity (part : Section) =>
        part.title = entity.name ∧ part.rows = entity.fields.map fieldRow)
        model.entities page.sections := by
  refine ⟨?endpoints, ?dependencies, ?flows, ?components, ?entities⟩
  case endpoints =>
    obtain ⟨owners, first, lists⟩ := exists_lists_groupBy Endpoint.component
      model.endpoints model.componentName
      ["Method", "Path", "Type", "Authentication", "Description"] endpointRow
      fun _ _ => []
    exact ⟨endpointCatalog model, owners, drawnAs_of_catalog? rfl, first, lists⟩
  case dependencies =>
    obtain ⟨owners, first, lists⟩ := exists_lists_groupBy Dependency.source
      model.dependencies model.componentName
      ["Group", "Artifact", "Version", "Scope", "Type"] dependencyRow
      fun _ _ => []
    have once : ((dependencyCatalog model).sections.flatMap
        Section.rows).Perm (model.dependencies.map dependencyRow) := lists.once
    obtain ⟨summary, total⟩ := dependencySummary_eq once
    refine ⟨dependencyCatalog model, owners, _, _, drawnAs_of_catalog? rfl,
      first, lists, ?_, rfl, rfl, total⟩
    rw [total, ← summary]
    rfl
  case flows =>
    obtain ⟨topics, first, lists⟩ := exists_lists_groupBy MessageFlow.topic
      model.flows id ["Publisher", "Subscriber", "Message Type", "Schema"]
      (flowRow model) fun _ flows =>
        ["**Broker:** " ++ (flows.findSome? MessageFlow.broker).getD "Unknown",
          ""]
    exact ⟨flowCatalog model, topics, drawnAs_of_catalog? rfl, first, lists⟩
  case components =>
    exact ⟨componentCatalog model, kindsOf model.components,
      drawnAs_of_catalog? rfl, fun _ => mem_kindsOf,
      pairwise_kindsOf model.components,
      lists_componentSections model.components, rfl, filter_details model⟩
  case entities =>
    refine ⟨entityCatalog model, drawnAs_of_catalog? rfl, ?_⟩
    rw [entityCatalog, List.forall₂_map_right_iff, List.forall₂_same]
    exact fun entity _ => ⟨rfl, rows_entitySection model entity⟩

end ArchSurvey.Catalog
