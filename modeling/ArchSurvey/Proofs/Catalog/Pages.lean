import ArchSurvey.Proofs.Diagram.Generator

/-!
# Pages of catalogs

A catalog is drawn as the lines of a page.  The tables of a page stand in it
line by line, and of the other lines only descriptions of entities may start
with a bar.
-/

namespace ArchSurvey.Catalog

open Diagram

/-- Whatever the options, the catalog of a kind is drawn as a page. -/
def DrawnAs (model : Model) (kind : DiagramKind) (page : Page) : Prop :=
  ∃ name, ∀ options, Generator.catalogs.draw options model kind =
    .ok ⟨name, textOfLines page.lines⟩

theorem drawnAs_of_catalog? {model : Model} {kind : DiagramKind}
    {name : String} {page : Page}
    (found : Generator.catalog? model kind = some (name, page)) :
    DrawnAs model kind page := by
  refine ⟨name, fun options => ?_⟩
  rw [Generator.draw_eq_ok_iff, Generator.draw?, found]
  rfl

/-- The rows of the table of a section, if it has one. -/
def Section.rows (part : Section) : List (List String) :=
  part.table.toList.flatMap Table.rows

/-- The tables of the sections of a page. -/
def Page.tables (page : Page) : List Table :=
  page.sections.filterMap Section.table

/-- The tables that the catalog of a kind shows. -/
def tables (model : Model) : DiagramKind → List Table
  | .endpoints => (endpointCatalog model).tables
  | .component => (componentCatalog model).tables
  | .dependencies =>
      (dependencyCatalog model).tables ++
        if model.dependencies.isEmpty then []
        else [dependencySummary model.dependencies]
  | .entities => (entityCatalog model).tables
  | .flows => (flowCatalog model).tables
  | _ => []

/-! ## The details of a component -/

/-- A line of a list, which may be indented. -/
def IsListed (line : String) : Prop :=
  line.toList.head? ∈ [some '-', some ' ']

theorem isListed_fact (name value : String) : IsListed (fact name value) := by
  simp [IsListed, fact]

theorem isListed_of_mem_metadataLines {metadata : List (String × String)}
    {line : String} (member : line ∈ metadataLines metadata) :
    IsListed line := by
  rw [metadataLines] at member
  split at member
  · cases member
  · rcases List.mem_cons.mp member with rfl | entry
    · simp [IsListed]
    · obtain ⟨pair, -, rfl⟩ := List.mem_map.mp entry
      simp [IsListed]

theorem isListed_of_mem_countLines {name unit line : String} {count : Nat}
    (member : line ∈ countLines name unit count) : IsListed line := by
  rw [countLines] at member
  split at member
  · cases member
  · rw [List.mem_singleton.mp member]
    exact isListed_fact _ _

/-- The details of a component are a list under its name. -/
theorem exists_componentDetails (model : Model) (component : Component) :
    ∃ facts, componentDetails model component =
        ["", "### " ++ component.name, ""] ++ facts ∧
      ∀ line ∈ facts, IsListed line := by
  refine ⟨fact "Type" component.kind.name ::
      (component.technology.toList.map (fact "Technology") ++
        (component.description.toList.map (fact "Description") ++
          (metadataLines component.metadata ++
            (countLines "Exposed APIs" "endpoint(s)"
                (model.endpointsOf component.id).length ++
              countLines "Data Entities" "entity/entities"
                (model.entitiesOf component.id).length)))),
    by simp [componentDetails], ?_⟩
  intro line member
  simp only [List.mem_cons, List.mem_append, List.mem_map] at member
  rcases member with rfl | ⟨_, _, rfl⟩ | ⟨_, _, rfl⟩ |
    metadata | endpoints | entities
  · exact isListed_fact _ _
  · exact isListed_fact _ _
  · exact isListed_fact _ _
  · exact isListed_of_mem_metadataLines metadata
  · exact isListed_of_mem_countLines endpoints
  · exact isListed_of_mem_countLines entities

/-! ## Where tables stand -/

section Pages

variable {page : Page} {table : Table}

theorem Page.lines_of_ne_nil (some : page.sections ≠ []) :
    page.lines = ["# " ++ page.title, ""] ++
      (page.sections.flatMap Section.lines ++ page.closing) := by
  rw [lines, if_neg (by simpa using some)]

theorem Page.table_isInfix (member : table ∈ page.tables) :
    table.lines <:+: page.lines := by
  obtain ⟨part, shown, held⟩ := List.mem_filterMap.mp member
  have inPart : table.lines <:+: part.lines := by
    rw [Section.lines, held]
    exact ⟨["## " ++ part.title, ""] ++ part.introduction, [""],
      List.append_assoc _ _ _⟩
  have inSections : part.lines <:+: page.sections.flatMap Section.lines := by
    obtain ⟨before, after, split⟩ := List.append_of_mem shown
    exact ⟨before.flatMap Section.lines, after.flatMap Section.lines,
      by simp [split]⟩
  have inPage : page.sections.flatMap Section.lines <:+: page.lines := by
    rw [page.lines_of_ne_nil (List.ne_nil_of_mem shown)]
    exact ⟨_, page.closing, List.append_assoc _ _ _⟩
  exact inPart.trans (inSections.trans inPage)

theorem Page.closing_suffix (some : page.sections ≠ []) :
    page.closing <:+ page.lines := by
  rw [page.lines_of_ne_nil some, ← List.append_assoc]
  exact List.suffix_append _ _

end Pages

theorem groupBy_ne_nil {α κ : Type} [DecidableEq κ] (key : α → κ)
    {items : List α} (some : items ≠ []) : groupBy key items ≠ [] := by
  obtain ⟨item, rest, rfl⟩ := List.exists_cons_of_ne_nil some
  simp [groupBy, firstByKey, firstByKeyFrom]

/-- The tables of a catalog stand in its page. -/
theorem tables_isInfix {model : Model} {kind : DiagramKind} {name : String}
    {page : Page} (found : Generator.catalog? model kind = some (name, page))
    {table : Table} (member : table ∈ tables model kind) :
    table.lines <:+: page.lines := by
  cases kind with
  | endpoints | component | entities | flows =>
      cases found
      exact Page.table_isInfix member
  | dependencies =>
      cases found
      rcases List.mem_append.mp member with section_ | summary
      · exact Page.table_isInfix section_
      · by_cases none : model.dependencies = []
        · simp [none] at summary
        · have only : table = dependencySummary model.dependencies := by
            simpa [none] using summary
          have some : (dependencyCatalog model).sections ≠ [] := by
            simpa [dependencyCatalog] using groupBy_ne_nil _ none
          rw [only]
          exact (List.suffix_append _ _).isInfix.trans
            (Page.closing_suffix some).isInfix
  | context | container | deployment | sequence => cases found

/-! ## Lines with a bar in front -/

/-- A line that a reader takes for one of a table. -/
def HasBar (line : String) : Prop :=
  line.toList.head? = some '|'

section Parts

variable {line : String}

theorem Section.cases_of_hasBar {part : Section} (member : line ∈ part.lines)
    (bar : HasBar line) :
    (∃ table, part.table = some table ∧ line ∈ table.lines) ∨
      line ∈ part.introduction := by
  rw [Section.lines, List.mem_append, List.mem_append] at member
  rcases member with (heading | introduction) | row
  · simp only [List.mem_cons, List.not_mem_nil, or_false] at heading
    rcases heading with rfl | rfl <;> simp [HasBar] at bar
  · exact .inr introduction
  · cases held : part.table with
    | none => simp [held] at row
    | some table =>
        rw [held] at row
        rcases List.mem_append.mp row with inTable | blank
        · exact .inl ⟨table, rfl, inTable⟩
        · obtain rfl := List.mem_singleton.mp blank
          simp [HasBar] at bar

/-- A line with a bar in front belongs to a table, to the introduction of a
section or to what follows the sections. -/
theorem Page.cases_of_hasBar {page : Page} (member : line ∈ page.lines)
    (bar : HasBar line) :
    (∃ table ∈ page.tables, line ∈ table.lines) ∨
      (∃ part ∈ page.sections, line ∈ part.introduction) ∨
      page.sections ≠ [] ∧ line ∈ page.closing := by
  have front : line ∉ ["# " ++ page.title, ""] := by
    intro inside
    simp only [List.mem_cons, List.not_mem_nil, or_false] at inside
    rcases inside with rfl | rfl <;> simp [HasBar] at bar
  by_cases none : page.sections = []
  · have only : line = "No " ++ page.subject ++ " found in the system." := by
      rw [lines, List.mem_append] at member
      simpa [none] using member.resolve_left front
    rw [only] at bar
    simp [HasBar] at bar
  · rw [page.lines_of_ne_nil none, List.mem_append, List.mem_append] at member
    rcases member.resolve_left front with inside | closing
    · obtain ⟨part, shown, here⟩ := List.mem_flatMap.mp inside
      rcases Section.cases_of_hasBar here bar with
        ⟨table, held, row⟩ | introduction
      · exact .inl ⟨table, List.mem_filterMap.mpr ⟨part, shown, held⟩, row⟩
      · exact .inr (.inl ⟨part, shown, introduction⟩)
    · exact .inr (.inr ⟨none, closing⟩)

/-- Where nothing else has a bar in front, every line with one belongs to a
table. -/
theorem Page.table_of_hasBar {page : Page}
    (introduced : ∀ part ∈ page.sections, ∀ line ∈ part.introduction,
      ¬ HasBar line)
    (closed : ∀ line ∈ page.closing, ¬ HasBar line)
    (member : line ∈ page.lines) (bar : HasBar line) :
    ∃ table ∈ page.tables, line ∈ table.lines := by
  rcases Page.cases_of_hasBar member bar with
    inTable | ⟨part, shown, introduction⟩ | ⟨-, closing⟩
  · exact inTable
  · exact absurd bar (introduced part shown line introduction)
  · exact absurd bar (closed line closing)

theorem IsListed.not_hasBar (listed : IsListed line) : ¬ HasBar line := by
  rw [HasBar]
  intro bar
  rw [IsListed, bar] at listed
  revert listed
  decide

theorem not_hasBar_of_mem_details {model : Model} {component : Component}
    (member : line ∈ componentDetails model component) : ¬ HasBar line := by
  obtain ⟨facts, spelled, listed⟩ := exists_componentDetails model component
  rw [spelled, List.mem_append] at member
  rcases member with heading | inList
  · simp only [List.mem_cons, List.not_mem_nil, or_false] at heading
    rcases heading with rfl | rfl | rfl <;> simp [HasBar]
  · exact (listed line inList).not_hasBar

/-- Of what introduces an entity only the description may have a bar. -/
theorem description_of_mem_introduction {model : Model} {entity : DataEntity}
    (member : line ∈ (entitySection model entity).introduction)
    (bar : HasBar line) : entity.description = some line := by
  simp only [entitySection, List.mem_append, List.mem_flatMap, List.mem_cons,
    List.mem_map, List.not_mem_nil, or_false, Option.mem_toList,
    or_assoc] at member
  rcases member with ⟨description, given, rfl | rfl⟩ | rfl | ⟨_, _, rfl⟩ |
    rfl | rfl
  · exact given
  · simp [HasBar] at bar
  · exact absurd bar (isListed_fact _ _).not_hasBar
  · exact absurd bar (isListed_fact _ _).not_hasBar
  · exact absurd bar (isListed_fact _ _).not_hasBar
  · simp [HasBar] at bar

end Parts

/-- A line of a catalog with a bar in front is one of a table that the catalog
shows, or the description of an entity. -/
theorem table_of_hasBar {model : Model} {kind : DiagramKind} {name : String}
    {page : Page} (found : Generator.catalog? model kind = some (name, page))
    {line : String} (member : line ∈ page.lines) (bar : HasBar line) :
    (∃ table ∈ tables model kind, line ∈ table.lines) ∨
      kind = .entities ∧ ∃ entity ∈ model.entities,
        entity.description = some line := by
  cases kind with
  | context | container | deployment | sequence => cases found
  | endpoints =>
      cases found
      refine .inl (Page.table_of_hasBar ?_ (by simp [endpointCatalog])
        member bar)
      exact List.forall_mem_map.mpr fun _ _ _ none => nomatch none
  | component =>
      cases found
      refine .inl (Page.table_of_hasBar ?_ ?_ member bar)
      · exact List.forall_mem_map.mpr fun _ _ _ none => nomatch none
      · intro line closing
        rcases List.mem_cons.mp closing with rfl | inside
        · simp [HasBar]
        · obtain ⟨component, -, details⟩ := List.mem_flatMap.mp inside
          exact not_hasBar_of_mem_details details
  | dependencies =>
      cases found
      rcases Page.cases_of_hasBar member bar with
        ⟨table, held, row⟩ | ⟨part, shown, introduction⟩ | ⟨filled, closing⟩
      · exact .inl ⟨table, List.mem_append_left _ held, row⟩
      · obtain ⟨group, -, rfl⟩ := List.mem_map.mp shown
        cases introduction
      · have some : model.dependencies ≠ [] := by
          rintro none
          exact filled (by simp [dependencyCatalog, none, groupBy, firstByKey,
            firstByKeyFrom])
        rcases List.mem_append.mp closing with heading | row
        · simp only [List.mem_cons, List.not_mem_nil, or_false] at heading
          rcases heading with rfl | rfl <;> simp [HasBar] at bar
        · exact .inl ⟨dependencySummary model.dependencies,
            by simp [tables, some], row⟩
  | entities =>
      cases found
      rcases Page.cases_of_hasBar member bar with
        inTable | ⟨part, shown, introduction⟩ | ⟨-, closing⟩
      · exact .inl inTable
      · obtain ⟨entity, stored, rfl⟩ := List.mem_map.mp shown
        exact .inr ⟨rfl, entity, stored,
          description_of_mem_introduction introduction bar⟩
      · cases closing
  | flows =>
      cases found
      refine .inl (Page.table_of_hasBar ?_ (by simp [flowCatalog]) member bar)
      refine List.forall_mem_map.mpr fun group _ line introduction => ?_
      simp only [List.mem_cons, List.not_mem_nil, or_false] at introduction
      rcases introduction with rfl | rfl <;> simp [HasBar]

end ArchSurvey.Catalog
