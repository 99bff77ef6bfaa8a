import ArchSurvey.Schema.Replay
import Mathlib.Data.List.Induction
import Mathlib.Data.List.Nodup

/-!
# Replayed tables

Statements are replayed one by one, and each acts where the table that it
names stands.  No two tables ever have the same name, so there is one such
place at most, and what stands before and after it stays as it is.  What a
statement makes of the table of a name follows from that table alone, so a
replay can be followed for one name at a time.
-/

namespace ArchSurvey.Schema

/-- The table that a statement names. -/
def Statement.table : Statement → String
  | .createTable definition _ => definition.name
  | .addColumn table _ => table
  | .dropColumn table _ => table
  | .addForeignKey table _ _ => table
  | .addPrimaryKey table _ => table
  | .dropTable table => table

/-- What a statement makes of an existing table that it alters. -/
def Statement.alteration? : Statement → Option (Table → Table)
  | .addColumn _ column => some (Table.addColumn column)
  | .dropColumn _ column => some (Table.dropColumn column)
  | .addForeignKey _ column references =>
      some (Table.addForeignKey column references)
  | .addPrimaryKey _ columns => some (Table.addPrimaryKey columns)
  | .createTable _ _ | .dropTable _ => none

/-- The column that a statement is about and does not add. -/
def Statement.column? : Statement → Option String
  | .dropColumn _ column => some column
  | .addForeignKey _ column _ => some column
  | .createTable _ _ | .dropTable _ | .addColumn _ _ | .addPrimaryKey _ _ =>
      none

def names (tables : List Table) : List String :=
  tables.map Table.name

/-- The table has a column. -/
def Table.Has (table : Table) (column : String) : Prop :=
  ∃ field ∈ table.fields, field.name = column

/-- What a statement does to tables, by the place of the table it names. -/
inductive Effect (source : String) :
    Statement → List Table → List Table → Prop where
  | replace {definition : TableDefinition} {front back : List Table}
      {old : Table} :
      old.name = definition.name →
      Effect source (.createTable definition false) (front ++ old :: back)
        (front ++ .ofDefinition source definition :: back)
  | keep {definition : TableDefinition} {tables : List Table} :
      definition.name ∈ names tables →
      Effect source (.createTable definition true) tables tables
  | append {definition : TableDefinition} {unlessExists : Bool}
      {tables : List Table} :
      definition.name ∉ names tables →
      Effect source (.createTable definition unlessExists) tables
        (tables ++ [.ofDefinition source definition])
  | drop {front back : List Table} {old : Table} :
      Effect source (.dropTable old.name) (front ++ old :: back)
        (front ++ back)
  | alter {statement : Statement} {change : Table → Table}
      {front back : List Table} {old : Table} :
      statement.alteration? = some change → old.name = statement.table →
      Effect source statement (front ++ old :: back)
        (front ++ change old :: back)
  | miss {statement : Statement} {tables : List Table} :
      (∀ definition unlessExists,
        statement ≠ .createTable definition unlessExists) →
      statement.table ∉ names tables →
      Effect source statement tables tables

section Places

variable {name : String} {tables front back : List Table} {old : Table}
  {change : Table → Table}

@[simp] theorem names_append (front back : List Table) :
    names (front ++ back) = names front ++ names back :=
  List.map_append

@[simp] theorem names_cons (table : Table) (tables : List Table) :
    names (table :: tables) = table.name :: names tables :=
  rfl

/-- The one table of a name, with those before and after it. -/
theorem exists_place (distinct : (names tables).Nodup)
    (member : name ∈ names tables) :
    ∃ front old back, tables = front ++ old :: back ∧ old.name = name ∧
      name ∉ names front ∧ name ∉ names back := by
  obtain ⟨old, inside, rfl⟩ := List.mem_map.mp member
  obtain ⟨front, back, rfl⟩ := List.append_of_mem inside
  rw [names_append, names_cons, List.nodup_middle, List.nodup_cons,
    List.mem_append, not_or] at distinct
  exact ⟨front, old, back, rfl, rfl, distinct.1.1, distinct.1.2⟩

theorem hasTable_iff : hasTable name tables = true ↔ name ∈ names tables := by
  simp [hasTable, names]

theorem names_changeTable
    (keeps : ∀ table, (change table).name = table.name) :
    names (changeTable name change tables) = names tables := by
  induction tables with
  | nil => rfl
  | cons table rest ih =>
      rw [changeTable]
      split
      · rw [names_cons, names_cons, keeps]
      · rw [names_cons, names_cons, ih]

theorem changeTable_of_not_mem (unknown : name ∉ names tables) :
    changeTable name change tables = tables := by
  induction tables with
  | nil => rfl
  | cons table rest ih =>
      rw [names_cons, List.mem_cons, not_or] at unknown
      rw [changeTable, ih unknown.2, if_neg]
      simpa using Ne.symm unknown.1

theorem changeTable_place (before : old.name ∉ names front) :
    changeTable old.name change (front ++ old :: back) =
      front ++ change old :: back := by
  induction front with
  | nil => simp [changeTable]
  | cons table front ih =>
      rw [names_cons, List.mem_cons, not_or] at before
      rw [List.cons_append, changeTable, ih before.2, if_neg]
      · rfl
      · simpa using Ne.symm before.1

theorem filter_ne_of_not_mem (unknown : name ∉ names tables) :
    tables.filter (fun table => table.name != name) = tables := by
  rw [List.filter_eq_self]
  intro table member
  simp only [bne_iff_ne]
  rintro rfl
  exact unknown (List.mem_map_of_mem member)

end Places

section Alterations

variable {statement : Statement} {change : Table → Table} {table : Table}
  {column : String}

/-- An altered table keeps its name. -/
theorem name_alteration (alters : statement.alteration? = some change) :
    (change table).name = table.name := by
  cases statement with
  | createTable definition unlessExists => cases alters
  | dropTable table => cases alters
  | addColumn table column => cases alters; rfl
  | dropColumn table column => cases alters; rfl
  | addForeignKey table column references => cases alters; rfl
  | addPrimaryKey table columns => cases alters; rfl

theorem pointField_of_absent {references : String} {fields : List Field}
    (absent : ∀ field ∈ fields, field.name ≠ column) :
    Table.pointField column references fields = fields := by
  induction fields with
  | nil => rfl
  | cons field rest ih =>
      rw [List.forall_mem_cons] at absent
      rw [Table.pointField, ih absent.2, if_neg (by simpa using absent.1)]

/-- An alteration of a column that the table does not have is none. -/
theorem alteration_of_absent (alters : statement.alteration? = some change)
    (about : statement.column? = some column) (absent : ¬table.Has column) :
    change table = table := by
  have other : ∀ field ∈ table.fields, field.name ≠ column :=
    fun field member equal => absent ⟨field, member, equal⟩
  cases statement with
  | createTable definition unlessExists => cases about
  | dropTable table => cases about
  | addColumn table column => cases about
  | addPrimaryKey table columns => cases about
  | dropColumn _ dropped =>
      cases alters
      cases about
      have same : table.fields.filter (fun field => field.name != column) =
          table.fields := by simpa using other
      rw [Table.dropColumn, same]
  | addForeignKey _ pointing references =>
      cases alters
      cases about
      rw [Table.addForeignKey, pointField_of_absent other]

/-- A primary key is recorded as it is named, whether or not the table has the
columns. -/
theorem addPrimaryKey_of_absent {columns : List String}
    (absent : ∀ column ∈ columns, ¬table.Has column) :
    table.addPrimaryKey columns = { table with key := some columns } := by
  have same : table.fields.map (fun field =>
      if columns.contains field.name then { field with nullable := false }
      else field) = table.fields := by
    conv_rhs => rw [← List.map_id table.fields]
    refine List.map_congr_left fun field member => if_neg fun named => ?_
    exact absent _ (List.contains_iff_mem.mp named) ⟨field, member, rfl⟩
  rw [Table.addPrimaryKey, same]

end Alterations

section Steps

variable {source : String} {statement : Statement}
  {tables before after : List Table}

/-- A statement that alters a table does what its alteration does. -/
theorem apply_of_alteration {change : Table → Table}
    (alters : statement.alteration? = some change) :
    apply source tables statement =
      changeTable statement.table change tables := by
  cases statement with
  | createTable definition unlessExists => cases alters
  | dropTable table => cases alters
  | addColumn table column => cases alters; rfl
  | dropColumn table column => cases alters; rfl
  | addForeignKey table column references => cases alters; rfl
  | addPrimaryKey table columns => cases alters; rfl

theorem effect_create (definition : TableDefinition) (unlessExists : Bool)
    (distinct : (names tables).Nodup) :
    Effect source (.createTable definition unlessExists) tables
      (apply source tables (.createTable definition unlessExists)) := by
  by_cases known : definition.name ∈ names tables
  · have present := hasTable_iff.mpr known
    cases unlessExists with
    | true => simpa [apply, present] using .keep known
    | false =>
        obtain ⟨front, old, back, rfl, named, fresh, -⟩ :=
          exists_place distinct known
        have changed : changeTable definition.name
            (fun _ => Table.ofDefinition source definition)
            (front ++ old :: back) =
              front ++ Table.ofDefinition source definition :: back := by
          rw [← named] at fresh ⊢
          exact changeTable_place fresh
        simpa [apply, present, changed] using .replace named
  · have absent : hasTable definition.name tables = false := by
      simpa using mt hasTable_iff.mp known
    simpa [apply, absent] using .append known

theorem effect_drop (name : String) (distinct : (names tables).Nodup) :
    Effect source (.dropTable name) tables
      (apply source tables (.dropTable name)) := by
  rw [apply]
  by_cases known : name ∈ names tables
  · obtain ⟨front, old, back, rfl, rfl, fresh, later⟩ :=
      exists_place distinct known
    have others : (front ++ old :: back).filter
        (fun table => table.name != old.name) = front ++ back := by
      simp [List.filter_append, filter_ne_of_not_mem fresh,
        filter_ne_of_not_mem later]
    rw [others]
    exact .drop
  · rw [filter_ne_of_not_mem known]
    exact .miss (fun _ _ => by simp) known

theorem effect_alter {change : Table → Table}
    (alters : statement.alteration? = some change)
    (distinct : (names tables).Nodup) :
    Effect source statement tables (apply source tables statement) := by
  rw [apply_of_alteration alters]
  by_cases known : statement.table ∈ names tables
  · obtain ⟨front, old, back, rfl, named, fresh, -⟩ :=
      exists_place distinct known
    rw [← named, changeTable_place (named ▸ fresh)]
    exact .alter alters named
  · rw [changeTable_of_not_mem known]
    refine .miss (fun definition unlessExists equal => ?_) known
    rw [equal] at alters
    cases alters

/-- What a statement does to tables of different names. -/
theorem effect_apply (source : String) (statement : Statement)
    (distinct : (names tables).Nodup) :
    Effect source statement tables (apply source tables statement) := by
  cases statement with
  | createTable definition unlessExists =>
      exact effect_create definition unlessExists distinct
  | dropTable name => exact effect_drop name distinct
  | addColumn table column => exact effect_alter rfl distinct
  | dropColumn table column => exact effect_alter rfl distinct
  | addForeignKey table column references => exact effect_alter rfl distinct
  | addPrimaryKey table columns => exact effect_alter rfl distinct

namespace Effect

/-- No statement makes two tables of one name. -/
theorem nodup (effect : Effect source statement before after)
    (distinct : (names before).Nodup) : (names after).Nodup := by
  cases effect with
  | replace named =>
      simpa [Table.ofDefinition, named] using distinct
  | keep _ => exact distinct
  | @append definition _ _ fresh =>
      rw [names_append]
      exact List.nodup_append.mpr ⟨distinct, by simp [names], by
        simpa [names, Table.ofDefinition] using fresh⟩
  | drop =>
      rw [names_append, names_cons, List.nodup_middle, List.nodup_cons]
        at distinct
      simpa using distinct.2
  | alter alters _ => simpa [name_alteration alters] using distinct
  | miss _ _ => exact distinct

/-- The tables that a statement does not name stay as they are, in their
order. -/
theorem others (effect : Effect source statement before after) :
    after.filter (fun table => table.name != statement.table) =
      before.filter fun table => table.name != statement.table := by
  cases effect with
  | replace named =>
      simp [List.filter_append, Statement.table, Table.ofDefinition, named]
  | keep _ => rfl
  | append _ =>
      simp [List.filter_append, Statement.table, Table.ofDefinition]
  | drop => simp [List.filter_append, Statement.table]
  | alter alters named =>
      simp [List.filter_append, name_alteration alters, named]
  | miss _ _ => rfl

/-- A statement about a column that its table does not have does nothing. -/
theorem of_absent_column {column : String}
    (effect : Effect source statement before after)
    (about : statement.column? = some column)
    (absent : ∀ table ∈ before, table.name = statement.table →
      ¬table.Has column) : after = before := by
  cases effect with
  | replace _ => cases about
  | keep _ => cases about
  | append _ => cases about
  | drop => cases about
  | alter alters named =>
      rw [alteration_of_absent alters about (absent _ (by simp) named)]
  | miss _ _ => rfl

end Effect

end Steps

section Replays

/-- A statement and the script that it belongs to. -/
structure Step where
  source : String
  statement : Statement
  deriving DecidableEq, Repr

/-- The steps of a script. -/
def Script.steps (script : Script) : List Step :=
  script.statements.map fun statement => ⟨script.source, statement⟩

/-- The tables after some steps. -/
def tablesAfter (steps : List Step) : List Table :=
  steps.foldl (fun tables step => apply step.source tables step.statement) []

theorem tablesAfter_append_step (front : List Step) (step : Step) :
    tablesAfter (front ++ [step]) =
      apply step.source (tablesAfter front) step.statement := by
  simp [tablesAfter]

/-- Scripts are replayed step by step. -/
theorem replay_eq_tablesAfter (scripts : List Script) :
    replay scripts = tablesAfter (scripts.flatMap Script.steps) := by
  rw [replay, tablesAfter, List.foldl_flatMap]
  congr 1
  funext tables script
  rw [applyScript, Script.steps, List.foldl_map]

/-- No two tables ever have the same name. -/
theorem nodup_tablesAfter (steps : List Step) :
    (names (tablesAfter steps)).Nodup := by
  induction steps using List.reverseRecOn with
  | nil => exact List.nodup_nil
  | append_singleton front step distinct =>
      rw [tablesAfter_append_step]
      exact (effect_apply step.source step.statement distinct).nodup distinct

theorem replay_append_script (history : List Script) (script : Script) :
    replay (history ++ [script]) = applyScript (replay history) script := by
  simp [replay]

theorem nodup_replay (history : List Script) :
    (names (replay history)).Nodup := by
  rw [replay_eq_tablesAfter]
  exact nodup_tablesAfter _

/-- A step that adds a primary key of columns that its table does not have
records the key and does nothing else. -/
theorem tablesAfter_addPrimaryKey {front : List Step} {source name : String}
    {columns : List String} (absent : ∀ table ∈ tablesAfter front,
      table.name = name → ∀ column ∈ columns, ¬table.Has column) :
    tablesAfter (front ++ [⟨source, .addPrimaryKey name columns⟩]) =
      changeTable name (fun table => { table with key := some columns })
        (tablesAfter front) := by
  rw [tablesAfter_append_step, apply]
  by_cases known : name ∈ names (tablesAfter front)
  · obtain ⟨before, old, after, split, rfl, fresh, -⟩ :=
      exists_place (nodup_tablesAfter front) known
    rw [split, changeTable_place fresh, changeTable_place fresh,
      addPrimaryKey_of_absent (absent old (by simp [split]) rfl)]
  · rw [changeTable_of_not_mem known, changeTable_of_not_mem known]

/-- Scripts are replayed step by step.  After any steps the tables have
different names, and the next one acts at the place of the table that it names:
it does nothing to other tables, to an unknown table or for an unknown column,
except that it records a primary key of unknown columns as it is named. -/
theorem replay_by_steps :
    (∀ scripts : List Script,
      replay scripts = tablesAfter (scripts.flatMap Script.steps)) ∧
    ∀ front : List Step, (names (tablesAfter front)).Nodup ∧
      ∀ (source : String) (statement : Statement),
        let before := tablesAfter front
        let after := tablesAfter (front ++ [⟨source, statement⟩])
        Effect source statement before after ∧
          after.filter (fun table => table.name != statement.table) =
            before.filter (fun table => table.name != statement.table) ∧
          (∀ column, statement.column? = some column →
            (∀ table ∈ before, table.name = statement.table →
              ¬table.Has column) → after = before) ∧
          ∀ columns, statement = .addPrimaryKey statement.table columns →
            (∀ table ∈ before, table.name = statement.table →
              ∀ column ∈ columns, ¬table.Has column) →
            after = changeTable statement.table
              (fun table => { table with key := some columns }) before := by
  refine ⟨replay_eq_tablesAfter, fun front => ?_⟩
  have distinct := nodup_tablesAfter front
  refine ⟨distinct, fun source statement => ?_⟩
  intro before after
  have effect : Effect source statement before after := by
    have applied := effect_apply source statement distinct
    rwa [← tablesAfter_append_step front ⟨source, statement⟩] at applied
  refine ⟨effect, effect.others, fun column about absent =>
    effect.of_absent_column about absent, fun columns keyed absent => ?_⟩
  have added := @tablesAfter_addPrimaryKey front source _ columns absent
  rwa [← keyed] at added

/-- A primary key of a column that its table does not have changes the table,
although a foreign key of such a column would not. -/
theorem addPrimaryKey_of_absent_column_changes :
    let orders : TableDefinition :=
      { name := "orders", columns := [⟨"total", "INT", true, false, none⟩] }
    let front : List Step := [⟨"V1__init.sql", .createTable orders false⟩]
    (∀ table ∈ tablesAfter front, ¬table.Has "id") ∧
      tablesAfter (front ++ [⟨"V2__key.sql", .addPrimaryKey "orders" ["id"]⟩]) ≠
        tablesAfter front := by
  simp [tablesAfter, apply, Table.Has, Table.ofDefinition, Column.field,
    hasTable, changeTable, Table.addPrimaryKey]

end Replays

/-- The table of a name. -/
def tableNamed? (name : String) (tables : List Table) : Option Table :=
  tables.find? fun table => table.name == name

section Lookup

variable {name changed : String} {tables : List Table} {table : Table}
  {change : Table → Table}

theorem tableNamed?_changeTable
    (keeps : ∀ table, table.name = changed → (change table).name = changed) :
    tableNamed? name (changeTable changed change tables) =
      if changed = name then (tableNamed? name tables).map change
      else tableNamed? name tables := by
  unfold tableNamed?
  induction tables with
  | nil => simp [changeTable]
  | cons first rest ih =>
      rw [changeTable]
      by_cases here : first.name = changed
      · -- The first table is the one to change, and keeps its name.
        rw [if_pos (beq_iff_eq.mpr here)]
        by_cases named : changed = name
        · simp [keeps first here, here, named]
        · simp [keeps first here, here, named]
      · rw [if_neg (by simpa using here), List.find?_cons, ih]
        by_cases named : first.name = name
        · have other : changed ≠ name := fun same => here (named.trans same.symm)
          simp [named, other]
        · simp only [List.find?_cons, beq_eq_false_iff_ne.mpr named]

theorem tableNamed?_eq_some (distinct : (names tables).Nodup)
    (stands : table ∈ tables) : tableNamed? table.name tables = some table := by
  induction tables with
  | nil => cases stands
  | cons first rest ih =>
      rw [names_cons, List.nodup_cons] at distinct
      rw [tableNamed?, List.find?_cons]
      rcases List.mem_cons.mp stands with rfl | later
      · simp
      · have other : first.name ≠ table.name := by
          intro same
          rw [same] at distinct
          exact distinct.1 (List.mem_map_of_mem later)
        rw [beq_eq_false_iff_ne.mpr other]
        exact ih distinct.2 later

/-- Tables of different names are told by their names and what these stand
for. -/
theorem eq_of_tableNamed? {others : List Table}
    (distinct : (names tables).Nodup) (same : names others = names tables)
    (found : ∀ name, tableNamed? name others = tableNamed? name tables) :
    others = tables := by
  have told {tables : List Table} (distinct : (names tables).Nodup) :
      (names tables).filterMap (fun name => tableNamed? name tables) =
        tables := by
    rw [names, List.filterMap_map]
    calc
      _ = tables.filterMap some := List.filterMap_congr fun table member =>
        tableNamed?_eq_some distinct member
      _ = tables := List.filterMap_some
  calc
    others = (names others).filterMap fun name => tableNamed? name others :=
      (told (same ▸ distinct)).symm
    _ = (names tables).filterMap fun name => tableNamed? name tables := by
      rw [same]
      simp only [found]
    _ = tables := told distinct

theorem tableNamed?_isSome : (tableNamed? name tables).isSome =
    hasTable name tables := by
  rw [tableNamed?, List.isSome_find?, hasTable]

theorem tableNamed?_append_singleton :
    tableNamed? name (tables ++ [table]) = (tableNamed? name tables).or
      (if table.name = name then some table else none) := by
  rw [tableNamed?, List.find?_append, tableNamed?, List.find?_singleton]
  simp only [beq_iff_eq]

theorem tableNamed?_filter_ne :
    tableNamed? name (tables.filter fun table => table.name != changed) =
      if changed = name then none else tableNamed? name tables := by
  rw [tableNamed?, List.find?_filter]
  by_cases named : changed = name
  · rw [if_pos named, List.find?_eq_none]
    simp [named]
  · rw [if_neg named, tableNamed?]
    congr 1
    funext table
    by_cases here : table.name = name
    · simp [here, Ne.symm named]
    · simp [here]

end Lookup

/-- What a statement makes of the table of a name, if there is one. -/
def Statement.revise (name source : String) (known : Option Table) :
    Statement → Option Table
  | .createTable definition unlessExists =>
      if definition.name = name ∧ ¬(unlessExists = true ∧ known.isSome = true)
      then some (.ofDefinition source definition)
      else known
  | .dropTable table => if table = name then none else known
  | .addColumn table column =>
      if table = name then known.map (Table.addColumn column) else known
  | .dropColumn table column =>
      if table = name then known.map (Table.dropColumn column) else known
  | .addForeignKey table column references =>
      if table = name then known.map (Table.addForeignKey column references)
      else known
  | .addPrimaryKey table columns =>
      if table = name then known.map (Table.addPrimaryKey columns) else known

section Revision

variable {name source : String} {tables : List Table} {statement : Statement}

theorem tableNamed?_create {definition : TableDefinition}
    {unlessExists : Bool} :
    tableNamed? name (apply source tables
        (.createTable definition unlessExists)) =
      Statement.revise name source (tableNamed? name tables)
        (.createTable definition unlessExists) := by
  have own : (Table.ofDefinition source definition).name = definition.name :=
    rfl
  rw [apply, Statement.revise, tableNamed?_isSome]
  by_cases here : definition.name = name
  · subst here
    cases known : hasTable definition.name tables with
    | true =>
        cases unlessExists with
        | true => simp
        | false =>
            rw [← tableNamed?_isSome, Option.isSome_iff_exists] at known
            obtain ⟨table, known⟩ := known
            simp [tableNamed?_changeTable, own, known]
    | false =>
        rw [← tableNamed?_isSome, Option.isSome_eq_false_iff,
          Option.isNone_iff_eq_none] at known
        simp [tableNamed?_append_singleton, own, known]
  · cases hasTable definition.name tables with
    | true =>
        cases unlessExists with
        | true => simp [here]
        | false => simp [tableNamed?_changeTable, own, here]
    | false => simp [tableNamed?_append_singleton, own, here]

/-- A statement revises the table of each name by itself. -/
theorem tableNamed?_apply (name source : String) (tables : List Table)
    (statement : Statement) :
    tableNamed? name (apply source tables statement) =
      statement.revise name source (tableNamed? name tables) := by
  cases statement with
  | createTable definition unlessExists => exact tableNamed?_create
  | dropTable dropped => rw [apply, tableNamed?_filter_ne, Statement.revise]
  | addColumn table column =>
      rw [apply, tableNamed?_changeTable (by intro _ named; exact named),
        Statement.revise]
  | dropColumn table column =>
      rw [apply, tableNamed?_changeTable (by intro _ named; exact named),
        Statement.revise]
  | addForeignKey table column references =>
      rw [apply, tableNamed?_changeTable (by intro _ named; exact named),
        Statement.revise]
  | addPrimaryKey table columns =>
      rw [apply, tableNamed?_changeTable (by intro _ named; exact named),
        Statement.revise]

theorem mem_of_tableNamed? {table : Table}
    (found : tableNamed? name tables = some table) :
    table ∈ tables ∧ table.name = name :=
  ⟨List.mem_of_find?_eq_some found, by simpa using List.find?_some found⟩

end Revision

end ArchSurvey.Schema
