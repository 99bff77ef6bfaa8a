import ArchSurvey.Diagram.Entities
import ArchSurvey.Proofs.Schema.Replay

/-!
# Primary keys of replayed tables

The key of a table follows from the statements that name the table, whatever
the tables around it.  A key that names columns of its table goes on naming
columns of it until one of them is dropped.  The key is then wrong until a
statement settles the column: one that adds it again, sets another key, or makes
or drops the table.

A diagram compares the names of the columns of a key, written in one text, with
the name of each field, so it tells keys of one column only.
-/

namespace ArchSurvey.Schema

/-! ## Columns of keys -/

/-- The columns that the key of a table names. -/
def Table.keyColumns (table : Table) : List String :=
  table.key.getD []

/-- The key that the statement sets names columns of its table. -/
def Statement.KeyKnown (tables : List Table) : Statement → Prop
  | .createTable definition _ =>
      ∀ column ∈ definition.primaryKey,
        ∃ declared ∈ definition.columns, declared.name = column
  | .addPrimaryKey name columns =>
      ∀ table ∈ tables, table.name = name →
        ∀ column ∈ columns, table.Has column
  | .addColumn _ _ | .dropColumn _ _ | .addForeignKey _ _ _ | .dropTable _ =>
      True

instance (table : Table) (column : String) : Decidable (table.Has column) :=
  inferInstanceAs (Decidable (∃ field ∈ table.fields, field.name = column))

instance (tables : List Table) :
    DecidablePred (Statement.KeyKnown tables)
  | .createTable definition _ =>
      inferInstanceAs (Decidable (∀ column ∈ definition.primaryKey,
        ∃ declared ∈ definition.columns, declared.name = column))
  | .addPrimaryKey name columns =>
      inferInstanceAs (Decidable (∀ table ∈ tables, table.name = name →
        ∀ column ∈ columns, table.Has column))
  | .addColumn _ _ | .dropColumn _ _ | .addForeignKey _ _ _ | .dropTable _ =>
      .isTrue trivial

/-- Each key that the steps set names columns that its table has at that
point. -/
def KeysKnown (tables : List Table) : List Step → Prop
  | [] => True
  | step :: steps =>
      step.statement.KeyKnown tables ∧
        KeysKnown (apply step.source tables step.statement) steps

instance decidableKeysKnown (tables : List Table) (steps : List Step) :
    Decidable (KeysKnown tables steps) :=
  match steps with
  | [] => .isTrue trivial
  | step :: steps =>
      have := decidableKeysKnown (apply step.source tables step.statement) steps
      inferInstanceAs (Decidable (_ ∧ _))

/-- After the statement the key of the table does not name the column without
need, whatever it did before: the column is there, or the key or the table is
another one. -/
def Statement.Settles (name column : String) : Statement → Prop
  | .createTable definition unlessExists =>
      definition.name = name ∧ unlessExists = false
  | .dropTable table => table = name
  | .addColumn table added =>
      table = name ∧ (added.name = column ∨ added.inKey = true)
  | .addPrimaryKey table _ => table = name
  | .dropColumn _ _ | .addForeignKey _ _ _ => False

/-- The key of a table names the column. -/
def Keyed (column : String) (known : Option Table) : Prop :=
  ∃ table ∈ known, column ∈ table.keyColumns

/-- The key of a table names a column that the table does not have. -/
def Lost (column : String) (known : Option Table) : Prop :=
  ∃ table ∈ known, column ∈ table.keyColumns ∧ ¬table.Has column

section Steps

variable {name column source : String} {known : Option Table} {table : Table}

@[simp] theorem keyed_some :
    Keyed column (some table) ↔ column ∈ table.keyColumns := by
  simp [Keyed]

@[simp] theorem lost_some :
    Lost column (some table) ↔ column ∈ table.keyColumns ∧ ¬table.Has column := by
  simp [Lost]

@[simp] theorem not_keyed_none : ¬Keyed column none := by
  simp [Keyed]

@[simp] theorem not_lost_none : ¬Lost column none := by
  simp [Lost]

/-- The key of a new table names columns of it, be it declared or not. -/
theorem has_of_mem_keyColumns_ofDefinition {definition : TableDefinition}
    (known : ∀ column ∈ definition.primaryKey,
      ∃ declared ∈ definition.columns, declared.name = column)
    (keyed : column ∈ (Table.ofDefinition source definition).keyColumns) :
    (Table.ofDefinition source definition).Has column := by
  have declared : ∃ declared ∈ definition.columns, declared.name = column := by
    rw [Table.keyColumns, Table.ofDefinition] at keyed
    split at keyed
    · split at keyed
      · rename_i identified
        obtain ⟨declared, inside, named⟩ := List.any_eq_true.mp identified
        rw [Option.getD_some, List.mem_singleton] at keyed
        exact ⟨declared, inside, keyed ▸ beq_iff_eq.mp named⟩
      · simp at keyed
    · exact known column keyed
  obtain ⟨declared, inside, rfl⟩ := declared
  exact ⟨declared.field, List.mem_map_of_mem inside, rfl⟩

theorem has_addColumn {added : Column} :
    (table.addColumn added).Has column ↔
      table.Has column ∨ added.name = column := by
  constructor
  · rintro ⟨field, member, rfl⟩
    rcases List.mem_append.mp member with kept | new
    · exact .inl ⟨field, (List.mem_filter.mp kept).1, rfl⟩
    · rw [List.mem_singleton.mp new]
      exact .inr rfl
  · intro has
    by_cases same : added.name = column
    · exact ⟨added.field, by simp [Table.addColumn], same⟩
    · obtain ⟨field, member, rfl⟩ := has.resolve_right same
      refine ⟨field, List.mem_append_left _ (List.mem_filter.mpr ⟨member, ?_⟩),
        rfl⟩
      simpa using Ne.symm same

theorem has_dropColumn {dropped : String} :
    (table.dropColumn dropped).Has column ↔
      table.Has column ∧ column ≠ dropped := by
  constructor
  · rintro ⟨field, member, rfl⟩
    obtain ⟨inside, other⟩ := List.mem_filter.mp member
    exact ⟨⟨field, inside, rfl⟩, by simpa using other⟩
  · rintro ⟨⟨field, inside, rfl⟩, other⟩
    exact ⟨field, List.mem_filter.mpr ⟨inside, by simpa using other⟩, rfl⟩

theorem map_name_pointField {references : String} {fields : List Field} :
    (Table.pointField column references fields).map Field.name =
      fields.map Field.name := by
  induction fields with
  | nil => rfl
  | cons field rest ih =>
      rw [Table.pointField]
      split
      · rfl
      · rw [List.map_cons, List.map_cons, ih]

theorem has_iff_mem : table.Has column ↔ column ∈ table.fields.map Field.name :=
  List.mem_map.symm

theorem has_addForeignKey {pointing references : String} :
    (table.addForeignKey pointing references).Has column ↔
      table.Has column := by
  rw [has_iff_mem, has_iff_mem, Table.addForeignKey, map_name_pointField]

theorem has_addPrimaryKey {columns : List String} :
    (table.addPrimaryKey columns).Has column ↔ table.Has column := by
  have named : (table.addPrimaryKey columns).fields.map Field.name =
      table.fields.map Field.name := by
    rw [Table.addPrimaryKey, List.map_map]
    refine List.map_congr_left fun field _ => ?_
    rw [Function.comp_apply]
    split <;> rfl
  rw [has_iff_mem, has_iff_mem, named]

/-- A statement whose key is known parts the key of a table from a column by
dropping the column, and only so; it keeps them apart unless it settles the
column. -/
theorem lost_apply_iff {tables : List Table} {statement : Statement}
    (keyKnown : statement.KeyKnown tables) :
    Lost column (tableNamed? name (apply source tables statement)) ↔
      (statement = .dropColumn name column ∧
          Keyed column (tableNamed? name tables)) ∨
        (Lost column (tableNamed? name tables) ∧
          ¬statement.Settles name column) := by
  rw [tableNamed?_apply]
  cases statement with
  | createTable definition unlessExists =>
      have whole : ¬Lost column (some (.ofDefinition source definition)) := by
        rw [lost_some]
        rintro ⟨keyed, absent⟩
        exact absent (has_of_mem_keyColumns_ofDefinition keyKnown keyed)
      rw [Statement.revise]
      by_cases here : definition.name = name
      · cases unlessExists <;> cases tableNamed? name tables <;>
          simp [here, Statement.Settles, whole]
      · simp [here, Statement.Settles]
  | dropTable dropped =>
      rw [Statement.revise]
      by_cases here : dropped = name <;> simp [here, Statement.Settles]
  | addColumn altered added =>
      rw [Statement.revise]
      by_cases here : altered = name
      · cases tableNamed? name tables with
        | none => simp [here]
        | some table =>
            cases inKey : added.inKey
            · -- The key stays, and the column is there once it is added.
              have key : (table.addColumn added).keyColumns =
                  table.keyColumns := by
                simp [Table.keyColumns, Table.addColumn, inKey]
              simp [here, has_addColumn, Statement.Settles, key, inKey]
              tauto
            · have key : (table.addColumn added).keyColumns =
                  [added.name] := by
                simp [Table.keyColumns, Table.addColumn, inKey]
              have added : column = added.name → added.name = column :=
                Eq.symm
              simp [here, has_addColumn, Statement.Settles, key, inKey]
              tauto
      · simp [here, Statement.Settles]
  | dropColumn altered dropped =>
      rw [Statement.revise]
      by_cases here : altered = name
      · cases tableNamed? name tables with
        | none => simp [here]
        | some table =>
            have key : (table.dropColumn dropped).keyColumns =
                table.keyColumns := rfl
            simp [here, has_dropColumn, Statement.Settles, key]
            tauto
      · simp [here, Statement.Settles]
  | addForeignKey altered pointing references =>
      rw [Statement.revise]
      by_cases here : altered = name
      · cases tableNamed? name tables with
        | none => simp [here]
        | some table =>
            have key : (table.addForeignKey pointing references).keyColumns =
                table.keyColumns := rfl
            simp [here, has_addForeignKey, Statement.Settles, key]
      · simp [here, Statement.Settles]
  | addPrimaryKey altered columns =>
      rw [Statement.revise]
      by_cases here : altered = name
      · cases found : tableNamed? name tables with
        | none => simp [here]
        | some table =>
            obtain ⟨inside, named⟩ := mem_of_tableNamed? found
            have key : (table.addPrimaryKey columns).keyColumns = columns := rfl
            have has : column ∈ columns → table.Has column :=
              keyKnown table inside (named.trans here.symm) column
            simpa [here, has_addPrimaryKey, Statement.Settles, key] using has
      · simp [here, Statement.Settles]

end Steps

section Runs

variable {name column : String}

theorem keysKnown_append_step {tables : List Table} {front : List Step}
    {step : Step} : KeysKnown tables (front ++ [step]) ↔
      KeysKnown tables front ∧ step.statement.KeyKnown
        (front.foldl (fun tables step =>
          apply step.source tables step.statement) tables) := by
  induction front generalizing tables with
  | nil => simp [KeysKnown]
  | cons first rest ih => simp [KeysKnown, ih, and_assoc]

/-- A column of a key is lost at the end exactly if it was dropped while the
key named it, and no later statement settled it. -/
theorem lost_tablesAfter_iff {steps : List Step} (known : KeysKnown [] steps) :
    Lost column (tableNamed? name (tablesAfter steps)) ↔
      ∃ front source back,
        steps = front ++ ⟨source, .dropColumn name column⟩ :: back ∧
          Keyed column (tableNamed? name (tablesAfter front)) ∧
          ∀ step ∈ back, ¬step.statement.Settles name column := by
  induction steps using List.reverseRecOn with
  | nil => simp [tablesAfter, tableNamed?]
  | append_singleton steps last ih =>
      obtain ⟨before, here⟩ := keysKnown_append_step.mp known
      change last.statement.KeyKnown (tablesAfter steps) at here
      rw [tablesAfter_append_step, lost_apply_iff here, ih before]
      constructor
      · rintro (⟨drops, keyed⟩ | ⟨⟨front, source, back, rfl, keyed, open_⟩,
          unsettled⟩)
        · exact ⟨steps, last.source, [], by rw [← drops], keyed, by simp⟩
        · refine ⟨front, source, back ++ [last], by simp, keyed, ?_⟩
          intro step member
          rcases List.mem_append.mp member with inside | new
          · exact open_ step inside
          · rwa [List.mem_singleton.mp new]
      · rintro ⟨front, source, back, split, keyed, open_⟩
        rcases List.eq_nil_or_concat back with rfl | ⟨back, final, rfl⟩
        · obtain ⟨rfl, rfl⟩ := List.append_singleton_inj.mp split
          exact .inl ⟨rfl, keyed⟩
        · rw [List.concat_eq_append, ← List.cons_append,
            ← List.append_assoc] at split
          obtain ⟨rfl, rfl⟩ := List.append_singleton_inj.mp split
          refine .inr ⟨⟨front, source, back, rfl, keyed, ?_⟩, ?_⟩
          · exact fun step member => open_ step (by simp [member])
          · exact open_ last (by simp)

/-- Where each statement sets a key of columns that its table has at that
point, the key of a replayed table names columns of the table exactly if each
removal of a column that the key named then is settled by a later
statement. -/
theorem replay_keyColumns_iff {scripts : List Script}
    (known : KeysKnown [] (scripts.flatMap Script.steps)) {table : Table}
    (stands : table ∈ replay scripts) :
    (∀ column ∈ table.keyColumns, table.Has column) ↔
      ∀ front source column back, scripts.flatMap Script.steps =
          front ++ ⟨source, .dropColumn table.name column⟩ :: back →
        (∃ before ∈ tablesAfter front, before.name = table.name ∧
          column ∈ before.keyColumns) →
        ∃ step ∈ back, step.statement.Settles table.name column := by
  rw [replay_eq_tablesAfter] at stands
  have found := tableNamed?_eq_some (nodup_tablesAfter _) stands
  have keyed (front : List Step) (column : String) :
      Keyed column (tableNamed? table.name (tablesAfter front)) ↔
        ∃ before ∈ tablesAfter front, before.name = table.name ∧
          column ∈ before.keyColumns := by
    constructor
    · rintro ⟨before, inside, names⟩
      obtain ⟨member, named⟩ := mem_of_tableNamed? inside
      exact ⟨before, member, named, names⟩
    · rintro ⟨before, member, named, names⟩
      refine ⟨before, ?_, names⟩
      rw [← named]
      exact tableNamed?_eq_some (nodup_tablesAfter front) member
  have lost (column : String) :=
    @lost_tablesAfter_iff table.name column _ known
  simp only [found, lost_some, keyed] at lost
  constructor
  · intro whole front source column back split names
    by_contra unsettled
    obtain ⟨inKey, absent⟩ := (lost column).mpr ⟨front, source, back, split,
      names, fun step member settles => unsettled ⟨step, member, settles⟩⟩
    exact absent (whole column inKey)
  · intro settled column inKey
    by_contra absent
    obtain ⟨front, source, back, split, names, unsettled⟩ :=
      (lost column).mp ⟨inKey, absent⟩
    obtain ⟨step, member, settles⟩ := settled front source column back split names
    exact unsettled step member settles

/-- Orders with their number as key. -/
def keyedOrders : Script :=
  { source := "V1__orders.sql"
    statements :=
      [.createTable
        { name := "orders"
          columns := [⟨"number", "INT", false, true, none⟩,
            ⟨"total", "INT", true, false, none⟩]
          primaryKey := ["number"] } false] }

/-- A column of a key that is dropped and added again is settled. -/
theorem replay_keyColumns_iff_renumbered :
    let scripts := [keyedOrders, ⟨"V2__number.sql",
      [.dropColumn "orders" "number",
        .addColumn "orders" ⟨"number", "TEXT", true, false, none⟩]⟩]
    let steps := scripts.flatMap Script.steps
    let table : Table :=
      ⟨"orders", [⟨"total", "INT", true, none, none⟩,
        ⟨"number", "TEXT", true, none, none⟩], some ["number"], "V1__orders.sql"⟩
    KeysKnown [] steps ∧ table ∈ replay scripts ∧
      ∀ front source column back,
        steps = front ++ ⟨source, .dropColumn "orders" column⟩ :: back →
        (∃ before ∈ tablesAfter front, before.name = "orders" ∧
          column ∈ before.keyColumns) →
        ∃ step ∈ back, step.statement.Settles "orders" column := by
  intro scripts steps table
  have known : KeysKnown [] steps := by decide
  have stands : table ∈ replay scripts := by decide
  have whole : ∀ column ∈ table.keyColumns, table.Has column := by decide
  exact ⟨known, stands, (replay_keyColumns_iff known stands).mp whole⟩

/-- A key may go on naming a column that was dropped. -/
theorem not_replay_keyColumns :
    ¬∀ scripts : List Script, KeysKnown [] (scripts.flatMap Script.steps) →
      ∀ table ∈ replay scripts, ∀ column ∈ table.keyColumns,
        table.Has column := by
  intro all
  let scripts :=
    [keyedOrders, ⟨"V2__drop.sql", [.dropColumn "orders" "number"]⟩]
  let table : Table :=
    ⟨"orders", [⟨"total", "INT", true, none, none⟩], some ["number"],
      "V1__orders.sql"⟩
  have known : KeysKnown [] (scripts.flatMap Script.steps) := by decide
  have stands : table ∈ replay scripts := by decide
  have absent : ¬table.Has "number" := by decide
  exact absent (all scripts known table stands "number" (by decide))

end Runs

end ArchSurvey.Schema

namespace ArchSurvey

/-! ## Keys in diagrams -/

namespace Diagram

/-- The roles of an attribute tell that it belongs to the key. -/
def Attribute.MarksKey (column : Attribute) : Prop :=
  " PK".toList <+: column.roles.toList

theorem Attribute.marksKey_iff {column : Attribute} :
    column.MarksKey ↔ column.isKey = true := by
  unfold MarksKey roles
  cases column.isKey <;> cases column.isReference <;> decide

theorem marksKey_fieldAttribute_iff {entity : DataEntity} {field : Field} :
    (fieldAttribute entity field).MarksKey ↔
      entity.primaryKey = some field.name := by
  rw [Attribute.marksKey_iff, fieldAttribute]
  exact beq_iff_eq

/-- An entity with fields has a block in the diagram with an attribute for each
of them. -/
theorem exists_block_of_mem_entities {model : Model} {entity : DataEntity}
    (shown : entity ∈ model.entities) (inhabited : entity.fields ≠ []) :
    ∃ block ∈ (entityDiagram model).blocks, block.name = blockName entity.name ∧
      block.attributes = entity.fields.map (fieldAttribute entity) := by
  have some : model.entities.isEmpty = false :=
    List.isEmpty_eq_false_iff.mpr (List.ne_nil_of_mem shown)
  refine ⟨entityBlock entity, ?_, rfl, ?_⟩
  · rw [entityDiagram, some]
    exact List.mem_map_of_mem shown
  · rw [entityBlock, List.isEmpty_eq_false_iff.mpr inhabited]
    rfl

end Diagram

namespace Schema

/-- The key that a definition gives its table. -/
def TableDefinition.key (definition : TableDefinition) : Option (List String) :=
  if definition.primaryKey.isEmpty then
    if definition.columns.any fun column => column.name == "id" then some ["id"]
    else none
  else some definition.primaryKey

/-- What a statement makes of the key of a table, if there is such a table. -/
def Statement.rekey (name : String) (known : Option (Option (List String))) :
    Statement → Option (Option (List String))
  | .createTable definition unlessExists =>
      if definition.name = name ∧ ¬(unlessExists = true ∧ known.isSome = true)
      then some definition.key
      else known
  | .dropTable table => if table = name then none else known
  | .addColumn table column =>
      if table = name ∧ column.inKey = true then
        known.map fun _ => some [column.name]
      else known
  | .addPrimaryKey table columns =>
      if table = name then known.map fun _ => some columns else known
  | .dropColumn _ _ | .addForeignKey _ _ _ => known

/-- The key that some scripts leave a table with, by the statements that name
the table. -/
def keyAfter (scripts : List Script) (name : String) : Option (List String) :=
  ((scripts.flatMap Script.statements).foldl
    (fun known statement => statement.rekey name known) none).join

section Replays

/-- What a statement makes of the key of a table depends on nothing else. -/
theorem key_apply (name source : String) (tables : List Table)
    (statement : Statement) :
    (tableNamed? name (apply source tables statement)).map Table.key =
      statement.rekey name ((tableNamed? name tables).map Table.key) := by
  rw [tableNamed?_apply]
  generalize tableNamed? name tables = known
  cases statement with
  | createTable definition unlessExists =>
      rw [Statement.revise, Statement.rekey, Option.isSome_map]
      split <;> rfl
  | dropTable dropped =>
      rw [Statement.revise, Statement.rekey]
      split <;> rfl
  | addColumn table column =>
      rw [Statement.revise, Statement.rekey]
      by_cases here : table = name
      · cases inKey : column.inKey <;>
          simp [here, Table.addColumn, inKey, Function.comp_def]
      · simp [here]
  | dropColumn table column =>
      rw [Statement.revise, Statement.rekey]
      split
      · cases known <;> rfl
      · rfl
  | addForeignKey table column references =>
      rw [Statement.revise, Statement.rekey]
      split
      · cases known <;> rfl
      · rfl
  | addPrimaryKey table columns =>
      rw [Statement.revise, Statement.rekey]
      split
      · cases known <;> rfl
      · rfl

/-- Step by step, the key of a table is what the statements make of it. -/
theorem key_tablesAfter (name : String) (steps : List Step) :
    (tableNamed? name (tablesAfter steps)).map Table.key =
      (steps.map Step.statement).foldl
        (fun known statement => statement.rekey name known) none := by
  induction steps using List.reverseRecOn with
  | nil => rfl
  | append_singleton front step ih =>
      rw [tablesAfter_append_step, key_apply, ih, List.map_append,
        List.foldl_append]
      rfl

theorem key_of_mem_replay {scripts : List Script} {table : Table}
    (stands : table ∈ replay scripts) :
    table.key = keyAfter scripts table.name := by
  have statements : (scripts.flatMap Script.steps).map Step.statement =
      scripts.flatMap Script.statements := by
    rw [List.map_flatMap]
    congr 1
    funext script
    rw [Script.steps, List.map_map]
    exact List.map_id _
  rw [replay_eq_tablesAfter] at stands
  have known := key_tablesAfter table.name (scripts.flatMap Script.steps)
  rw [tableNamed?_eq_some (nodup_tablesAfter _) stands, statements] at known
  rw [keyAfter, ← known]
  rfl

end Replays

section Marks

open Diagram

/-- A text that joins names is longer than those that it joins. -/
theorem length_lt_length_joined {first second name : String}
    {rest : List String} (member : name ∈ first :: second :: rest) :
    name.length <
      (String.intercalate ", " (first :: second :: rest)).length := by
  induction rest generalizing first second with
  | nil =>
      rw [String.intercalate_cons_of_ne_nil (by simp),
        String.intercalate_singleton, String.length_append,
        String.length_append]
      have comma : ", ".length = 2 := rfl
      simp only [List.mem_cons, List.not_mem_nil, or_false] at member
      rcases member with rfl | rfl <;> omega
  | cons third rest ih =>
      rw [String.intercalate_cons_of_ne_nil (by simp), String.length_append,
        String.length_append]
      have comma : ", ".length = 2 := rfl
      rcases List.mem_cons.mp member with rfl | later
      · omega
      · have inRest := ih later
        omega

/-- The text of a key is the name of its column if it has one column only, and
is not the name of any of its columns otherwise. -/
theorem joined_mem_iff {columns : List String} :
    String.intercalate ", " columns ∈ columns ↔ columns.length = 1 := by
  match columns with
  | [] => simp
  | [column] => simp
  | first :: second :: rest =>
      constructor
      · intro member
        exact absurd (length_lt_length_joined member) (Nat.lt_irrefl _)
      · simp

/-- A field of a table is marked if its name is the text of the key. -/
theorem marksKey_entity_iff {table : Table} {database : String} {field : Field} :
    (fieldAttribute (table.entity database) field).MarksKey ↔
      ∃ columns, table.key = some columns ∧
        field.name = String.intercalate ", " columns := by
  rw [marksKey_fieldAttribute_iff, Table.entity, Option.map_eq_some_iff]
  simp only [eq_comm]

/-- The marks tell the columns of a key exactly if it has one column, or else
neither its columns nor its text name a field. -/
theorem marks_iff {table : Table} {database : String} {columns : List String}
    (keyed : table.key = some columns) :
    (∀ field ∈ table.fields,
        (fieldAttribute (table.entity database) field).MarksKey ↔
          field.name ∈ columns) ↔
      columns.length = 1 ∨ ∀ field ∈ table.fields, field.name ∉ columns ∧
        field.name ≠ String.intercalate ", " columns := by
  simp only [marksKey_entity_iff, keyed, Option.some.injEq, exists_eq_left']
  constructor
  · intro marked
    by_cases single : columns.length = 1
    · exact Or.inl single
    · right
      intro field member
      have absent : field.name ≠ String.intercalate ", " columns := by
        intro same
        have inKey := (marked field member).mp same
        rw [same] at inKey
        exact single (joined_mem_iff.mp inKey)
      exact ⟨mt (marked field member).mpr absent, absent⟩
  · rintro (single | apart) field member
    · obtain ⟨column, rfl⟩ := List.length_eq_one_iff.mp single
      simp
    · exact iff_of_false (apart field member).2 (apart field member).1

/-- The diagram has a block for the entity of every replayed table, with an
attribute for each field.  It marks the fields that belong to the key, as the
statements leave it, and no others, exactly if the key has one column, or none
of its columns and not its text either is the name of a field. -/
theorem replay_marks_iff {scripts : List Script} {table : Table}
    (stands : table ∈ replay scripts) (database : String) :
    let entity := table.entity database
    (∀ model : Model, entity ∈ model.entities → table.fields ≠ [] →
      ∃ block ∈ (entityDiagram model).blocks,
        block.name = blockName table.name ∧
          block.attributes = table.fields.map (fieldAttribute entity)) ∧
    ((∀ field ∈ table.fields, (fieldAttribute entity field).MarksKey ↔
        field.name ∈ (keyAfter scripts table.name).getD []) ↔
      ∀ columns, keyAfter scripts table.name = some columns →
        columns.length = 1 ∨ ∀ field ∈ table.fields, field.name ∉ columns ∧
          field.name ≠ String.intercalate ", " columns) := by
  intro entity
  rw [← key_of_mem_replay stands]
  constructor
  · intro model shown inhabited
    exact @exists_block_of_mem_entities model entity shown inhabited
  · cases keyed : table.key with
    | none => simp [entity, marksKey_entity_iff, keyed]
    | some columns =>
        simp only [Option.getD_some, Option.some.injEq, forall_eq']
        exact marks_iff keyed

/-- The lines of orders, with a key of some of its columns. -/
def lineItems (key : List String) : TableDefinition :=
  { name := "lines"
    columns :=
      [⟨"order", "INT", false, true, none⟩, ⟨"line", "INT", false, true, none⟩]
    primaryKey := key }

/-- A key of one column is marked at its column. -/
theorem replay_marks_iff_lines :
    let script : Script :=
      ⟨"V1__lines.sql", [.createTable (lineItems ["line"]) false]⟩
    let table := Table.ofDefinition "V1__lines.sql" (lineItems ["line"])
    table ∈ replay [script] ∧ keyAfter [script] "lines" = some ["line"] ∧
      ∀ field ∈ table.fields,
        (fieldAttribute (table.entity "shop") field).MarksKey ↔
          field.name ∈ ["line"] := by
  intro script table
  have stands : table ∈ replay [script] := by decide
  have keyed : keyAfter [script] table.name = some ["line"] := by decide
  refine ⟨stands, keyed, ?_⟩
  have marks := (replay_marks_iff stands "shop").2.mpr
  rw [keyed] at marks
  apply marks
  intro columns single
  cases single
  exact Or.inl rfl

/-- Not every column of a key is marked. -/
theorem not_replay_marks :
    ¬ ∀ (scripts : List Script) (table : Table) (database : String),
      table ∈ replay scripts → ∀ field ∈ table.fields,
        (fieldAttribute (table.entity database) field).MarksKey ↔
          field.name ∈ (keyAfter scripts table.name).getD [] := by
  intro marks
  let definition := lineItems ["order", "line"]
  let script : Script := ⟨"V1__lines.sql", [.createTable definition false]⟩
  let table := Table.ofDefinition "V1__lines.sql" definition
  have stands : table ∈ replay [script] := by decide
  have marked := (marks [script] table "shop" stands
    ⟨"order", "INT", false, none, none⟩ (by decide)).mpr (by decide)
  rw [marksKey_entity_iff] at marked
  obtain ⟨columns, keyed, same⟩ := marked
  cases keyed
  exact absurd same (by decide)

end Marks

end Schema

end ArchSurvey
