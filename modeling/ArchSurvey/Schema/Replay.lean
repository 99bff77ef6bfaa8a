import ArchSurvey.Schema.Statement

/-!
# Replaying scripts

The tables that stand at the end of a sequence of scripts, in the order of their creation.
-/

namespace ArchSurvey.Schema

/-- A table as it stands after some statements. -/
structure Table where
  name : String
  fields : List Field
  /-- The columns of its primary key, if one is known. -/
  key : Option (List String)
  /-- The script that created it. -/
  source : String
  deriving DecidableEq, Repr

namespace Table

/-- The new table of a definition.  A column named `id` is the key of a table that declares
none. -/
def ofDefinition (source : String) (definition : TableDefinition) : Table :=
  { name := definition.name
    fields := definition.columns.map Column.field
    key :=
      if definition.primaryKey.isEmpty then
        if definition.columns.any fun column => column.name == "id" then some ["id"] else none
      else some definition.primaryKey
    source }

/-- The table with one more column, which takes the place of one with the same name. -/
def addColumn (column : Column) (table : Table) : Table :=
  { table with
    fields := table.fields.filter (fun field => field.name != column.name) ++ [column.field]
    key := if column.inKey then some [column.name] else table.key }

/-- The table without a column. -/
def dropColumn (column : String) (table : Table) : Table :=
  { table with fields := table.fields.filter fun field => field.name != column }

/-- Fields with the first one of a name pointing at a table. -/
def pointField (column references : String) : List Field → List Field
  | [] => []
  | field :: rest =>
      if field.name == column then { field with references := some references } :: rest
      else field :: pointField column references rest

/-- The table with a column that points at another table. -/
def addForeignKey (column references : String) (table : Table) : Table :=
  { table with fields := pointField column references table.fields }

/-- The table with a primary key, whose columns may not be null. -/
def addPrimaryKey (columns : List String) (table : Table) : Table :=
  { table with
    fields := table.fields.map fun field =>
      if columns.contains field.name then { field with nullable := false } else field
    key := some columns }

/-- The table as an entity of a database. -/
def entity (database : String) (table : Table) : DataEntity :=
  { DataEntity.table database table.name with
    fields := table.fields
    primaryKey := table.key.map fun columns => String.intercalate ", " columns
    description := some ("Defined in " ++ table.source) }

end Table

/-- The tables with the first one of a name changed. -/
def changeTable (name : String) (change : Table → Table) : List Table → List Table
  | [] => []
  | table :: rest =>
      if table.name == name then change table :: rest else table :: changeTable name change rest

/-- Whether some table has a name. -/
def hasTable (name : String) (tables : List Table) : Bool :=
  tables.any fun table => table.name == name

/-- The tables after one statement of a script. -/
def apply (source : String) (tables : List Table) : Statement → List Table
  | .createTable definition unlessExists =>
      let table := Table.ofDefinition source definition
      if hasTable definition.name tables then
        if unlessExists then tables else changeTable definition.name (fun _ => table) tables
      else tables ++ [table]
  | .dropTable name => tables.filter fun table => table.name != name
  | .addColumn name column => changeTable name (Table.addColumn column) tables
  | .dropColumn name column => changeTable name (Table.dropColumn column) tables
  | .addForeignKey name column references =>
      changeTable name (Table.addForeignKey column references) tables
  | .addPrimaryKey name columns => changeTable name (Table.addPrimaryKey columns) tables

/-- A script that has been read. -/
structure Script where
  source : String
  statements : List Statement
  deriving DecidableEq, Repr

/-- The tables after one more script. -/
def applyScript (tables : List Table) (script : Script) : List Table :=
  script.statements.foldl (apply script.source) tables

/-- The tables that stand after some scripts. -/
def replay (scripts : List Script) : List Table :=
  scripts.foldl applyScript []

end ArchSurvey.Schema
