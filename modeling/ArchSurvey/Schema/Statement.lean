import ArchSurvey.Finding.Basic

/-!
# Schema statements

What a migration script does to the tables of a database.
-/

namespace ArchSurvey.Schema

/-- A column as a script declares it. -/
structure Column where
  name : String
  dataType : String
  nullable : Bool
  /-- Whether the column belongs to the primary key. -/
  inKey : Bool
  /-- The table that the column points at. -/
  references : Option String := none
  deriving DecidableEq, Repr

/-- The column as a field of an entity. -/
def Column.field (column : Column) : Field :=
  { name := column.name
    dataType := column.dataType
    nullable := column.nullable
    references := column.references }

/-- A table as a script declares it. -/
structure TableDefinition where
  name : String
  columns : List Column := []
  primaryKey : List String := []
  deriving DecidableEq, Repr

/-- A statement of a migration script. -/
inductive Statement where
  | createTable (table : TableDefinition) (unlessExists : Bool)
  | addColumn (table : String) (column : Column)
  | dropColumn (table column : String)
  | addForeignKey (table column references : String)
  | addPrimaryKey (table : String) (columns : List String)
  | dropTable (table : String)
  deriving DecidableEq, Repr

/-- Why a script cannot be read. -/
inductive SchemaError where
  /-- The list of columns of a new table has no end. -/
  | unterminated (table : String)
  deriving DecidableEq, Repr

/-- What is said of a script that cannot be read. -/
def SchemaError.message : SchemaError → String
  | unterminated table => "unterminated CREATE TABLE " ++ table

end ArchSurvey.Schema
