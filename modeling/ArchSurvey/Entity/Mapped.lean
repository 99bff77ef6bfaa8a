import ArchSurvey.Declaration.Reader
import ArchSurvey.Project.Parts
import ArchSurvey.Scan.Scanner
import ArchSurvey.Scan.Tiers
import ArchSurvey.Source.Path
import ArchSurvey.Text.LetterCase

/-!
# Mapped entities

Classes whose annotations map them to tables: every persistent field becomes a column, and an
association points at the table of another class.
-/

namespace ArchSurvey.Entity.Mapped

open Text
open Text.Pattern (concat oneOf opt literal group some1 blanks textStart textEnd is wordChar)
open Declaration (Note Heading)

/-- The annotations that make a field an association. -/
def associations : List String :=
  ["OneToOne", "OneToMany", "ManyToOne", "ManyToMany"]

/-- The types whose values are never null. -/
def primitives : List String :=
  ["int", "long", "short", "byte", "char", "boolean", "double", "float"]

/-- A collection, the type of its elements in group 1. -/
def collection : Pattern :=
  concat
    [textStart, opt (literal "java.util."),
      oneOf (["List", "Set", "Collection", "SortedSet"].map literal), blanks, is '<', blanks,
      group 1 (some1 (oneOf [wordChar, is '.'])), blanks, is '>', textEnd]

/-- The simple name of the type that a field points at: for a collection, of its elements. -/
def targetType (type : List Char) : List Char :=
  let target := match collection.search type with
    | some found => found.group 1
    | none => type
  afterLast '.' target

/-- Whether the second of two characters begins a new word of a name in camel case. -/
def isBoundary (first second : Char) : Bool :=
  (('a' ≤ first && first ≤ 'z') || ('0' ≤ first && first ≤ '9')) && 'A' ≤ second && second ≤ 'Z'

/-- The words of a name in camel case with underscores between them. -/
def separated : List Char → List Char
  | a :: b :: rest =>
      if isBoundary a b then a :: '_' :: separated (b :: rest) else a :: separated (b :: rest)
  | text => text

/-- The table of a class that names none. -/
def tableName (className : List Char) : String :=
  String.ofList (lower (separated className))

/-- A field of a class with what stands in front of it. -/
structure MappedField where
  annotations : List Note
  modifiers : List String
  type : String
  name : String

namespace MappedField

/-- The annotation of a field with a name. -/
def note? (field : MappedField) (name : String) : Option Note :=
  field.annotations.find? fun note => note.name == name

/-- Whether a field has an annotation. -/
def has (field : MappedField) (name : String) : Bool :=
  (field.note? name).isSome

/-- Whether a field is stored. -/
def isPersistent (field : MappedField) : Bool :=
  !field.modifiers.contains "static" && !field.modifiers.contains "transient" &&
    !field.has "Transient"

/-- Whether a field identifies its entity. -/
def isKey (field : MappedField) : Bool :=
  field.has "Id" || field.has "EmbeddedId"

/-- Whether an attribute of an annotation is false. -/
def saysNo (note : Note) (key : String) : Bool :=
  note.valueOf? key == some "false".toList

/-- The association that a field is. -/
def association? (field : MappedField) : Option Note :=
  field.annotations.find? fun note => associations.contains note.name

/-- Whether a field may be null. -/
def isNullable (field : MappedField) : Bool :=
  let columnSaysNo := ["Column", "JoinColumn"].any fun name =>
    match field.note? name with
    | some note => saysNo note "nullable"
    | none => false
  let associationSaysNo := field.annotations.any fun note =>
    associations.contains note.name && saysNo note "optional"
  !(field.isKey || columnSaysNo || associationSaysNo || field.has "NotNull" ||
    field.has "NonNull" || primitives.contains field.type)

/-- The column of a field: the one that it names, or else the field's own name. -/
def columnName (field : MappedField) : String :=
  match ((field.note? "Column").or (field.note? "JoinColumn")).bind
      fun note => note.stringOf "name" with
  | some name => String.ofList name
  | none => field.name

/-- The field as a field of an entity. -/
def toField (field : MappedField) : Field :=
  { name := field.columnName
    dataType := field.type
    nullable := field.isNullable
    description := field.association?.map Note.name
    references := field.association?.map fun _ => tableName (targetType field.type.toList) }

end MappedField

/-- A class with its fields. -/
structure MappedClass where
  annotations : List Note
  name : String
  fields : List MappedField

/-- The entity that a class is mapped to, if it is. -/
def MappedClass.entity? (mapped : MappedClass) (database : String) : Option DataEntity :=
  if mapped.annotations.any fun note => note.name == "Entity" then
    let table :=
      match (mapped.annotations.find? fun note => note.name == "Table").bind
          fun note => note.stringOf "name" with
      | some name => String.ofList name
      | none => tableName mapped.name.toList
    let persistent := mapped.fields.filter MappedField.isPersistent
    some
      { DataEntity.table database table with
        fields := persistent.map MappedField.toField
        primaryKey := (persistent.find? MappedField.isKey).map MappedField.columnName
        description := some ("JPA entity " ++ mapped.name) }
  else none

/-- The field that an occurrence is, with the line and name of its class and the annotations in
front of it. -/
def fieldOf (occurrence : Grammar.Occurrence) :
    Option ((Nat × String) × List Note × MappedField) := do
  let className ← occurrence.text? "class_name"
  let type ← occurrence.text? "field_type"
  let name ← occurrence.text? "field_name"
  let headingOf (capture : String) : Heading :=
    .ofText ((occurrence.text? capture).getD "").toList
  let heading := headingOf "field_annotations"
  some
    ((occurrence.line, className), (headingOf "class_annotations").annotations,
      { annotations := heading.annotations, modifiers := heading.modifiers, type, name })

/-- The order of classes by line and name. -/
def classLe (a b : Nat × String) : Bool :=
  a.1 < b.1 || (a.1 == b.1 && a.2 ≤ b.2)

/-- Puts a field into the first of some classes if it belongs there, and else in front of them. -/
def addField (item : (Nat × String) × List Note × MappedField) :
    List ((Nat × String) × MappedClass) → List ((Nat × String) × MappedClass)
  | [] => [(item.1, ⟨item.2.1, item.1.2, [item.2.2]⟩)]
  | (key, mapped) :: rest =>
      if key == item.1 then
        (key, { mapped with annotations := item.2.1, fields := item.2.2 :: mapped.fields }) :: rest
      else (item.1, ⟨item.2.1, item.1.2, [item.2.2]⟩) :: (key, mapped) :: rest

/-- The classes of a source by its syntax tree, each put together from its fields. -/
def classesOfOccurrences (occurrences : List Grammar.Occurrence) : List MappedClass :=
  let fields := (occurrences.filterMap fieldOf).mergeSort fun a b => classLe a.1 b.1
  (fields.foldr addField []).map Prod.snd

/-- The field that a member of a class is. -/
def fieldOfMember (member : Declaration.Declared) : Option MappedField :=
  match member.member with
  | .field type name =>
      some { annotations := member.annotations, modifiers := member.modifiers, type, name }
  | _ => none

/-- The classes of a source by its text. -/
def classesOfSource (text : List Char) : List MappedClass :=
  let source := Declaration.readSource text
  (Declaration.typesOf source).map fun (type, name) =>
    ⟨type.annotations, name, (Declaration.membersOf source name).filterMap fieldOfMember⟩

/-- The entities that some classes are mapped to. -/
def entitiesOf (database : String) (classes : List MappedClass) : List DataEntity :=
  classes.filterMap fun mapped => mapped.entity? database

/-- The findings in a file with some entities; the database is reported only if there are any. -/
def store (database : Component) (entities : List DataEntity) : Findings :=
  { components := if entities.isEmpty then [] else [database], entities }

/-- How sources are read. -/
def engine (parser : Grammar.StructuralParser) (database : Component) : TierEngine Findings :=
  { accepts := fun path => .finished (!Source.isTestPath path)
    parser := some fun bytes => .finished (parser.parse bytes)
    extract := fun _ occurrences =>
      .finished [store database (entitiesOf database.id (classesOfOccurrences occurrences))]
    fallback := fun _ text =>
      .finished (.ok [store database (entitiesOf database.id (classesOfSource text))]) }

/-- The files that are read. -/
def patterns : List String :=
  ["**/*.java"]

/-- The relationship of a project to the database that it stores entities in. -/
def usage (context : Context) (database : Component) : Relationship :=
  { source := Project.ownId context
    target := database.id
    kind := .uses
    description := some "Persists entities"
    technology := some "JPA" }

/-- Scans the sources of a project. -/
def scan (parser : Grammar.StructuralParser) (context : Context) : Except ScanError ScanResult := do
  let database := Project.database context "JPA"
  let files ← context.findFilesAny patterns
  let (findings, stats) := Sweep.read (engine parser database) context files
  let relationships := if findings.entities.isEmpty then [] else [usage context database]
  return Sweep.finish "jpa-entities"
    { findings with relationships := findings.relationships ++ relationships } stats

/-- The scanner of mapped entities. -/
def scanner (parser : Grammar.StructuralParser) : Scanner :=
  { id := "jpa-entities"
    title := "JPA Entities"
    languages := ["java"]
    patterns
    priority := 60
    applicability :=
      .and (.hasFiles "**/*.java")
        (.or
          (.hasAnyDependency
            ["jakarta.persistence", "javax.persistence", "hibernate",
              "spring-boot-starter-data-jpa"])
          (.fileContains "**/*.java" "@Entity"))
    scan := fun context => .finished (.ofOutcome "jpa-entities" (scan parser context)) }

end ArchSurvey.Entity.Mapped
