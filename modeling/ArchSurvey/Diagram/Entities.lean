import ArchSurvey.Diagram.Label
import ArchSurvey.Model.Basic
import ArchSurvey.Text.Split

/-!
# Diagrams of entities

Entities as blocks of attributes, and a relation for each field that points at an entity.
-/

namespace ArchSurvey.Diagram

open Text

/-- An attribute of an entity. -/
structure Attribute where
  dataType : String
  name : String
  isKey : Bool := false
  isReference : Bool := false
  comment : Option String := none
  deriving DecidableEq, Repr

/-- The roles of an attribute, each after a blank. -/
def Attribute.roles (column : Attribute) : String :=
  match column.isKey, column.isReference with
  | true, true => " PK, FK"
  | true, false => " PK"
  | false, true => " FK"
  | false, false => ""

/-- The line of an attribute. -/
def Attribute.line (column : Attribute) : String :=
  let comment :=
    match column.comment with
    | none => ""
    | some comment => " " ++ quoted comment
  "    " ++ column.dataType ++ " " ++ column.name ++ column.roles ++ comment

/-- An entity with its attributes. -/
structure EntityBlock where
  name : String
  attributes : List Attribute
  deriving DecidableEq, Repr

/-- The lines of an entity. -/
def EntityBlock.lines (block : EntityBlock) : List String :=
  ["  " ++ block.name ++ " \x7b"] ++ block.attributes.map Attribute.line ++ ["  \x7d"]

/-- One instance of an entity related to many of another. -/
structure Relation where
  one : String
  many : String
  label : String
  deriving DecidableEq, Repr

/-- The line of a relation. -/
def Relation.line (relation : Relation) : String :=
  "  " ++ relation.one ++ " ||--o\x7b " ++ relation.many ++ " : " ++ quoted relation.label

/-- A diagram of entities. -/
structure EntityDiagram where
  blocks : List EntityBlock
  relations : List Relation
  deriving DecidableEq, Repr

/-- The lines of a diagram. -/
def EntityDiagram.lines (diagram : EntityDiagram) : List String :=
  "erDiagram" ::
    diagram.blocks.flatMap EntityBlock.lines ++ diagram.relations.map Relation.line

/-- The name of the block of an entity. -/
def blockName (name : String) : String :=
  upperString (nodeName name)

/-- A text without the characters at its ends that satisfy `p`. -/
def trimWhere (p : Char → Bool) (text : List Char) : List Char :=
  ((text.dropWhile p).reverse.dropWhile p).reverse

/-- The type of an attribute as one word: what stands before its arguments, or `string` if
nothing does. -/
def attributeType (dataType : String) : String :=
  let base := trim (beforeFirst ['('] dataType.toList)
  let word := trimWhere (· == '_') (nodeName (String.ofList base)).toList
  if word.isEmpty then "string" else String.ofList word

/-- The attribute of a field. -/
def fieldAttribute (entity : DataEntity) (field : Field) : Attribute :=
  { dataType := attributeType field.dataType
    name := nodeName field.name
    isKey := entity.primaryKey == some field.name
    isReference := field.references.isSome
    comment := field.description.map label }

/-- The block of an entity. -/
def entityBlock (entity : DataEntity) : EntityBlock :=
  { name := blockName entity.name
    attributes :=
      if entity.fields.isEmpty then
        [{ dataType := "string", name := "placeholder", comment := some "No fields defined" }]
      else entity.fields.map (fieldAttribute entity) }

/-- The first entity whose name, whatever its letter case, is a text or its plural. -/
def entityNamed? (entities : List DataEntity) (text : String) : Option DataEntity :=
  let singular := lowerString text
  entities.find? fun entity =>
    let name := lowerString entity.name
    name == singular || name == singular ++ "s"

/-- The entity that the name of a field tells of, as `customer_id` and `customerId` do. -/
def namedEntity? (field : Field) : Option String :=
  let name := field.name.toList
  ((dropSuffix? "_id".toList name).or (dropSuffix? "Id".toList name)).bind fun stem =>
    if stem.isEmpty then none else some (String.ofList stem)

/-- The entity that a field points at: the one it refers to, or else the one its name tells of. -/
def referencedEntity? (entities : List DataEntity) (field : Field) : Option DataEntity :=
  (field.references.or (namedEntity? field)).bind (entityNamed? entities)

/-- The relation of a field that points at an entity. -/
def fieldRelation? (entities : List DataEntity) (entity : DataEntity) (field : Field) :
    Option Relation :=
  (referencedEntity? entities field).map fun target =>
    ⟨blockName target.name, blockName entity.name, label field.name⟩

/-- The relations of all fields, each once. -/
def relations (entities : List DataEntity) : List Relation :=
  firstByKey id (entities.flatMap fun entity =>
    entity.fields.filterMap (fieldRelation? entities entity))

/-- The block that is shown where there are no entities. -/
def placeholderBlock : EntityBlock :=
  ⟨"PLACEHOLDER",
    [{ dataType := "string", name := "note", comment := some "No data entities found" }]⟩

/-- The entities that the project stores. -/
def entityDiagram (model : Model) : EntityDiagram :=
  { blocks :=
      if model.entities.isEmpty then [placeholderBlock] else model.entities.map entityBlock
    relations := relations model.entities }

end ArchSurvey.Diagram
