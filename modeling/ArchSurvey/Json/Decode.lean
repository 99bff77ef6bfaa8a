import ArchSurvey.Json.Basic
import ArchSurvey.Keyed

/-!
# Decoding JSON values

Readers of typed values.  A record is an object, whose unknown members are passed over and whose
known ones stand at most once, or an array of its fields in order.
-/

namespace ArchSurvey.Json

/-- A reader of values of a type. -/
abbrev Decoder (α : Type) := Json → Option α

/-- A string. -/
def string : Decoder String
  | str value => some value
  | _ => none

/-- A truth value. -/
def truth : Decoder Bool
  | bool value => some value
  | _ => none

/-- A natural number of at most sixty-four bits. -/
def natural : Decoder Nat
  | nat value => some value
  | _ => none

/-- A signed integer of at most thirty-two bits. -/
def int32 : Decoder Int
  | nat value => if value < 2147483648 then some value else none
  | negative magnitude => if magnitude ≤ 2147483648 then some (-(magnitude : Int)) else none
  | _ => none

/-- A value or null. -/
def option {α : Type} (decode : Decoder α) : Decoder (Option α)
  | null => some none
  | value => (decode value).map some

/-- An array of values. -/
def list {α : Type} (decode : Decoder α) : Decoder (List α)
  | arr items => items.mapM decode
  | _ => none

/-- An object of values by name, sorted, the last of those with one name kept. -/
def map {α : Type} (decode : Decoder α) : Decoder (List (String × α))
  | obj members => do
      let values ← members.mapM fun (name, value) => (decode value).map (name, ·)
      some (Keyed.ofList values)
  | _ => none

/-- The name of a variant, alone or as the only member of an object, with null for a value. -/
def variantName : Decoder String
  | str name => some name
  | obj [(name, null)] => some name
  | _ => none

mutual

/-- A value without unusable parts, the members of its objects sorted by name and the last one of
each name kept. -/
def plain : Decoder Json
  | arr items => (plainItems items).map arr
  | obj members => (plainMembers members).map fun members => obj (Keyed.ofList members)
  | unusable => none
  | value => some value

/-- Items without unusable parts. -/
def plainItems : List Json → Option (List Json)
  | [] => some []
  | item :: rest => do
      let item ← plain item
      some (item :: (← plainItems rest))

/-- Members without unusable parts. -/
def plainMembers : List (String × Json) → Option (List (String × Json))
  | [] => some []
  | (name, value) :: rest => do
      let value ← plain value
      some ((name, value) :: (← plainMembers rest))

end

/-- A variant by its name. -/
def variant {α : Type} (named : String → Option α) : Decoder α := fun value =>
  (variantName value).bind named

/-- The fields of a record that its text gives. -/
structure Fields where
  members : List (String × Json)

/-- How often a name occurs among members. -/
def occurrences (name : String) (members : List (String × Json)) : Nat :=
  members.countP fun member => member.1 == name

/-- An object with the given field names, each given at most once. -/
def objectRecord (names : List String) : Decoder Fields
  | obj members =>
      if names.all fun name => occurrences name members ≤ 1 then some ⟨members⟩ else none
  | _ => none

/-- A record with the given field names, as an object or as an array of fields in order. -/
def record (names : List String) : Decoder Fields
  | arr items => if items.length ≤ names.length then some ⟨names.zip items⟩ else none
  | value => objectRecord names value

namespace Fields

/-- The value of a field. -/
def value? (fields : Fields) (name : String) : Option Json :=
  fields.members.lookup name

/-- A field that has to be given. -/
def required {α : Type} (fields : Fields) (name : String) (decode : Decoder α) : Option α :=
  (fields.value? name).bind decode

/-- A field that may be left out for a default value. -/
def withDefault {α : Type} (fields : Fields) (name : String) (default : α) (decode : Decoder α) :
    Option α :=
  match fields.value? name with
  | none => some default
  | some value => decode value

/-- A field that may be left out or null. -/
def optional {α : Type} (fields : Fields) (name : String) (decode : Decoder α) :
    Option (Option α) :=
  fields.withDefault name none (option decode)

/-- A list of values that may be left out when empty. -/
def listOf {α : Type} (fields : Fields) (name : String) (decode : Decoder α) : Option (List α) :=
  fields.withDefault name [] (list decode)

end Fields

end ArchSurvey.Json
