import ArchSurvey.Decimal.Binary64

/-!
# JSON values

An object keeps its members in the order of the text, repeated names included, so that a reader of
records can tell a repeated field from a single one.
-/

namespace ArchSurvey

/-- A JSON value. -/
inductive Json where
  | null
  | bool (value : Bool)
  /-- A natural number below `2 ^ 64`. -/
  | nat (value : Nat)
  /-- A negative integer no lower than `-2 ^ 63`, by its magnitude. -/
  | negative (magnitude : Nat)
  /-- Any other number. -/
  | float (value : Decimal.Binary64)
  | str (value : String)
  | arr (items : List Json)
  | obj (members : List (String × Json))
  /-- A well-formed scalar that stands for no value: half of a surrogate pair in a string, or a
  number beyond the floating-point range. -/
  | unusable

namespace Json

/-- A value or null. -/
def ofOption {α : Type} (encode : α → Json) : Option α → Json
  | none => null
  | some value => encode value

/-- A string or null. -/
def ofString? (text : Option String) : Json :=
  ofOption str text

/-- A list of strings. -/
def ofStrings (texts : List String) : Json :=
  arr (texts.map str)

end Json

end ArchSurvey
