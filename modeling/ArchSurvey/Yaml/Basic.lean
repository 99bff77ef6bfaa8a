/-!
# YAML documents

The tree of a document.  A scalar keeps its text: what a plain one stands for is decided by who
reads it.
-/

namespace ArchSurvey

/-- A part of a YAML document. -/
inductive Yaml where
  /-- A scalar, with whether it stands in the text without quotes and block markers. -/
  | scalar (isPlain : Bool) (text : String)
  | list (items : List Yaml)
  | map (entries : List (Yaml × Yaml))

namespace Yaml

/-- What stands where nothing is written. -/
def nothing : Yaml :=
  scalar true ""

/-- The text of a scalar. -/
def text? : Yaml → Option String
  | scalar _ text => some text
  | _ => none

end Yaml

end ArchSurvey
