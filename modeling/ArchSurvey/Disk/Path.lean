import ArchSurvey.Text.Split

/-!
# Paths

A path is a text; its components are what stands between the slashes.  Empty components and dots
say nothing, except for a dot at the start of a relative path.
-/

namespace ArchSurvey.Path

/-- Whether a path starts at the root. -/
def isAbsolute (path : String) : Bool :=
  path.toList.head? == some '/'

/-- The pieces between slashes that say something. -/
def names (path : String) : List String :=
  ((Text.splitOn '/' path.toList).map String.ofList).filter fun name => name != "" && name != "."

/-- The components of a path, the root and a leading dot included. -/
def components (path : String) : List String :=
  let start :=
    if isAbsolute path then ["/"]
    else match (Text.splitOn '/' path.toList).head? with
      | some ['.'] => ["."]
      | _ => []
  start ++ names path

/-- A path followed by a relative one; an absolute one stands alone. -/
def join (base path : String) : String :=
  if isAbsolute path then path
  else if base == "" then path
  else if base.toList.getLast? == some '/' then base ++ path
  else base ++ "/" ++ path

/-- The last component, unless it leads upwards. -/
def fileName? (path : String) : Option String :=
  match (names path).getLast? with
  | some ".." => none
  | other => other

/-- The last component, empty if there is none. -/
def fileName (path : String) : String :=
  (fileName? path).getD ""

/-- The text of components. -/
def ofComponents : List String → String
  | "/" :: rest => "/" ++ String.intercalate "/" rest
  | components => String.intercalate "/" components

/-- The path without its last component; none for the root and the empty path. -/
def parent? (path : String) : Option String :=
  match components path with
  | [] => none
  | ["/"] => none
  | components => some (ofComponents components.dropLast)

/-- The name of the directory that a path lies in. -/
def parentName? (path : String) : Option String :=
  (parent? path).bind fileName?

/-- A file name before its last dot, if that dot is not its first character, and what follows. -/
def splitExtension (name : String) : String × Option String :=
  match Text.cutLast ['.'] name.toList with
  | none => (name, none)
  | some ([], _) => (name, none)
  | some (stem, extension) => (String.ofList stem, some (String.ofList extension))

/-- The file name without its extension. -/
def stem (path : String) : String :=
  match fileName? path with
  | none => ""
  | some name => (splitExtension name).1

/-- The extension of the file name. -/
def extension? (path : String) : Option String :=
  (fileName? path).bind fun name => (splitExtension name).2

/-- The rest of a list of components after others that it starts with. -/
def dropComponents? : List String → List String → Option (List String)
  | [], rest => some rest
  | _ :: _, [] => none
  | a :: start, b :: rest => if a == b then dropComponents? start rest else none

/-- A path below a directory as seen from there, and any other path as it is, with slashes between
the components. -/
def relativeTo (root path : String) : String :=
  let parts := components path
  String.intercalate "/" ((dropComponents? (components root) parts).getD parts)

end ArchSurvey.Path
