import ArchSurvey.Disk.Path
import ArchSurvey.Text.Split

/-!
# Sources

String literals, and what the path of a source file says about its role.
-/

namespace ArchSurvey.Source

open Text

/-! ## String literals -/

/-- Whether a character opens and closes string literals. -/
def isStringQuote (c : Char) : Bool :=
  ['"', '\'', '\x60'].contains c

/-- Whether a letter may stand before a string literal to tell its kind. -/
def isLiteralMark (c : Char) : Bool :=
  ['r', 'b', 'u', 'f', 'R', 'B', 'U', 'F'].contains c

/-- The inside of a string literal, without the letters before it. -/
def unquoted (literal : List Char) : List Char :=
  let text := trim literal
  let body :=
    match text.dropWhile isLiteralMark with
    | first :: second :: rest =>
        if isStringQuote first then first :: second :: rest else text
    | _ => text
  trimWhile isStringQuote body

/-!
## Source paths

What the path of a source file says about its role.
-/

/-- Whether a path looks like that of test code. -/
def isTestPath (path : String) : Bool :=
  let normal := path.toList.map fun c => if c == '\\' then '/' else c
  let name := (Path.fileName path).toList
  (["/src/test/", "/tests/", "/__tests__/"].any fun part => occursIn part.toList normal) ||
    startsWith "test_".toList name || name == "conftest.py".toList ||
    endsWith "_test.py".toList name || endsWith "_test.go".toList name ||
    occursIn ".test.".toList name || occursIn ".spec.".toList name

/-- Whether some component of a path is the given name. -/
def isBelow (name path : String) : Bool :=
  (Path.names path).contains name

/-- The name of the module that a file is: its name without extension. -/
def moduleName (path : String) : String :=
  Path.stem path

end ArchSurvey.Source
