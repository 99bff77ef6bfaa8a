import ArchSurvey.Route.Offer
import ArchSurvey.Scan.Scanner
import ArchSurvey.Scan.Tiers
import ArchSurvey.Source.Path
import ArchSurvey.Text.Pattern

/-!
# Routes of method calls

Express routes are calls of a verb on an application or router whose first argument is a path.
-/

namespace ArchSurvey.Route.Call

open Text
open Text.Pattern (concat oneOf literal group some1 blanks noneOf is anyOf wordChar)

/-- The methods of a router that register routes. -/
def verbs : List String :=
  ["get", "post", "put", "delete", "patch", "all", "options", "head"]

/-- A call: the object in group 1, the verb in group 2 and the first argument in group 3. -/
def callPattern : Pattern :=
  concat
    [group 1 (some1 wordChar), is '.', group 2 (oneOf (verbs.map literal)), blanks, is '(', blanks,
      anyOf "'\"\x60", group 3 (some1 (noneOf "'\"\x60")), anyOf "'\"\x60"]

/-- Whether a text is the path of a route: absolute, or a star. -/
def isRoutePath (path : List Char) : Bool :=
  path.head? == some '/' || path == ['*']

/-- The endpoint of a call, if it registers a route. -/
def endpoint? (component module object verb : String) (path : List Char) : Option Endpoint :=
  if verbs.contains verb && isRoutePath path then
    let method := if verb == "all" then "ANY" else verb
    some
      { Endpoint.web component method (String.ofList path) with
        description := some (module ++ "." ++ object ++ "." ++ verb) }
  else none

/-- The endpoint of a call in a syntax tree. -/
def ofOccurrence (component module : String) (occurrence : Grammar.Occurrence) :
    Option Endpoint := do
  let object ← occurrence.text? "object"
  let verb ← occurrence.text? "verb"
  let path ← occurrence.text? "path"
  endpoint? component module object verb (Source.unquoted path.toList)

/-- The endpoints of a source by its text. -/
def ofSource (component module : String) (text : List Char) : List Endpoint :=
  (callPattern.searchAll text).filterMap fun found =>
    endpoint? component module (found.groupString 1) (found.groupString 2) (found.group 3)

/-- Whether a file may register routes: not if it only declares, is generated, or is a test. -/
def isRouteSource (path : String) : Bool :=
  let name := (Path.fileName path).toList
  !(endsWith ".d.ts".toList name || endsWith ".min.js".toList name ||
    Source.isBelow "node_modules" path || Source.isTestPath path)

/-- How sources are read. -/
def engine (parser : Grammar.StructuralParser) (component : Component) : TierEngine Findings :=
  { accepts := fun path => .finished (isRouteSource path)
    parser := some fun bytes => .finished (parser.parse bytes)
    extract := fun path occurrences =>
      .finished
        [offer component
          (occurrences.filterMap (ofOccurrence component.id (Source.moduleName path)))]
    fallback := fun path text =>
      .finished (.ok [offer component (ofSource component.id (Source.moduleName path) text)]) }

/-- The files that are read. -/
def patterns : List String :=
  ["**/*.js", "**/*.ts"]

/-- Scans the sources of a project, each language with its own parser. -/
def scan (javaScript typeScript : Grammar.StructuralParser) (context : Context) :
    Except ScanError ScanResult := do
  let component := Project.own context "Express"
  let files ← context.findFiles "**/*.js"
  let typedFiles ← context.findFiles "**/*.ts"
  let (findings, stats) := Sweep.read (engine javaScript component) context files
  let (typedFindings, typedStats) := Sweep.read (engine typeScript component) context typedFiles
  return Sweep.finish "express-routes" (withoutRepeatedComponents (findings ++ typedFindings))
    { stats.merge typedStats with discovered := files.length + typedFiles.length }

/-- The scanner of Express routes. -/
def scanner (javaScript typeScript : Grammar.StructuralParser) : Scanner :=
  { id := "express-routes"
    title := "Express.js Routes"
    languages := ["javascript", "typescript"]
    patterns
    priority := 50
    applicability :=
      .and (.hasAnyFiles patterns)
        (.or (.or (.hasDependency "express") (.fileContains "**/*.js" "express"))
          (.fileContains "**/*.ts" "express"))
    scan := fun context =>
      .finished (.ofOutcome "express-routes" (scan javaScript typeScript context)) }

end ArchSurvey.Route.Call
