import ArchSurvey.Route.Offer
import ArchSurvey.Scan.Scanner
import ArchSurvey.Scan.Tiers
import ArchSurvey.Source.Path
import ArchSurvey.Text.Pattern

/-!
# Routes of routers with groups

Go routers register a handler under a path by a call.  A group is a router variable whose routes
lie below a prefix, and a group may belong to another group.
-/

namespace ArchSurvey.Route.Grouped

open Text
open Text.Pattern (concat oneOf opt literal group many some1 fewest blanks blanks1 noneOf textStart
  lineStart anyInLine is wordChar)

/-- A route as it is registered on a router variable. -/
structure Registration where
  router : List Char
  method : List Char
  path : List Char
  handler : Option (List Char)
  deriving DecidableEq, Repr

/-- What the sources of one file say about routes. -/
structure FileRoutes where
  package : Option (List Char) := none
  /-- The parent and prefix of each group variable, the latest declaration first. -/
  groups : List (List Char × List Char × List Char) := []
  registrations : List Registration := []
  deriving DecidableEq, Repr

/-- How deep groups may be nested; deeper ones count as cycles. -/
def maxDepth : Nat := 16

/-- The prefixes of a router variable and its parents, innermost first. -/
def segments (groups : List (List Char × List Char × List Char)) : Nat → List Char →
    List (List Char)
  | 0, _ => []
  | fuel + 1, router =>
      match groups.lookup router with
      | none => []
      | some (parent, own) => own :: segments groups fuel parent

/-- The whole prefix of a router variable. -/
def prefixOf (groups : List (List Char × List Char × List Char)) (router : List Char) :
    List Char :=
  (segments groups maxDepth router).foldr (fun segment outer => joinPaths outer segment) []

/-- The endpoint of a registration. -/
def FileRoutes.endpoint (routes : FileRoutes) (component : String) (r : Registration) :
    Endpoint :=
  let package := routes.package.getD "main".toList
  let handler := r.handler.getD r.router
  { Endpoint.web component (String.ofList r.method)
      (String.ofList (joinPaths (prefixOf routes.groups r.router) r.path)) with
    description := some (String.ofList (package ++ '.' :: handler)) }

/-- The endpoints of a file. -/
def FileRoutes.endpoints (routes : FileRoutes) (component : String) : List Endpoint :=
  routes.registrations.map (routes.endpoint component)

/-- The methods of web requests. -/
def httpVerbs : List String :=
  ["GET", "POST", "PUT", "DELETE", "PATCH", "HEAD", "OPTIONS"]

/-- The names of calls that register a handler for one method. -/
def verbCalls : List String :=
  httpVerbs ++
    ["Any", "Get", "Post", "Put", "Delete", "Patch", "Head", "Options", "All"]

/-- The method of a call, if it registers a route. -/
def methodFor (verb : List Char) : Option (List Char) :=
  if ["Any", "All", "HandleFunc", "Handle"].contains (String.ofList verb) then some "ANY".toList
  else if httpVerbs.contains (String.ofList (upper verb)) then some (upper verb)
  else none

/-- Whether a text is the path of a route: absolute, or empty for the root of a group. -/
def isRoutePath (path : List Char) : Bool :=
  path.isEmpty || path.head? == some '/'

/-- The clause that names the package, in group 1. -/
def packageClause : Pattern :=
  concat [lineStart, literal "package", blanks1, group 1 (some1 wordChar)]

/-- A literal as first argument, its text in the group. -/
def firstLiteral (number : Nat) : Pattern :=
  concat [is '(', blanks, is '"', group number (many (noneOf "\"")), is '"']

/-- A dotted name as second argument, in the group. -/
def secondName (number : Nat) : Pattern :=
  concat [blanks, is ',', blanks, group number (some1 (oneOf [wordChar, is '.']))]

/-- A group: its variable in group 1, its parent in group 2 and its prefix in group 3. -/
def groupDeclaration : Pattern :=
  concat
    [group 1 (some1 wordChar), blanks, literal ":=", blanks, group 2 (some1 wordChar),
      literal ".Group", firstLiteral 3]

/-- A route for one method: router, call, path and handler in groups 1 to 4. -/
def verbRoute : Pattern :=
  concat
    [group 1 (some1 wordChar), is '.', group 2 (oneOf (verbCalls.map literal)), firstLiteral 3,
      secondName 4]

/-- The calls that register a handler for any method. -/
def handleCall : Pattern :=
  oneOf [literal "HandleFunc", literal "Handle"]

/-- A route for any method or the methods in group 5: router, call, path and handler in groups 1
to 4. -/
def handleRoute : Pattern :=
  concat
    [group 1 (some1 wordChar), is '.', group 2 handleCall, firstLiteral 3, secondName 4,
      fewest anyInLine, is ')',
      opt (concat [literal ".Methods(", group 5 (many (noneOf ")")), is ')'])]

/-- The handler among the arguments of a call, in group 1. -/
def handlerArgument : Pattern :=
  concat
    [textStart, many (noneOf "("), is '(', blanks, is '"', many (noneOf "\""), is '"', secondName 1]

/-- The registration that a call is made on: router, path and handler in groups 1 to 3. -/
def innerRoute : Pattern :=
  concat
    [textStart, group 1 (some1 wordChar), is '.', handleCall, firstLiteral 2, secondName 3]

/-- A text in double quotes, in group 1. -/
def quoted : Pattern :=
  concat [is '"', group 1 (some1 (noneOf "\"")), is '"']

/-- The quoted methods in a text in upper case. -/
def quotedMethods (text : List Char) : List (List Char) :=
  (quoted.searchAll text).map fun found => upper (found.group 1)

/-- The name of the directory of a file. -/
def directoryName (path : String) : Option (List Char) :=
  (Path.parentName? path).map String.toList

/-- The group that an occurrence declares. -/
def groupOf (occurrence : Grammar.Occurrence) : Option (List Char × List Char × List Char) := do
  let variable_ ← occurrence.text? "group_var"
  let parent ← occurrence.text? "group_parent"
  let verb ← occurrence.text? "group_verb"
  let literal ← occurrence.text? "group_prefix"
  if verb == "Group" then
    some (variable_.toList, parent.toList, Source.unquoted literal.toList)
  else none

/-- The routes whose methods are named by a call on their registration, with the router and path
that it settles. -/
def qualifiedOf (occurrence : Grammar.Occurrence) :
    Option ((List Char × List Char) × List Registration) := do
  let object ← occurrence.text? "object"
  let verb ← occurrence.text? "verb"
  let route ← occurrence.text? "route"
  if verb != "Methods" then none
  else
    let inner ← innerRoute.search object.toList
    let router := inner.group 1
    let path := inner.group 2
    let arguments := ((cutLast ".Methods".toList route.toList).map Prod.snd).getD []
    some
      ((router, path),
        (quotedMethods arguments).map fun method => ⟨router, method, path, some (inner.group 3)⟩)

/-- The route that a call registers, unless its methods are named elsewhere. -/
def registrationOf (settled : List (List Char × List Char)) (occurrence : Grammar.Occurrence) :
    Option Registration := do
  let router := (← occurrence.text? "object").toList
  let verb ← occurrence.text? "verb"
  let path := Source.unquoted (← occurrence.text? "path").toList
  let method ← methodFor verb.toList
  if !isRoutePath path || settled.contains (router, path) then none
  else
    let handler := do
      let found ← handlerArgument.search (← occurrence.text? "route").toList
      some (found.group 1)
    some { router, method, path, handler }

/-- The routes of a file by its syntax tree. -/
def ofOccurrences (path : String) (occurrences : List Grammar.Occurrence) : FileRoutes :=
  let package := (occurrences.filterMap fun o => o.text? "package").getLast?.map String.toList
  let qualified := occurrences.filterMap qualifiedOf
  { package := package.or (directoryName path)
    groups := (occurrences.filterMap groupOf).reverse
    registrations :=
      qualified.flatMap Prod.snd ++
        occurrences.filterMap (registrationOf (qualified.map Prod.fst)) }

/-- The registration of a match for one method. -/
def verbRegistration (found : Pattern.Match) : Option Registration := do
  let method ← methodFor (found.group 2)
  let path := found.group 3
  if isRoutePath path then some ⟨found.group 1, method, path, some (found.group 4)⟩ else none

/-- The registrations of a match for any method or those that it names. -/
def handleRegistrations (found : Pattern.Match) : List Registration :=
  let path := found.group 3
  let named := quotedMethods (found.group 5)
  let methods := if named.isEmpty then ["ANY".toList] else named
  if isRoutePath path then
    methods.map fun method => ⟨found.group 1, method, path, some (found.group 4)⟩
  else []

/-- The routes of a file by its text. -/
def ofSource (path : String) (text : List Char) : FileRoutes :=
  { package := ((packageClause.search text).map fun found => found.group 1).or (directoryName path)
    groups :=
      ((groupDeclaration.searchAll text).map fun found =>
        (found.group 1, found.group 2, found.group 3)).reverse
    registrations :=
      (verbRoute.searchAll text).filterMap verbRegistration ++
        (handleRoute.searchAll text).flatMap handleRegistrations }

/-- Whether a file is read: not if it is a test or belongs to someone else. -/
def isRouteSource (path : String) : Bool :=
  !Source.isTestPath path && !Source.isBelow "vendor" path

/-- How sources are read. -/
def engine (parser : Grammar.StructuralParser) (component : Component) : TierEngine Findings :=
  { accepts := fun path => .finished (isRouteSource path)
    parser := some fun bytes => .finished (parser.parse bytes)
    extract := fun path occurrences =>
      .finished [offer component ((ofOccurrences path occurrences).endpoints component.id)]
    fallback := fun path text =>
      .finished (.ok [offer component ((ofSource path text).endpoints component.id)]) }

/-- The files that are read. -/
def patterns : List String :=
  ["**/*.go"]

/-- Scans the sources of a project. -/
def scan (parser : Grammar.StructuralParser) (context : Context) : Except ScanError ScanResult := do
  let component := Project.own context "Go"
  let files ← context.findFilesAny patterns
  let (findings, stats) := Sweep.read (engine parser component) context files
  return Sweep.finish "go-http-router" (withoutRepeatedComponents findings) stats

/-- The dependencies that bring a router. -/
def routerModules : List String :=
  ["gin-gonic", "labstack/echo", "go-chi", "gorilla/mux", "gofiber"]

/-- The scanner of Go routers. -/
def scanner (parser : Grammar.StructuralParser) : Scanner :=
  { id := "go-http-router"
    title := "Go HTTP Routers"
    languages := ["go"]
    patterns
    priority := 50
    applicability :=
      .and (.hasFiles "**/*.go")
        (.or (.hasAnyDependency routerModules) (.fileContains "**/*.go" "\"net/http\""))
    scan := fun context => .finished (.ofOutcome "go-http-router" (scan parser context)) }

end ArchSurvey.Route.Grouped
