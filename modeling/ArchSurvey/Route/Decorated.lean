import ArchSurvey.Route.Offer
import ArchSurvey.Scan.Scanner
import ArchSurvey.Scan.Tiers
import ArchSurvey.Source.Path
import ArchSurvey.Text.Pattern

/-!
# Routes of decorated functions

Flask routes are functions with a decorator that names a path: a verb as in `app.get`, or `route`
with the methods as an argument.  The fallback reads decorators line by line and takes the name of
the function from the lines that follow.
-/

namespace ArchSurvey.Route.Decorated

open Text
open Text.Pattern (concat oneOf opt literal group many some1 fewest1 blanks blanks1 noneOf textStart
  anyInLine is anyOf wordChar)

/-- The verbs that a decorator may name. -/
def verbs : List String :=
  ["get", "post", "put", "delete", "patch"]

/-- The opening of a string literal, with the letter that may stand before it. -/
def openString : Pattern :=
  concat [opt (anyOf "rbuf"), anyOf "'\""]

/-- A name after an at sign, in group 1, and a dot. -/
def decoratedName : Pattern :=
  concat [is '@', group 1 (some1 wordChar), is '.']

/-- A path literal as first argument, its text in the group. -/
def firstPath (number : Nat) : Pattern :=
  concat [blanks, is '(', blanks, openString, group number (fewest1 anyInLine), anyOf "'\""]

/-- A decorator that names a verb in group 2 and a path in group 3. -/
def verbRoute : Pattern :=
  concat [decoratedName, group 2 (oneOf (verbs.map literal)), firstPath 3]

/-- A decorator that names a path in group 2 and methods in group 3. -/
def methodsRoute : Pattern :=
  concat
    [decoratedName, literal "route", firstPath 2, blanks, is ',', blanks, literal "methods", blanks,
      is '=', blanks, is '[', group 3 (some1 (noneOf "]")), is ']']

/-- A decorator that names a path only, in group 2. -/
def plainRoute : Pattern :=
  concat [decoratedName, literal "route", firstPath 2, blanks, is ')']

/-- A function: its name in group 1 and its parameters in group 2. -/
def functionLine : Pattern :=
  concat
    [literal "def", blanks1, group 1 (some1 wordChar), blanks, is '(', group 2 (many anyInLine),
      is ')', blanks, opt (.seq (literal "->") (many anyInLine)), is ':']

/-- The path literal that arguments begin with, in group 1. -/
def firstString : Pattern :=
  concat
    [textStart, is '(', blanks, openString, group 1 (many (noneOf "'\"")), anyOf "'\""]

/-- The argument that names methods, in group 1. -/
def methodsArgument : Pattern :=
  concat
    [literal "methods", blanks, is '=', blanks, anyOf "[(", group 1 (many (noneOf "])")),
      anyOf "])"]

/-- A quoted word, in group 1. -/
def quotedWord : Pattern :=
  concat [anyOf "'\"", group 1 (some1 wordChar), anyOf "'\""]

/-- The quoted words of a text in upper case. -/
def quotedMethods (text : List Char) : List (List Char) :=
  (quotedWord.searchAll text).map fun found => upper (found.group 1)

/-- How many lines after a decorator may hold its function. -/
def lookahead : Nat := 5

/-- What an endpoint is described by: module, function and parameters. -/
def describe (module : String) (handler params : List Char) : String :=
  let params := dropEndWhile (· == ')') ((trim params).dropWhile (· == '('))
  module ++ "." ++ String.ofList handler ++ "(" ++ String.ofList (trim params) ++ ")"

/-- The endpoint of a function for one method. -/
def endpoint (component module : String) (handler params method path : List Char) : Endpoint :=
  { Endpoint.web component (String.ofList method) (String.ofList path) with
    description := some (describe module handler params) }

/-- The methods that the arguments of a decorator stand for; none if it names no verb. -/
def methodsOf (verb arguments : String) : Option (List (List Char)) :=
  if verb == "route" then
    match methodsArgument.search arguments.toList with
    | some found => some (quotedMethods (found.group 1))
    | none => some ["GET".toList]
  else if verbs.contains verb then some [upper verb.toList]
  else none

/-- The endpoints of one decorator in a syntax tree. -/
def ofOccurrence (component module : String) (occurrence : Grammar.Occurrence) :
    List Endpoint :=
  match occurrence.text? "verb", occurrence.text? "args", occurrence.text? "handler" with
  | some verb, some arguments, some handler =>
      match firstString.search arguments.toList, methodsOf verb arguments with
      | some found, some methods =>
          let params := (occurrence.text? "params").getD "()"
          methods.map fun method =>
            endpoint component module handler.toList params.toList method (found.group 1)
      | _, _ => []
  | _, _, _ => []

/-- The methods and paths that the line of a decorator names. -/
def routesOfLine (line : List Char) : List (List Char × List Char) :=
  match verbRoute.search line with
  | some found => [(upper (found.group 2), found.group 3)]
  | none =>
      match methodsRoute.search line with
      | some found => (quotedMethods (found.group 3)).map fun method => (method, found.group 2)
      | none =>
          match plainRoute.search line with
          | some found => [("GET".toList, found.group 2)]
          | none => []

/-- The name and parameters of the first function in some lines. -/
def functionIn (lines : List (List Char)) : List Char × List Char :=
  match lines.findSome? functionLine.search with
  | some found => (found.group 1, found.group 2)
  | none => ("<unknown>".toList, [])

/-- The endpoints that the decorators among some lines stand for. -/
def ofLines (component module : String) : List (List Char) → List Endpoint
  | [] => []
  | line :: rest =>
      let text := trim line
      let here :=
        if text.head? == some '@' then
          let routes := routesOfLine text
          let (handler, params) := functionIn (rest.take lookahead)
          routes.map fun (method, path) => endpoint component module handler params method path
        else []
      here ++ ofLines component module rest

/-- The endpoints of a source by its text. -/
def ofSource (component module : String) (text : List Char) : List Endpoint :=
  ofLines component module (lines text)

/-- How sources are read. -/
def engine (parser : Grammar.StructuralParser) (component : Component) : TierEngine Findings :=
  { accepts := fun path => .finished (!Source.isTestPath path)
    parser := some fun bytes => .finished (parser.parse bytes)
    extract := fun path occurrences =>
      .finished
        [offer component
          (occurrences.flatMap (ofOccurrence component.id (Source.moduleName path)))]
    fallback := fun path text =>
      .finished (.ok [offer component (ofSource component.id (Source.moduleName path) text)]) }

/-- The files that are read. -/
def patterns : List String :=
  ["**/*.py"]

/-- The scanner of Flask routes. -/
def scanner (parser : Grammar.StructuralParser) : Scanner :=
  { id := "flask-routes"
    title := "Flask Routes"
    languages := ["python"]
    patterns
    priority := 51
    applicability :=
      .and (.hasFiles "**/*.py")
        (.or (.or (.hasDependency "flask") (.fileContains "**/*.py" "from flask"))
          (.fileContains "**/*.py" "import flask"))
    scan := fun context =>
      .finished (.ofOutcome "flask-routes"
        (Sweep.run "flask-routes" (engine parser (Project.own context "Flask")) context
          patterns)) }

end ArchSurvey.Route.Decorated
