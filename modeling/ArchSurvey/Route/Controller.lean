import ArchSurvey.Declaration.Reader
import ArchSurvey.Route.Offer
import ArchSurvey.Scan.Scanner
import ArchSurvey.Scan.Tiers
import ArchSurvey.Source.Path
import ArchSurvey.Text.LetterCase

/-!
# Routes of controllers

Spring controllers are classes with an annotation that says so.  An annotation of a method maps
paths below that of its class to the method, for one or more methods of web requests.
-/

namespace ArchSurvey.Route.Controller

open Text
open Declaration (Note Heading splitArguments)

/-- The annotations that make a class a controller. -/
def controllerAnnotations : List String :=
  ["RestController", "Controller"]

/-- The annotations of parameters that say what a request is made of. -/
def parameterAnnotations : List String :=
  ["PathVariable", "RequestParam", "RequestBody", "RequestHeader"]

/-- A method of a class with what is known of both. -/
structure Handler where
  classAnnotations : List Note
  className : String
  annotations : List Note
  name : String
  parameters : List Char

/-- The text without the given starts, however often repeated. -/
def dropRepeated (start : List Char) : Nat → List Char → List Char
  | 0, text => text
  | fuel + 1, text =>
      match dropPrefix? start text with
      | some rest => dropRepeated start fuel rest
      | none => text

/-- The name of a request method, without qualification and in upper case. -/
def methodName (text : List Char) : List Char :=
  let text := trim text
  upper (dropRepeated "RequestMethod.".toList text.length text)

/-- The request methods that a general mapping names, or else one. -/
def namedMethods (note : Note) : List (List Char) :=
  match note.valueOf? "method" with
  | none => ["GET".toList]
  | some value =>
      let inner := trimWhile (fun c => c == '\x7b' || c == '\x7d') value
      let methods := ((splitOn ',' inner).map methodName).filter fun method => !method.isEmpty
      if methods.isEmpty then ["GET".toList] else methods

/-- The request methods of a mapping; none if an annotation is no mapping. -/
def methodsOf (note : Note) : Option (List (List Char)) :=
  match note.name with
  | "GetMapping" => some ["GET".toList]
  | "PostMapping" => some ["POST".toList]
  | "PutMapping" => some ["PUT".toList]
  | "DeleteMapping" => some ["DELETE".toList]
  | "PatchMapping" => some ["PATCH".toList]
  | "RequestMapping" => some (namedMethods note)
  | _ => none

/-- The paths of a mapping; one without paths maps the path of its class. -/
def pathsOf (note : Note) : List (List Char) :=
  let values := note.stringsOf "value"
  let paths := if values.isEmpty then note.stringsOf "path" else values
  if paths.isEmpty then [[]] else paths

/-- What a parameter says of the request: its annotation, name and type. -/
def parameterSchema (parameter : List Char) : Option (List Char) := do
  let heading := Heading.ofText parameter
  let kind ← heading.annotations.find? fun note =>
    parameterAnnotations.contains note.name
  let (type, name) ← cutLastBlank (trim heading.rest)
  some (kind.name.toList ++ ':' :: trim name ++ ':' :: trim type)

/-- The text between the parentheses around a list of parameters. -/
def insideParentheses (parameters : List Char) : List Char :=
  dropEndWhile (· == ')') ((trim parameters).dropWhile (· == '('))

/-- What the parameters of a method say of the request, if anything. -/
def requestSchema (parameters : List Char) : Option String :=
  let parts := (splitArguments (insideParentheses parameters)).filterMap parameterSchema
  if parts.isEmpty then none else some (String.ofList (joinWith ", ".toList parts))

namespace Handler

/-- Whether the class is a controller. -/
def isController (handler : Handler) : Bool :=
  handler.classAnnotations.any fun note => controllerAnnotations.contains note.name

/-- The path that all paths of the class lie below. -/
def base (handler : Handler) : List Char :=
  match handler.classAnnotations.find? fun note => note.name == "RequestMapping" with
  | some note => note.path
  | none => []

/-- The request methods and paths of the first mapping of the method. -/
def routes (handler : Handler) : List (List Char × List Char) :=
  match handler.annotations.findSome? fun a => (methodsOf a).map (a, ·) with
  | some (mapping, methods) =>
      methods.flatMap fun method => (pathsOf mapping).map fun path => (method, path)
  | none => []

/-- The endpoints of the method. -/
def endpoints (handler : Handler) (component : String) : List Endpoint :=
  if handler.isController then
    handler.routes.map fun (method, path) =>
      { Endpoint.web component (String.ofList method)
          (String.ofList (joinPaths handler.base path)) with
        description := some (handler.className ++ "." ++ handler.name)
        requestSchema := requestSchema handler.parameters }
  else []

end Handler

/-- The handler that an occurrence is. -/
def handlerOf (occurrence : Grammar.Occurrence) : Handler :=
  let annotationsOf (name : String) : List Note :=
    (Heading.ofText ((occurrence.text? name).getD "").toList).annotations
  { classAnnotations := annotationsOf "class_annotations"
    className := (occurrence.text? "class_name").getD ""
    annotations := annotationsOf "method_annotations"
    name := (occurrence.text? "method_name").getD ""
    parameters := ((occurrence.text? "params").getD "()").toList }

/-- The handler that a member of a type is. -/
def handlerOfMember (type : Declaration.Declared) (className : String)
    (member : Declaration.Declared) : Option Handler :=
  match member.member with
  | .method _ name parameters =>
      some
        { classAnnotations := type.annotations
          className
          annotations := member.annotations
          name
          parameters }
  | _ => none

/-- The handlers of a source by its text, by class. -/
def handlersOfSource (text : List Char) : List Handler :=
  let source := Declaration.readSource text
  (Declaration.typesOf source).flatMap fun (type, name) =>
    (Declaration.membersOf source name).filterMap (handlerOfMember type name)

/-- The endpoints of a source by its text. -/
def ofSource (component : String) (text : List Char) : List Endpoint :=
  (handlersOfSource text).flatMap fun handler => handler.endpoints component

/-- The endpoints of a source by its syntax tree. -/
def ofOccurrences (component : String) (occurrences : List Grammar.Occurrence) : List Endpoint :=
  occurrences.flatMap fun occurrence => (handlerOf occurrence).endpoints component

/-- How sources are read. -/
def engine (parser : Grammar.StructuralParser) (component : Component) : TierEngine Findings :=
  { accepts := fun path => .finished (!Source.isTestPath path)
    parser := some fun bytes => .finished (parser.parse bytes)
    extract := fun _ occurrences =>
      .finished [offer component (ofOccurrences component.id occurrences)]
    fallback := fun _ text => .finished (.ok [offer component (ofSource component.id text)]) }

/-- The files that are read. -/
def patterns : List String :=
  ["**/*.java"]

/-- The scanner of Spring controllers. -/
def scanner (parser : Grammar.StructuralParser) : Scanner :=
  { id := "spring-rest-api"
    title := "Spring REST API"
    languages := ["java"]
    patterns
    priority := 50
    applicability :=
      .and (.hasFiles "**/*.java")
        (.or
          (.or (.hasAnyDependency ["spring-web", "spring-boot-starter-web"])
            (.fileContains "**/*.java" "@RestController"))
          (.fileContains "**/*.java" "@Controller"))
    scan := fun context =>
      .finished (.ofOutcome "spring-rest-api"
        (Sweep.run "spring-rest-api" (engine parser (Project.own context "Spring Boot")) context
          patterns)) }

end ArchSurvey.Route.Controller
