import ArchSurvey.Proofs.Scan.Methods
import ArchSurvey.Proofs.Survey.Sequence
import ArchSurvey.Survey.Builtin

/-!
# Methods of the built-in scanners

Ten of the built-in scanners make a single pass; the one for method calls makes
two, one for each language.
-/

namespace ArchSurvey

namespace Findings

theorem append_assoc (first second third : Findings) :
    first ++ second ++ third = first ++ (second ++ third) := by
  change append (append first second) third =
    append first (append second third)
  simp [append]

theorem append_empty (findings : Findings) : findings ++ empty = findings := by
  change append findings empty = findings
  simp [append, empty]

theorem foldl_append (first : Findings) (all : List Findings) :
    all.foldl append first = first ++ concat all := by
  unfold concat
  induction all generalizing first with
  | nil => exact (append_empty first).symm
  | cons next rest ih =>
      have nothing : append empty next = empty ++ next := rfl
      have here : append first next = first ++ next := rfl
      have start : first ++ empty = first := append_empty first
      rw [List.foldl_cons, List.foldl_cons, ih, nothing, ih (empty ++ next),
        here, ← append_assoc, ← append_assoc, start]

theorem concat_append (first second : List Findings) :
    concat (first ++ second) = concat first ++ concat second := by
  rw [concat, List.foldl_append, foldl_append]
  rfl

end Findings

namespace Route.Call

/-- How method calls are found: each language has a pass of its own. -/
def method (javaScript typeScript : Grammar.StructuralParser)
    (component : Component) : Method :=
  { Datum := Findings
    passes :=
      [⟨engine javaScript component, .matching "**/*.js"⟩,
        ⟨engine typeScript component, .matching "**/*.ts"⟩]
    conclude := fun found =>
      withoutRepeatedComponents (Findings.concat found) }

/-- The passes over both languages are counted together. -/
theorem scan_eq_method (javaScript typeScript : Grammar.StructuralParser)
    (context : Context) :
    scan javaScript typeScript context =
      (method javaScript typeScript (Project.own context "Express")).scan
        "express-routes" context := by
  simp only [scan, method, Method.scan, Pass.readAll, Pass.reading,
    FileChoice.files]
  cases plain : context.findFiles "**/*.js" with
  | error error => rfl
  | ok files =>
      cases typed : context.findFiles "**/*.ts" with
      | error error => rfl
      | ok typedFiles =>
          simp only [Except.map, Except.bind, Findings.concat_append,
            Statistics.combine, TierEngine.discovered_parseFiles]
          rfl

theorem follows (javaScript typeScript : Grammar.StructuralParser) :
    (scanner javaScript typeScript).Follows fun context =>
      method javaScript typeScript (Project.own context "Express") := by
  intro context
  change Attempt.finished (ScanResult.ofOutcome "express-routes"
    (scan javaScript typeScript context)) = _
  rw [scan_eq_method]
  rfl

end Route.Call

/-- How the built-in scanner with some identity works. -/
def builtinMethod (grammars : Bool) (scanner : String) (context : Context) :
    Method :=
  let parser (query : Grammar.Query) : Grammar.StructuralParser :=
    query.parser grammars
  match scanner with
  | "maven-dependencies" =>
      .single Manifest.Pom.engine Manifest.Pom.patterns .concat
  | "npm-dependencies" =>
      .single
        (Manifest.PackageJson.engine (Manifest.PackageJson.includesDev context))
        Manifest.PackageJson.patterns .concat
  | "pip-poetry-dependencies" =>
      let project := Project.own context "Python"
      .single (Manifest.PythonPackages.engine project.id)
        Manifest.PythonPackages.patterns fun found =>
          let findings := Findings.concat found
          { findings with
            components := findings.components ++
              if findings.dependencies.isEmpty then [] else [project] }
  | "go-modules" =>
      .single Manifest.GoModule.engine Manifest.GoModule.patterns .concat
  | "flask-routes" =>
      .single
        (Route.Decorated.engine (parser .decoratedRoutes)
          (Project.own context "Flask"))
        Route.Decorated.patterns .concat
  | "spring-rest-api" =>
      .single
        (Route.Controller.engine (parser .controllerMethods)
          (Project.own context "Spring Boot"))
        Route.Controller.patterns .concat
  | "express-routes" =>
      Route.Call.method (parser .routeCalls) (parser .typedRouteCalls)
        (Project.own context "Express")
  | "go-http-router" =>
      .single
        (Route.Grouped.engine (parser .routerCalls) (Project.own context "Go"))
        Route.Grouped.patterns fun found =>
          Route.withoutRepeatedComponents (Findings.concat found)
  | "jpa-entities" =>
      let database := Project.database context "JPA"
      .single (Entity.Mapped.engine (parser .entityFields) database)
        Entity.Mapped.patterns fun found =>
          let findings := Findings.concat found
          { findings with
            relationships := findings.relationships ++
              if findings.entities.isEmpty then []
              else [Entity.Mapped.usage context database] }
  | "sql-migrations" =>
      let database := Project.database context "SQL"
      .single Schema.migrationEngine Schema.scriptPatterns fun scripts =>
        let entities :=
          (Schema.replayInOrder scripts).map (Schema.Table.entity database.id)
        { components := if entities.isEmpty then [] else [database], entities }
  | "kafka-consumer" =>
      .single (Messaging.Topic.engine (Project.ownId context))
        Messaging.Topic.patterns fun found =>
          Messaging.Topic.withTopology context (Findings.concat found)
  | _ => { Datum := Findings, passes := [], conclude := .concat }

theorem builtinMethod_with_previous (grammars : Bool) (scanner : String)
    (context : Context) (previous : List (String × ScanResult)) :
    builtinMethod grammars scanner { context with previous } =
      builtinMethod grammars scanner context :=
  rfl

/-- A scanner that makes one sweep follows a method with one pass. -/
theorem Scanner.follows_single {α : Type} {scanner : Scanner}
    (engine : Context → TierEngine α) (patterns : List String)
    (conclude : Context → List α → Findings)
    (sweeps : ∀ context, scanner.scan context =
      .finished (.ofOutcome scanner.id
        ((engine context).sweep scanner.id patterns (conclude context)
          context))) :
    scanner.Follows fun context =>
      .single (engine context) patterns (conclude context) := by
  intro context
  rw [sweeps, Method.scan_single]

/-- A result by a method bears the identity of its scanner. -/
theorem Scanner.Follows.bearsOwnId {scanner : Scanner}
    {method : Context → Method} (follows : scanner.Follows method) :
    scanner.BearsOwnId := by
  intro context result scanned
  rw [follows context, Method.scan] at scanned
  cases read : Pass.readAll context (method context).passes with
  | error error =>
      rw [read] at scanned
      cases scanned
      rfl
  | ok reading =>
      rw [read] at scanned
      cases scanned
      rfl

/-- Every built-in scanner follows its method. -/
theorem follows_of_mem_builtinScanners {grammars : Bool} {scanner : Scanner}
    (member : scanner ∈ builtinScanners grammars) :
    scanner.Follows (builtinMethod grammars scanner.id) := by
  simp only [builtinScanners, List.mem_cons, List.not_mem_nil, or_false]
    at member
  rcases member with rfl | rfl | rfl | rfl | rfl | rfl | rfl | rfl | rfl | rfl |
    rfl
  · exact Scanner.follows_single _ _ _ fun _ => rfl
  · exact Scanner.follows_single _ _ _ fun _ => rfl
  · exact Scanner.follows_single _ _ _ fun _ => rfl
  · exact Scanner.follows_single _ _ _ fun _ => rfl
  · exact Scanner.follows_single _ _ _ fun _ => rfl
  · exact Scanner.follows_single _ _ _ fun _ => rfl
  · exact Route.Call.follows _ _
  · exact Scanner.follows_single _ _ _ fun _ => rfl
  · exact Scanner.follows_single _ _ _ fun _ => rfl
  · exact Scanner.follows_single _ _ _ fun _ => rfl
  · exact Scanner.follows_single _ _ _ fun _ => rfl

/-- A project whose only file was removed after it was listed. -/
def vanished : Context :=
  { disk := { tree := .emptyDirectory, current := [] }
    root := "/shop"
    projectName := "shop"
    listing := .ok [⟨"package.json", "/shop/package.json"⟩] }

theorem findFilesAny_vanished :
    vanished.findFilesAny Manifest.PackageJson.patterns =
      .ok ["/shop/package.json"] := by
  let manifests : Glob :=
    ⟨"**/package.json", .leadingDirectories ::
      "package.json".toList.map .literal⟩
  have read : Glob.ofText "**/package.json" = .ok manifests := rfl
  have matched : manifests.matchesPath "package.json" = true := by
    decide +kernel
  have listed : vanished.entries =
      .ok [⟨"package.json", "/shop/package.json"⟩] := rfl
  simp [Manifest.PackageJson.patterns, Context.findFilesAny, Context.findMore,
    Context.findFiles, read, listed, Listing.matching, Listing.union, matched,
    bind, Except.bind, pure, Except.pure, List.eraseDups_cons]

theorem read_vanished :
    vanished.disk.read "/shop/package.json" = .error .notFound := by
  have named : Disk.lookupNames true "/shop/package.json" =
      ["shop", "package.json"] := by decide
  simp [vanished, Disk.read, Disk.node, Disk.place, named, Disk.maxLinks,
    Disk.resolveFrom, Disk.walk, Node.at?, Node.entry?, Node.emptyDirectory,
    Node.isDirectory, bind, Except.bind, Except.map]

theorem parseFiles_vanished (withDev : Bool) :
    (Manifest.PackageJson.engine withDev).parseFiles vanished
      ["/shop/package.json"] =
        ([], TierEngine.fail { discovered := 1, scanned := 1 } "io"
          "/shop/package.json: unreadable") := by
  have early : vanished.isExpired "/shop/package.json" = false := rfl
  simp only [TierEngine.parseFiles_eq_foldl, TierEngine.readInTurn,
    List.filter_cons, early, Bool.not_false, if_true, List.filter_nil,
    List.foldl_cons, TierEngine.readNext, TierEngine.parseFile, read_vanished]
  rfl

end ArchSurvey
