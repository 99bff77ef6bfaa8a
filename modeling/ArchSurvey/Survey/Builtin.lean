import ArchSurvey.Entity.Mapped
import ArchSurvey.Grammar.Structural
import ArchSurvey.Manifest.GoModule
import ArchSurvey.Manifest.PackageJson
import ArchSurvey.Manifest.Pom
import ArchSurvey.Manifest.PythonPackages
import ArchSurvey.Messaging.Topic
import ArchSurvey.Route.Call
import ArchSurvey.Route.Controller
import ArchSurvey.Route.Decorated
import ArchSurvey.Route.Grouped
import ArchSurvey.Schema.Migrations

/-!
# Built-in scanners
-/

namespace ArchSurvey

/-- The scanners that every survey can choose from, with or without grammars for their structural
parsers. -/
def builtinScanners (grammars : Bool) : List Scanner :=
  let parser (query : Grammar.Query) : Grammar.StructuralParser := query.parser grammars
  [Manifest.Pom.scanner, Manifest.PackageJson.scanner, Manifest.PythonPackages.scanner,
    Manifest.GoModule.scanner, Route.Decorated.scanner (parser .decoratedRoutes),
    Route.Controller.scanner (parser .controllerMethods),
    Route.Call.scanner (parser .routeCalls) (parser .typedRouteCalls),
    Route.Grouped.scanner (parser .routerCalls), Entity.Mapped.scanner (parser .entityFields),
    Schema.migrationScanner, Messaging.Topic.scanner]

end ArchSurvey
