import ArchSurvey.Finding.Basic
import ArchSurvey.Finding.Identity
import ArchSurvey.Scan.Context

/-!
# Parts of a project

The components that several scanners name: the service that a project is, its database, and the
brokers that projects share.
-/

namespace ArchSurvey.Project

/-- The identity of a service. -/
def serviceId (name : String) : String :=
  Identity.ofComponent "service" name

/-- A service. -/
def service (name technology : String) : Component :=
  { id := serviceId name, name, kind := .service, technology := some technology }

/-- The identity of the service that a project is. -/
def ownId (context : Context) : String :=
  serviceId context.projectName

/-- The service that a project is. -/
def own (context : Context) (technology : String) : Component :=
  service context.projectName technology

/-- The database behind a project. -/
def database (context : Context) (technology : String) : Component :=
  { id := Identity.ofComponent "database" context.projectName
    name := context.projectName ++ " database"
    kind := .database
    technology := some technology }

/-- A message broker, the same one for every project that talks to it. -/
def broker (name : String) : Component :=
  { id := Identity.ofComponent "broker" (Text.lowerString name)
    name
    kind := .messageBroker
    technology := some name }

end ArchSurvey.Project
