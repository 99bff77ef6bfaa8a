/-!
# Scanner groups

Named groups of scanners that a configuration can select together.
-/

namespace ArchSurvey.Groups

/-- The groups with their members, by name. -/
def all : List (String × List String) :=
  [("go", ["go-modules", "go-http-router"]),
    ("java", ["maven-dependencies", "spring-rest-api", "jpa-entities"]),
    ("javascript", ["npm-dependencies", "express-routes"]),
    ("messaging", ["kafka-consumer"]),
    ("python", ["pip-poetry-dependencies", "flask-routes"]),
    ("schema", ["sql-migrations"])]

/-- The names of the groups. -/
def names : List String :=
  all.map Prod.fst

/-- The members of the named groups; unknown names have none. -/
def members (groups : List String) : List String :=
  groups.flatMap fun group => (all.lookup group).getD []

/-- Whether a scanner belongs to one of the named groups. -/
def includes (groups : List String) (scanner : String) : Bool :=
  (members groups).contains scanner

/-- The scanners of the named groups, each once and sorted. -/
def scanners (groups : List String) : List String :=
  (members groups).eraseDups.mergeSort fun a b => a ≤ b

end ArchSurvey.Groups
