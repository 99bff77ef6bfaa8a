import ArchSurvey.Manifest.TableFile
import ArchSurvey.Project.Parts
import ArchSurvey.Scan.Scanner
import ArchSurvey.Scan.Tiers

/-!
# Python packages

The packages that a project requires by its requirement files, project file, setup script or package
file.
-/

namespace ArchSurvey.Manifest.PythonPackages

/-- Reads a manifest by its file name. -/
def read (path : String) (text : List Char) : List Requirement :=
  match Path.fileName path with
  | "pyproject.toml" => TableFile.readProject text
  | "Pipfile" => TableFile.readPackages text
  | "setup.py" => Requirement.readSetup text
  | _ => Requirement.readLines text

/-- The dependency of a project on a required package. -/
def dependency (source : String) (requirement : Requirement) : Dependency :=
  { Dependency.withVersion
      { source, group := requirement.name, artifact := requirement.name } requirement.version with
    scope := requirement.scope }

/-- How manifests are read. -/
def engine (source : String) : TierEngine Findings :=
  { fallback := fun path text =>
      .finished (.ok [{ dependencies := (read path text).map (dependency source) }]) }

/-- The files that are read. -/
def patterns : List String :=
  ["**/requirements*.txt", "**/pyproject.toml", "**/setup.py", "**/Pipfile"]

/-- Scans the manifests of a project; the project is reported if it requires something. -/
def scan (context : Context) : Except ScanError ScanResult := do
  let component := Project.own context "Python"
  let files ← context.findFilesAny patterns
  let (findings, stats) := Sweep.read (engine component.id) context files
  let components := if findings.dependencies.isEmpty then [] else [component]
  return Sweep.finish "pip-poetry-dependencies"
    { findings with components := findings.components ++ components } stats

/-- The scanner of Python packages. -/
def scanner : Scanner :=
  { id := "pip-poetry-dependencies"
    title := "Pip/Poetry Dependencies"
    languages := ["python"]
    patterns
    priority := 10
    scan := fun context => .finished (.ofOutcome "pip-poetry-dependencies" (scan context)) }

end ArchSurvey.Manifest.PythonPackages
