import ArchSurvey.Json.Printer
import ArchSurvey.Json.Reader
import ArchSurvey.Project.Parts
import ArchSurvey.Scan.Scanner
import ArchSurvey.Scan.Tiers

/-!
# Package manifests

Reads the manifests of packages: their names, and what they need to run, to be developed and from
those who use them.
-/

namespace ArchSurvey.Manifest.PackageJson

open Json

/-- A package manifest. -/
structure Package where
  name : Option String
  version : Option String
  description : Option String
  isPrivate : Bool
  dependencies : List (String × Json)
  devDependencies : List (String × Json)
  peerDependencies : List (String × Json)

/-- Reads a package manifest. -/
def Package.ofJson? : Decoder Package := fun value => do
  let fields ← record
    ["name", "version", "description", "private", "dependencies", "devDependencies",
      "peerDependencies"] value
  some
    { name := ← fields.optional "name" string
      version := ← fields.optional "version" string
      description := ← fields.optional "description" string
      isPrivate := ← fields.withDefault "private" false truth
      dependencies := ← fields.withDefault "dependencies" [] (map plain)
      devDependencies := ← fields.withDefault "devDependencies" [] (map plain)
      peerDependencies := ← fields.withDefault "peerDependencies" [] (map plain) }

/-- The group and artifact of a package: its scope, if it has one, and its name. -/
def coordinates (package : String) : String × String :=
  match Text.cutAt '/' package.toList with
  | some ('@' :: scope, name) => (String.ofList ('@' :: scope), String.ofList name)
  | _ => ("npm", package)

/-- The version that a manifest asks for. -/
def versionOf : Json → Option String
  | .str text => some text
  | .null => none
  | other => some other.compact

/-- The dependencies of one section of a manifest. -/
def sectionDependencies (source scope : String) (entries : List (String × Json)) :
    List Dependency :=
  entries.map fun (package, version) =>
    let (group, artifact) := coordinates package
    { Dependency.withVersion { source, group, artifact } (versionOf version) with scope }

/-- The name of a package; one without a name is called after its directory. -/
def Package.title (manifest : Package) (path : String) : String :=
  manifest.name.getD ((Path.parentName? path).getD "unknown")

/-- The component that a package is. -/
def Package.component (manifest : Package) (path : String) : Component :=
  let name := manifest.title path
  { id := Identity.ofComponent "npm" name
    name
    kind := .library
    technology := some "Node.js/npm"
    description := some (manifest.description.getD ("npm package: " ++ name))
    metadata :=
      Keyed.ofList
        ([("packageManager", "npm")] ++
          (manifest.version.toList.map fun version => ("version", version)) ++
          if manifest.isPrivate then [("private", "true")] else []) }

/-- What a manifest says of the project, with or without what is needed for development only. -/
def Package.findings (manifest : Package) (withDev : Bool) (path : String) : Findings :=
  let component := manifest.component path
  { components := [component]
    dependencies :=
      sectionDependencies component.id "compile" manifest.dependencies ++
        (if withDev then sectionDependencies component.id "test" manifest.devDependencies
          else []) ++
        sectionDependencies component.id "provided" manifest.peerDependencies }

/-- Reads a manifest from its text. -/
def read (text : List Char) : Except String Package :=
  match (parseChars? text).bind Package.ofJson? with
  | some manifest => .ok manifest
  | none => .error "not a package manifest"

/-- How manifests are read. -/
def engine (withDev : Bool) : TierEngine Findings :=
  { fallback := fun path text =>
      .finished ((read text).map fun manifest => [manifest.findings withDev path]) }

/-- The files that are read. -/
def patterns : List String :=
  ["**/package.json"]

/-- Whether what is needed for development only counts. -/
def includesDev (context : Context) : Bool :=
  context.settingOr "npm.include-dev" "true" != "false"

/-- The scanner of package manifests. -/
def scanner : Scanner :=
  { id := "npm-dependencies"
    title := "npm Dependencies"
    languages := ["javascript", "typescript"]
    patterns
    priority := 10
    scan := fun context =>
      .finished (.ofOutcome "npm-dependencies"
        (Sweep.run "npm-dependencies" (engine (includesDev context)) context patterns)) }

end ArchSurvey.Manifest.PackageJson
