import ArchSurvey.Project.Parts
import ArchSurvey.Scan.Scanner
import ArchSurvey.Scan.Tiers
import ArchSurvey.Text.Pattern

/-!
# Project object models

Reads build files by their elements: the coordinates of the project and its dependencies.  What
stands below the build, reporting and profiles is left out, a parent supplies missing coordinates,
and placeholders stand for properties.
-/

namespace ArchSurvey.Manifest.Pom

open Text
open Text.Pattern (concat oneOf literal group fewest any char some1 blanks noneOf)

/-- A dependency of a project. -/
structure PomDependency where
  group : String
  artifact : String
  version : Option String
  scope : String
  /-- Whether it only fixes the version for projects that inherit from this one. -/
  managed : Bool
  deriving DecidableEq, Repr

/-- What a build file says. -/
structure BuildFile where
  group : Option String
  artifact : String
  version : Option String
  packaging : String
  name : Option String
  dependencies : List PomDependency
  deriving DecidableEq, Repr

/-- The opening tag of an element. -/
def opening (name : String) : Pattern :=
  literal ("<" ++ name ++ ">")

/-- The closing tag of an element. -/
def closing (name : String) : Pattern :=
  literal ("</" ++ name ++ ">")

/-- An element up to the next closing tag of its name, with what is between in group 1. -/
def element (name : String) : Pattern :=
  concat [opening name, group 1 (fewest any), closing name]

/-- An element that holds text only, with the text without blanks around it in group 1. -/
def textElement (name : String) : Pattern :=
  concat [opening name, blanks, group 1 (fewest (noneOf "<")), blanks, closing name]

/-- A comment. -/
def comment : Pattern :=
  concat [literal "<!--", fewest any, literal "-->"]

/-- A section that says nothing of the project's own dependencies. -/
def ignoredSection : Pattern :=
  let names := ["build", "reporting", "profiles"]
  concat [oneOf (names.map opening), fewest any, oneOf (names.map closing)]

/-- A character of the name of a property. -/
def nameChar : Pattern :=
  char fun c => isWordChar c || c == '.' || c == '-'

/-- A property: its name in group 1 and its value in group 2. -/
def property : Pattern :=
  concat
    [literal "<", group 1 (some1 nameChar), literal ">", blanks, group 2 (fewest (noneOf "<")),
      blanks, literal "</", some1 nameChar, literal ">"]

/-- A place to be filled in: the name of a property in group 1. -/
def placeholder : Pattern :=
  concat [literal "$\x7b", group 1 (some1 (noneOf "\x7d")), literal "\x7d"]

/-- The text of the first element with a name, if there is text in it. -/
def firstText (name : String) (text : List Char) : Option String :=
  match (textElement name).search text with
  | some found => if (found.group 1).isEmpty then none else some (found.groupString 1)
  | none => none

/-- The inside of the first element with a name. -/
def firstElement (name : String) (text : List Char) : Option (List Char) :=
  ((element name).search text).map fun found => found.group 1

/-- The text without the elements with a name. -/
def without (name : String) (text : List Char) : List Char :=
  (element name).removeAll text

/-- The value with the placeholders of known properties filled in. -/
def resolve (properties : List (String × String)) (value : String) : String :=
  let fill (found : Pattern.Match) : List Char :=
    match properties.lookup (found.groupString 1) with
    | some value => value.toList
    | none => found.text
  String.ofList (placeholder.replaceAll fill value.toList)

/-- Reads the inside of a dependency, which needs a group and an artifact. -/
def readDependency (properties : List (String × String)) (managed : Bool) (text : List Char) :
    Option PomDependency := do
  let body := without "exclusions" text
  let group ← firstText "groupId" body
  let artifact ← firstText "artifactId" body
  some
    { group := resolve properties group
      artifact := resolve properties artifact
      version := (firstText "version" body).map (resolve properties)
      scope := (firstText "scope" body).getD "compile"
      managed }

/-- Reads the dependencies in a text. -/
def readDependencies (properties : List (String × String)) (managed : Bool) (text : List Char) :
    List PomDependency :=
  ((element "dependency").searchAll text).filterMap fun found =>
    readDependency properties managed (found.group 1)

/-- The properties that a text defines. -/
def readProperties (text : List Char) : List (String × String) :=
  (property.searchAll text).map fun found => (found.groupString 1, found.groupString 2)

/-- The text of a build file that counts: without comments and ignored sections. -/
def relevant (text : List Char) : List Char :=
  ignoredSection.removeAll (comment.removeAll text)

/-- Reads a build file, which has to name its artifact. -/
def read (text : List Char) : Except String BuildFile :=
  let text := relevant text
  let parent := firstElement "parent" text
  let management := firstElement "dependencyManagement" text
  let own := without "dependencyManagement" (without "parent" text)
  let blocks := ((element "dependencies").searchAll own).map Pattern.Match.text
  let head := without "properties" (without "dependencies" own)
  let inherited (name : String) : Option String := parent.bind (firstText name)
  match firstText "artifactId" head with
  | none => .error "pom has no project artifactId"
  | some artifact =>
      let group := (firstText "groupId" head).or (inherited "groupId")
      let version := (firstText "version" head).or (inherited "version")
      let defined := ((firstElement "properties" text).map readProperties).getD []
      let coordinates :=
        ("project.artifactId", artifact) ::
          (group.toList.map (("project.groupId", ·)) ++
            version.toList.map (("project.version", ·)))
      let properties := Keyed.ofList (defined ++ coordinates)
      .ok
        { group
          artifact
          version
          packaging := (firstText "packaging" head).getD "jar"
          name := firstText "name" head
          dependencies :=
            blocks.flatMap (readDependencies properties false) ++
              (management.map (readDependencies properties true)).getD [] }

/-- The component that a project is: a library if it is packed as a plain archive. -/
def BuildFile.component (pom : BuildFile) : Component :=
  let coordinate :=
    match pom.group with
    | some group => group ++ ":" ++ pom.artifact
    | none => pom.artifact
  { id := Identity.ofComponent "maven" coordinate
    name := pom.artifact
    kind := if pom.packaging == "jar" then .library else .service
    technology := some "Java/Maven"
    description := some (pom.name.getD ("Maven project: " ++ coordinate))
    metadata :=
      Keyed.ofList
        ([("packaging", pom.packaging)] ++ (pom.group.toList.map (("groupId", ·))) ++
          (pom.version.toList.map (("version", ·)))) }

/-- What a build file says of the project. -/
def BuildFile.findings (pom : BuildFile) : Findings :=
  let component := pom.component
  { components := [component]
    dependencies := pom.dependencies.map fun d =>
      { Dependency.withVersion { source := component.id, group := d.group, artifact := d.artifact }
          d.version with
        scope := d.scope
        direct := !d.managed } }

/-- How build files are read. -/
def engine : TierEngine Findings :=
  { fallback := fun _ text => .finished ((read text).map fun pom => [pom.findings]) }

/-- The files that are read. -/
def patterns : List String :=
  ["**/pom.xml"]

/-- The scanner of build files. -/
def scanner : Scanner :=
  { id := "maven-dependencies"
    title := "Maven Dependencies"
    languages := ["java"]
    patterns
    priority := 10
    scan := fun context =>
      .finished
        (.ofOutcome "maven-dependencies" (Sweep.run "maven-dependencies" engine context patterns)) }

end ArchSurvey.Manifest.Pom
