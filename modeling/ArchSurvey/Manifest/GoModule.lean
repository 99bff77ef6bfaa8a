import ArchSurvey.Project.Parts
import ArchSurvey.Scan.Scanner
import ArchSurvey.Scan.Tiers

/-!
# Go modules

Reads module files line by line: the module's path, the version of the language, and the modules
that it requires, one by one or in a block.
-/

namespace ArchSurvey.Manifest.GoModule

open Text

/-- A module that another one requires. -/
structure Requirement where
  path : String
  version : Option String
  /-- Whether only some other requirement needs it. -/
  indirect : Bool
  deriving DecidableEq, Repr

/-- What a module file says. -/
structure ModuleFile where
  path : String
  goVersion : Option String
  requirements : List Requirement
  deriving DecidableEq, Repr

/-- What one line of a module file says. -/
inductive Line where
  | blank
  | module (path : List Char)
  | go (version : List Char)
  | openRequire
  /-- The start of a block that requires nothing. -/
  | openOther
  | close
  | require (text : List Char)
  /-- Any other line, which is a requirement inside a block of them. -/
  | entry (text : List Char)
  deriving DecidableEq, Repr

/-- What a line without blanks at its ends says. -/
def Line.ofText (line : List Char) : Line :=
  if line.isEmpty || startsWith "//".toList line then blank
  else
    match dropPrefix? "module ".toList line with
    | some rest => module (trimWhile (· == '"') (trim rest))
    | none =>
        match dropPrefix? "go ".toList line with
        | some rest => go (trim rest)
        | none =>
            if line == "require (".toList then openRequire
            else if line.getLast? == some '(' then openOther
            else if line == [')'] then close
            else
              match dropPrefix? "require ".toList line with
              | some rest => require rest
              | none => entry line

/-- Reads a required module with its version, and whether a comment calls it indirect. -/
def readRequirement (text : List Char) : Option Requirement :=
  let (spec, comment) := (cut "//".toList text).getD (text, [])
  match words spec with
  | [] => none
  | path :: rest =>
      some
        { path := String.ofList (trimWhile (· == '"') path)
          version := rest.head?.map String.ofList
          indirect := trim comment == "indirect".toList }

/-- What is known after some lines of a module file. -/
structure State where
  path : List Char := []
  goVersion : Option String := none
  requirements : List Requirement := []
  inRequire : Bool := false
  inOther : Bool := false
  deriving DecidableEq, Repr

/-- Adds a required module. -/
def State.add (state : State) (text : List Char) : State :=
  { state with requirements := state.requirements ++ (readRequirement text).toList }

/-- What is known after one more line. -/
def State.step (state : State) : Line → State
  | .blank => state
  | .module path => { state with path }
  | .go version => { state with goVersion := some (String.ofList version) }
  | .openRequire => { state with inRequire := true }
  | .openOther => { state with inOther := true }
  | .close => { state with inRequire := false, inOther := false }
  | .require text => state.add text
  | .entry text => if state.inRequire && !state.inOther then state.add text else state

/-- Reads a module file, which has to name the module. -/
def read (text : List Char) : Except String ModuleFile :=
  let state := ((lines text).map fun line => Line.ofText (trim line)).foldl State.step {}
  if state.path.isEmpty then .error "no module declaration found"
  else .ok ⟨String.ofList state.path, state.goVersion, state.requirements⟩

/-- Whether a part of a module path is the suffix of a major version. -/
def isMajorVersion : List Char → Bool
  | 'v' :: d :: digits => (d :: digits).all fun c => '0' ≤ c && c ≤ '9'
  | _ => false

/-- The group and artifact of a module path; a major version belongs to the group. -/
def coordinates (path : String) : String × String :=
  match (splitOn '/' path.toList).reverse with
  | [] => ("go", path)
  | [single] => ("go", String.ofList single)
  | last :: name :: rest =>
      if isMajorVersion last then (path, String.ofList name)
      else
        (String.ofList (joinWith ['/'] (name :: rest).reverse), String.ofList last)

/-- The dependency of a module on a required one. -/
def Requirement.dependency (source : String) (requirement : Requirement) : Dependency :=
  let (group, artifact) := coordinates requirement.path
  { Dependency.withVersion { source, group, artifact } requirement.version with
    direct := !requirement.indirect }

/-- The component that a module is, named by the last part of its path. -/
def ModuleFile.component (module : ModuleFile) : Component :=
  let name := String.ofList (afterLast '/' module.path.toList)
  { Project.service name "Go" with
    description := some ("Go module: " ++ module.path)
    metadata :=
      Keyed.ofList
        ([("modulePath", module.path), ("packageManager", "go")] ++
          module.goVersion.toList.map fun version => ("goVersion", version)) }

/-- What a module file says of the project. -/
def ModuleFile.findings (module : ModuleFile) : Findings :=
  let component := module.component
  { components := [component]
    dependencies := module.requirements.map (Requirement.dependency component.id) }

/-- How module files are read. -/
def engine : TierEngine Findings :=
  { fallback := fun _ text => .finished ((read text).map fun module => [module.findings]) }

/-- The files that are read. -/
def patterns : List String :=
  ["**/go.mod"]

/-- The scanner of Go modules. -/
def scanner : Scanner :=
  { id := "go-modules"
    title := "Go Modules"
    languages := ["go"]
    patterns
    priority := 10
    scan := fun context =>
      .finished (.ofOutcome "go-modules" (Sweep.run "go-modules" engine context patterns)) }

end ArchSurvey.Manifest.GoModule
