import ArchSurvey.Config.Basic
import ArchSurvey.Diagram.Generator
import ArchSurvey.Disk.Access
import ArchSurvey.Glob.Basic

/-!
# Checking and loading configurations

What makes a configuration unfit, and where configurations are found.
-/

namespace ArchSurvey

/-!
## Checking configurations

What makes a configuration unfit for a survey.  Of several causes the first one is reported.
-/

/-- Why a configuration is unfit. -/
inductive ConfigError where
  | noTime
  | unknownGroups (names : List String)
  | unknownGenerator (id : String)
  | drawing (error : DrawingError)
  | badExclude (pattern : String) (error : GlobError)
  deriving DecidableEq, Repr

/-- The wording of an error. -/
def ConfigError.message : ConfigError → String
  | noTime => "scan.timeout_secs must be greater than zero"
  | unknownGroups names =>
      "unknown scanner group(s): " ++ ", ".intercalate names ++ " (available: " ++
        ", ".intercalate Groups.names ++ ")"
  | unknownGenerator id =>
      "unknown generator '" ++ id ++ "' (available: " ++
        ", ".intercalate (Generator.all.map Generator.id) ++ ")"
  | drawing error => error.message
  | badExclude pattern error =>
      "invalid exclude pattern '" ++ pattern ++ "': error parsing glob '" ++ pattern ++ "': " ++
        error.message

namespace ProjectConfig

/-- Checks that every group is known. -/
def checkGroups (groups : List String) : Except ConfigError Unit :=
  let unknown := groups.filter fun group => !Groups.names.contains group
  if unknown.isEmpty then .ok () else .error (.unknownGroups unknown)

/-- Checks that every generator is known. -/
def checkGenerators (ids : List String) : Except ConfigError Unit :=
  match ids.find? fun id => (Generator.ofId? id).isNone with
  | some id => .error (.unknownGenerator id)
  | none => .ok ()

/-- Checks that every kind of diagram asked for is known and drawn by one of the generators. -/
def checkDiagrams (generators diagrams : List String) : Except ConfigError Unit :=
  match DiagramKind.ofTexts diagrams with
  | .error error => .error (.drawing error)
  | .ok kinds =>
      match Generator.resolve generators kinds with
      | .error error => .error (.drawing error)
      | .ok _ => .ok ()

/-- Checks that every pattern can be read. -/
def checkExcludes : List String → Except ConfigError Unit
  | [] => .ok ()
  | pattern :: rest =>
      match Glob.parse pattern with
      | .error error => .error (.badExclude pattern error)
      | .ok _ => checkExcludes rest

/-- Checks a configuration. -/
def check (config : ProjectConfig) : Except ConfigError Unit := do
  if config.scan.timeoutSeconds == 0 then
    throw .noTime
  checkGroups config.scanners.groups
  checkGenerators config.generators.enabled
  checkDiagrams config.generators.enabled config.generators.diagrams
  checkExcludes config.scan.exclude

end ProjectConfig

/-!
## Loading configurations

Where configurations are found.  A file that is missing or unfit never stops a survey: the default
configuration stands in for it.
-/

/-- Why a configuration is not read from a file. -/
inductive LoadError where
  | unreadable (path : String) (fault : Fault)
  | malformed (path : String)
  deriving DecidableEq, Repr

/-- The wording of an error. -/
def LoadError.message : LoadError → String
  | unreadable path fault => "failed to read config " ++ path ++ ": " ++ fault.message
  | malformed path => "failed to parse config " ++ path ++ ": not a configuration"

namespace ProjectConfig

/-- The names of configuration files in a project, the first choice first. -/
def fileNames : List String :=
  ["archscan.yaml", ".archscan.yaml", "docarchitect.yaml"]

/-- Reads a configuration file. -/
def ofFile (disk : Disk) (path : String) : Except LoadError ProjectConfig :=
  match disk.readText path with
  | .error fault => .error (.unreadable path fault)
  | .ok text =>
      if Text.isAllBlank text then .ok {}
      else
        match ofYaml? text with
        | some config => .ok config
        | none => .error (.malformed path)

/-- The first configuration file of a project. -/
def discover? (disk : Disk) (root : String) : Option String :=
  (fileNames.map fun name => Path.join root name).find? disk.isFile

/-- The configuration in a file, if it can be read and is fit for a survey. -/
def fitFile? (disk : Disk) (path : String) : Option ProjectConfig :=
  match ofFile disk path with
  | .error _ => none
  | .ok config =>
      match config.check with
      | .error _ => none
      | .ok _ => some config

/-- The configuration in the given file, or else in the file that a project has for it, or else
the default one. -/
def load (disk : Disk) (root : String) (explicit : Option String) : ProjectConfig :=
  ((explicit.or (discover? disk root)).bind (fitFile? disk)).getD {}

end ProjectConfig

end ArchSurvey
