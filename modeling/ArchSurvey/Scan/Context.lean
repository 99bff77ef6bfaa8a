import ArchSurvey.Scan.Listing

/-!
# Scan contexts

What a scanner sees of a project: its files with their contents at one moment, its name, the
settings, the results of earlier scanners, and the deadline if there is one.
-/

namespace ArchSurvey

/-- A project as a scanner sees it. -/
structure Context where
  disk : Disk
  /-- The absolute path of the project. -/
  root : String
  projectName : String
  listing : Except Fault (List Entry)
  settings : List (String × String) := []
  /-- The results of earlier scanners, by scanner. -/
  previous : List (String × ScanResult) := []
  /-- Where there is a deadline, whether it has passed when the turn of a file comes. -/
  deadline : Option (String → Bool) := none

namespace Context

/-- The absolute path of a root: without links and dots if it exists. -/
def absoluteRoot (disk : Disk) (path : String) : String :=
  match disk.canonical path with
  | .ok path => path
  | .error _ => Path.join (Path.ofComponents ("/" :: disk.current)) path

/-- The context of a project whose root and exclusions are given. -/
def ofRoot (disk : Disk) (path : String) (excludes : List Glob) : Context :=
  let root := absoluteRoot disk path
  { disk
    root
    projectName := (Path.fileName? root).getD "project"
    listing := Listing.take disk root excludes }

/-- The context of a project without files that match one of some patterns. -/
def withExcludes (disk : Disk) (path : String) (excludes : List String) :
    Except ScanError Context := do
  return ofRoot disk path (← excludes.mapM Glob.ofText)

/-- A setting. -/
def setting? (context : Context) (key : String) : Option String :=
  context.settings.lookup key

/-- A setting, or a default where it is not set. -/
def settingOr (context : Context) (key default : String) : String :=
  (context.setting? key).getD default

/-- Whether the deadline has passed when the turn of a file comes. -/
def isExpired (context : Context) (file : String) : Bool :=
  match context.deadline with
  | none => false
  | some passed => passed file

/-- The listed files, or the error of a root without a listing. -/
def entries (context : Context) : Except ScanError (List Entry) :=
  context.listing.mapError (Listing.unreadable context.root)

/-- The files that match a pattern. -/
def findFiles (context : Context) (pattern : String) : Except ScanError (List String) := do
  let glob ← Glob.ofText pattern
  return Listing.matching (← context.entries) glob

/-- The files that match some of the patterns, after those found before. -/
def findMore (context : Context) (found : List String) :
    List String → Except ScanError (List String)
  | [] => .ok found
  | pattern :: rest => do
      findMore context (Listing.union found (← context.findFiles pattern)) rest

/-- The files that match some of the patterns, in the order of the patterns. -/
def findFilesAny (context : Context) (patterns : List String) : Except ScanError (List String) :=
  context.findMore [] patterns

/-- Whether some file matches a pattern; an error counts as no. -/
def hasFiles (context : Context) (pattern : String) : Bool :=
  match context.findFiles pattern with
  | .ok files => !files.isEmpty
  | .error _ => false

/-- The number of listed files. -/
def totalFiles (context : Context) : Except ScanError Nat :=
  context.entries.map List.length

/-- A path as seen from the root. -/
def relativePath (context : Context) (path : String) : String :=
  Path.relativeTo context.root path

end Context

end ArchSurvey
