import ArchSurvey.Disk.Access
import ArchSurvey.Glob.Basic
import ArchSurvey.Scan.Result

/-!
# Listings

The regular files of a project, depth first and by name, without those below directories that hold
no sources and without excluded ones; and the files of a listing that match patterns.
-/

namespace ArchSurvey

/-- A file of a project: its path as seen from the root, and its whole path. -/
structure Entry where
  relative : String
  path : String
  deriving DecidableEq, Repr

/-- A path pattern with its text. -/
structure Glob where
  text : String
  tokens : List Glob.Token

namespace Glob

/-- Reads a path pattern, an unreadable one being an error of the scan. -/
def ofText (text : String) : Except ScanError Glob :=
  match parse text with
  | .ok tokens => .ok ⟨text, tokens⟩
  | .error error =>
      .error (.invalidGlob text ("error parsing glob '" ++ text ++ "': " ++ error.message))

/-- Whether a pattern matches a path as seen from the root. -/
def matchesPath (glob : Glob) (relative : String) : Bool :=
  isMatch glob.tokens relative

end Glob

namespace Listing

/-- The names of directories that are never entered. -/
def skipped : List String :=
  [".git", ".hg", ".svn", ".idea", ".vscode", "node_modules", "target", "__pycache__", ".venv",
    "venv", ".gradle"]

/-- The file at a place below the root. -/
def entryAt (root : String) (place : List String) : Entry :=
  let relative := String.intercalate "/" place
  ⟨relative, Path.join root relative⟩

/-- The files below a directory that no pattern excludes. -/
def ofNode (root : String) (excludes : List Glob) (node : Node) : List Entry :=
  let entries := ((node.filePlaces skipped).mergeSort placeLe).map (entryAt root)
  entries.filter fun entry => !excludes.any fun glob => glob.matchesPath entry.relative

/-- The listing of a project on a disk, or why its root has none. -/
def take (disk : Disk) (root : String) (excludes : List Glob) : Except Fault (List Entry) :=
  match disk.node root with
  | .error fault => .error fault
  | .ok (.directory entries) => .ok (ofNode root excludes (.directory entries))
  | .ok _ => .error .notDirectory

/-- The paths of the listed files that match a pattern. -/
def matching (entries : List Entry) (glob : Glob) : List String :=
  (entries.filter fun entry => glob.matchesPath entry.relative).map Entry.path

/-- The items of the first list and then those of the second, each once. -/
def union (first second : List String) : List String :=
  (first ++ second).eraseDups

/-- The error of a root that cannot be listed. -/
def unreadable (root : String) (fault : Fault) : ScanError :=
  .rootUnreadable root fault.message

end Listing

end ArchSurvey
