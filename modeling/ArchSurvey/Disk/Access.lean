import ArchSurvey.Disk.Basic
import ArchSurvey.Disk.Path

/-!
# Access by path

Looking up, reading and writing by path: links are followed, and every way to fail has a cause.
-/

namespace ArchSurvey

/-- Why an access fails. -/
inductive Fault where
  | notFound
  | exists
  | notDirectory
  | isDirectory
  | tooManyLinks
  | notText
  deriving DecidableEq, Repr

/-- What is said of a failed access. -/
def Fault.message : Fault → String
  | notFound => "No such file or directory (os error 2)"
  | .exists => "File exists (os error 17)"
  | notDirectory => "Not a directory (os error 20)"
  | isDirectory => "Is a directory (os error 21)"
  | tooManyLinks => "Too many levels of symbolic links (os error 40)"
  | notText => "stream did not contain valid UTF-8"

/-- A disk with the directory that relative paths start from. -/
structure Disk where
  tree : Node
  current : List String

namespace Disk

/-- How many links one look-up follows. -/
def maxLinks : Nat := 40

/-- The place that names lead to from a place `here`, given last name first; the last name may be
one that does not exist or a link that is not to be followed.  What lies behind any other link is
left to `follow`, which is told where to go on and with which names. -/
def walk (tree : Node) (followLast : Bool)
    (follow : List String → List String → Except Fault (List String)) (here : List String) :
    List String → Except Fault (List String)
  | [] => .ok here
  | name :: rest =>
      match tree.at? here.reverse with
      | none => .error .notFound
      | some node =>
          if !node.isDirectory then .error .notDirectory
          else if name == "." then walk tree followLast follow here rest
          else if name == ".." then walk tree followLast follow (here.drop 1) rest
          else
            match node.entry? name with
            | some (.link target) =>
                if rest.isEmpty && !followLast then .ok (name :: here)
                else
                  let start := if Path.isAbsolute target then [] else here
                  follow start (Path.names target ++ rest)
            | some _ => walk tree followLast follow (name :: here) rest
            | none => if rest.isEmpty then .ok (name :: here) else .error .notFound

/-- The place that names lead to from a place `here`, through at most so many links. -/
def resolveFrom (tree : Node) (followLast : Bool) :
    Nat → List String → List String → Except Fault (List String)
  | 0 => walk tree followLast fun _ _ => .error .tooManyLinks
  | links + 1 => walk tree followLast (resolveFrom tree followLast links)

/-- The names of a path that are looked up one by one; a slash at the end asks for a directory. -/
def lookupNames (followLast : Bool) (path : String) : List String :=
  let pieces := (Text.splitOn '/' path.toList).map String.ofList
  let named := pieces.filter (· != "")
  if followLast && pieces.getLast? == some "" && !named.isEmpty then named ++ ["."] else named

/-- The place of a path, whether or not its last name exists. -/
def place (disk : Disk) (followLast : Bool) (path : String) : Except Fault (List String) :=
  if path == "" then .error .notFound
  else
    let start := if Path.isAbsolute path then [] else disk.current.reverse
    (resolveFrom disk.tree followLast maxLinks start (lookupNames followLast path)).map List.reverse

/-- The node that a path leads to, links followed. -/
def node (disk : Disk) (path : String) : Except Fault Node := do
  match disk.tree.at? (← disk.place true path) with
  | some found => .ok found
  | none => .error .notFound

/-- The absolute path of what a path leads to, without links and dots. -/
def canonical (disk : Disk) (path : String) : Except Fault String := do
  let place ← disk.place true path
  match disk.tree.at? place with
  | some _ => .ok ("/" ++ String.intercalate "/" place)
  | none => .error .notFound

/-- Whether a path leads to a directory. -/
def isDirectory (disk : Disk) (path : String) : Bool :=
  match disk.node path with
  | .ok found => found.isDirectory
  | .error _ => false

/-- Whether a path leads to a regular file. -/
def isFile (disk : Disk) (path : String) : Bool :=
  match disk.node path with
  | .ok found => found.isFile
  | .error _ => false

/-- The bytes of a file. -/
def read (disk : Disk) (path : String) : Except Fault (List UInt8) := do
  match ← disk.node path with
  | .file content => .ok content
  | .directory _ => .error .isDirectory
  | .link _ => .error .tooManyLinks

/-- The text of a file. -/
def readText (disk : Disk) (path : String) : Except Fault (List Char) := do
  match Text.Utf8.decode? (← disk.read path) with
  | some text => .ok text
  | none => .error .notText

/-- The disk with the bytes of a file replaced, the file made if it does not exist. -/
def write (disk : Disk) (path : String) (content : List UInt8) : Except Fault Disk := do
  let place ← disk.place true path
  match disk.tree.at? place with
  | some (.directory _) => .error .isDirectory
  | _ => .ok { disk with tree := disk.tree.insert place (.file content) }

/-- The disk with one more directory, whose parent exists. -/
def makeDirectory (disk : Disk) (path : String) : Except Fault Disk := do
  let place ← disk.place false path
  match disk.tree.at? place with
  | some _ => .error .exists
  | none => .ok { disk with tree := disk.tree.insert place .emptyDirectory }

/-- Makes the directories of a path from its shortest missing start on; `paths` are the path and
its parents, longest first.  Directories made before a failure stay. -/
def makeDirectoriesFrom (disk : Disk) : List String → Except Fault Unit × Disk
  | [] => (.ok (), disk)
  | path :: parents =>
      match disk.makeDirectory path with
      | .ok disk => (.ok (), disk)
      | .error .notFound =>
          match makeDirectoriesFrom disk parents with
          | (.error fault, disk) => (.error fault, disk)
          | (.ok _, disk) =>
              match disk.makeDirectory path with
              | .ok disk => (.ok (), disk)
              | .error fault => (if disk.isDirectory path then .ok () else .error fault, disk)
      | .error fault => (if disk.isDirectory path then .ok () else .error fault, disk)

/-- A path and its parents, longest first, as far as they are not empty; at most `fuel` of them. -/
def ancestors : Nat → String → List String
  | 0, _ => []
  | fuel + 1, path =>
      path :: match Path.parent? path with
        | none => []
        | some "" => []
        | some parent => ancestors fuel parent

/-- The disk with a directory at a path, its missing parents made with it, as far as they can
be made. -/
def makeDirectories (disk : Disk) (path : String) : Except Fault Unit × Disk :=
  if path == "" then (.ok (), disk)
  else makeDirectoriesFrom disk (ancestors ((Path.components path).length + 1) path)

end Disk

end ArchSurvey
