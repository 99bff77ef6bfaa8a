import ArchSurvey.Text.Utf8

/-!
# Disks

A disk is a tree of directories, regular files and symbolic links.  The operations here take a place
in the tree by the names that lead to it and follow no link.
-/

namespace ArchSurvey

/-- A node of a disk. -/
inductive Node where
  | file (content : List UInt8)
  | directory (entries : List (String × Node))
  | link (target : String)

namespace Node

/-- An empty directory. -/
def emptyDirectory : Node :=
  directory []

/-- Whether the node is a directory. -/
def isDirectory : Node → Bool
  | directory _ => true
  | _ => false

/-- Whether the node is a regular file. -/
def isFile : Node → Bool
  | file _ => true
  | _ => false

/-- The entry of a directory with a name. -/
def entry? (name : String) : Node → Option Node
  | directory entries => entries.lookup name
  | _ => none

/-- The node that the names lead to. -/
def at? : List String → Node → Option Node
  | [], node => some node
  | name :: rest, node =>
      match node.entry? name with
      | none => none
      | some child => at? rest child

/-- Entries with one of them set, in its old place or at the end. -/
def setEntry (name : String) (node : Node) : List (String × Node) → List (String × Node)
  | [] => [(name, node)]
  | (other, held) :: rest =>
      if name == other then (name, node) :: rest else (other, held) :: setEntry name node rest

/-- The tree with a node set at a place; directories are made on the way, in the place of whatever
stands there and is none. -/
def insert (held : Node) (place : List String) (node : Node) : Node :=
  match place with
  | [] => node
  | name :: rest =>
      let entries := match held with
        | directory entries => entries
        | _ => []
      let child := (entries.lookup name).getD emptyDirectory
      directory (setEntry name (child.insert rest node) entries)

/-- The tree without the node at a place. -/
def remove : List String → Node → Node
  | [], node => node
  | [name], directory entries => directory (entries.filter fun entry => entry.1 != name)
  | name :: rest, directory entries =>
      match entries.lookup name with
      | none => directory entries
      | some child => directory (setEntry name (remove rest child) entries)
  | _, node => node

mutual

/-- The places of the regular files below a node, each as the names that lead there; directories
whose name is in `skipped` are not entered. -/
def filePlaces (skipped : List String) : Node → List (List String)
  | file _ => [[]]
  | link _ => []
  | directory entries => entryPlaces skipped entries

/-- The places of the regular files below some entries. -/
def entryPlaces (skipped : List String) : List (String × Node) → List (List String)
  | [] => []
  | (name, child) :: rest =>
      let inner :=
        if child.isDirectory && skipped.contains name then [] else filePlaces skipped child
      inner.map (name :: ·) ++ entryPlaces skipped rest

end

/-- The content of the regular file at a place. -/
def content? (node : Node) (place : List String) : Option (List UInt8) :=
  match node.at? place with
  | some (file content) => some content
  | _ => none

/-- The regular files of a tree that another one does not have with the same content. -/
def filesNotIn (tree before : Node) : List (List String × List UInt8) :=
  (filePlaces [] tree).filterMap fun place =>
    (tree.content? place).bind fun content =>
      if before.content? place == some content then none else some (place, content)

end Node

/-- The lexicographic order on places: an entry's files stand together, entries by name. -/
def placeLe : List String → List String → Bool
  | [], _ => true
  | _ :: _, [] => false
  | a :: p, b :: q => a < b || (a == b && placeLe p q)

end ArchSurvey
