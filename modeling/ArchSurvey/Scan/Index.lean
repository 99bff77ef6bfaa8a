import ArchSurvey.Scan.Listing

/-!
# File indexes

An index takes the listing of a project once, when it is first needed, and remembers the answer for
each pattern, so later changes of the disk do not show.  Each look-up is given the disk as it is at
that moment and returns the index as it is afterwards.
-/

namespace ArchSurvey

/-- What is known of the files of a project. -/
structure Index where
  root : String
  excludes : List Glob
  listing : Option (Except Fault (List Entry)) := none
  answers : List (String × List String) := []

namespace Index

/-- The index with its listing taken, and the listing. -/
def list (index : Index) (disk : Disk) : Except ScanError (List Entry) × Index :=
  let listing := index.listing.getD (Listing.take disk index.root index.excludes)
  (listing.mapError (Listing.unreadable index.root), { index with listing := some listing })

/-- The files that match a pattern. -/
def findFiles (index : Index) (disk : Disk) (pattern : String) :
    Except ScanError (List String) × Index :=
  match index.answers.lookup pattern with
  | some files => (.ok files, index)
  | none =>
      match Glob.ofText pattern with
      | .error error => (.error error, index)
      | .ok glob =>
          match index.list disk with
          | (.error error, index) => (.error error, index)
          | (.ok entries, index) =>
              let files := Listing.matching entries glob
              (.ok files, { index with answers := (pattern, files) :: index.answers })

/-- The files that match some of the patterns, in the order of the patterns, after those found
before. -/
def findMore (index : Index) (disk : Disk) (found : List String) :
    List String → Except ScanError (List String) × Index
  | [] => (.ok found, index)
  | pattern :: rest =>
      match index.findFiles disk pattern with
      | (.error error, index) => (.error error, index)
      | (.ok files, index) => findMore index disk (Listing.union found files) rest

/-- The files that match some of the patterns, in the order of the patterns. -/
def findFilesAny (index : Index) (disk : Disk) (patterns : List String) :
    Except ScanError (List String) × Index :=
  index.findMore disk [] patterns

/-- Whether some file matches a pattern; an error counts as no. -/
def hasFiles (index : Index) (disk : Disk) (pattern : String) : Bool × Index :=
  match index.findFiles disk pattern with
  | (.ok files, index) => (!files.isEmpty, index)
  | (.error _, index) => (false, index)

/-- The number of listed files. -/
def totalFiles (index : Index) (disk : Disk) : Except ScanError Nat × Index :=
  match index.list disk with
  | (.ok entries, index) => (.ok entries.length, index)
  | (.error error, index) => (.error error, index)

end Index

end ArchSurvey
