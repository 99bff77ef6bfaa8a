import ArchSurvey.Diagram.Generator
import ArchSurvey.Disk.Access

/-!
# Writing documents

Documents are written one after the other.  The first failure ends the writing, and what was
written before it stays.
-/

namespace ArchSurvey.CommandLine

/-- Why documents are not written. -/
inductive WriteError where
  | notCreated (directory : String) (fault : Fault)
  | notWritten (path : String) (fault : Fault)
  | drawing (error : DrawingError)
  deriving DecidableEq, Repr

/-- The wording of an error. -/
def WriteError.message : WriteError → String
  | notCreated directory fault => "failed to create " ++ directory ++ ": " ++ fault.message
  | notWritten path fault => "failed to write " ++ path ++ ": " ++ fault.message
  | drawing error => error.message

/-- A change of a disk that may fail; the disk stays as far as it was changed. -/
abbrev Writing (α : Type) := Disk → Except WriteError α × Disk

/-- Writes a text to a file. -/
def writeText (path text : String) : Writing Unit := fun disk =>
  match disk.write path (Text.Utf8.encode text.toList) with
  | .ok disk => (.ok (), disk)
  | .error fault => (.error (.notWritten path fault), disk)

/-- Makes a directory with its missing parents. -/
def makeDirectories (directory : String) : Writing Unit := fun disk =>
  match disk.makeDirectories directory with
  | (.ok _, disk) => (.ok (), disk)
  | (.error fault, disk) => (.error (.notCreated directory fault), disk)

/-- Writes texts to files, and tells their paths. -/
def writeAll : List (String × String) → Writing (List String)
  | [], disk => (.ok [], disk)
  | (path, text) :: rest, disk =>
      match writeText path text disk with
      | (.error error, disk) => (.error error, disk)
      | (.ok _, disk) =>
          match writeAll rest disk with
          | (.error error, disk) => (.error error, disk)
          | (.ok written, disk) => (.ok (path :: written), disk)

/-- What is to be drawn of a model. -/
structure DrawingPlan where
  generators : List String
  kinds : List DiagramKind
  options : Diagram.DrawingOptions := {}
  withIndex : Bool := true

/-- The documents of a model, each with its path, the index last. -/
def documents (plan : DrawingPlan) (directory : String) (model : Model)
    (quality : Option Quality) : Except DrawingError (List (String × String)) := do
  let drawings ← Generator.drawAll plan.options model plan.generators plan.kinds
  let names := drawings.map Drawing.fileName
  let index :=
    if plan.withIndex then
      [("index.md", Diagram.textOfLines (Catalog.indexLines model quality names))]
    else []
  let files := drawings.map (fun drawing => (drawing.fileName, drawing.content)) ++ index
  return files.map fun (name, text) => (Path.join directory name, text)

/-- Writes the documents of a model into a directory, and tells their paths. -/
def writeDocuments (plan : DrawingPlan) (directory : String) (model : Model)
    (quality : Option Quality) : Writing (List String) := fun disk =>
  match makeDirectories directory disk with
  | (.error error, disk) => (.error error, disk)
  | (.ok _, disk) =>
      match documents plan directory model quality with
      | .error error => (.error (.drawing error), disk)
      | .ok files => writeAll files disk

end ArchSurvey.CommandLine
