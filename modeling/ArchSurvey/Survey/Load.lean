import ArchSurvey.Disk.Access
import ArchSurvey.Json.Reader
import ArchSurvey.Survey.Report

/-!
# Loading models

A model comes from the file of a report, together with its quality, or from a file of its own.
-/

namespace ArchSurvey

/-- Why a file yields no model. -/
inductive ModelError where
  | unreadable (path : String) (fault : Fault)
  | malformed (path : String)
  deriving DecidableEq, Repr

/-- The wording of an error. -/
def ModelError.message : ModelError → String
  | unreadable path fault => "failed to read " ++ path ++ ": " ++ fault.message
  | malformed path => path ++ " is neither a scan report nor a model: unknown document"

/-- The model in a file, with its quality where the file is that of a report. -/
def Model.load (disk : Disk) (path : String) : Except ModelError (Model × Option Quality) :=
  match disk.readText path with
  | .error fault => .error (.unreadable path fault)
  | .ok text =>
      match (Json.parseChars? text).bind Model.ofDocument? with
      | some loaded => .ok loaded
      | none => .error (.malformed path)

end ArchSurvey
