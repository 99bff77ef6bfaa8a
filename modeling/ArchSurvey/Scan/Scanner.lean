import ArchSurvey.Scan.Applicability

/-!
# Scanners

A scanner extracts the architecture facts of one technology.  It is known by its identity, reads the
files that its patterns name, and runs in the order of its priority.
-/

namespace ArchSurvey

/-- A scanner. -/
structure Scanner where
  id : String
  title : String
  /-- The languages whose files it reads. -/
  languages : List String
  /-- Patterns of the files that it reads. -/
  patterns : List String
  /-- Scanners of lower priority run earlier. -/
  priority : Int
  /-- Whether it is relevant for a project, beyond having files there. -/
  applicability : Applicability := .hasAnyFiles patterns
  scan : Context → Attempt ScanResult

namespace Scanner

/-- Whether some file of a project matches a pattern of the scanner and its own test holds; a panic
counts as no. -/
def isApplicable (scanner : Scanner) (context : Context) : Bool :=
  scanner.patterns.any context.hasFiles && (scanner.applicability.test context).getD false

/-- The order of scanners by priority and identity. -/
def le (a b : Scanner) : Bool :=
  a.priority < b.priority || (a.priority == b.priority && a.id ≤ b.id)

/-- The result of a scan in which a panic counts as a failure. -/
def runIsolated (scanner : Scanner) (context : Context) : ScanResult :=
  match scanner.scan context with
  | .finished result => result
  | .panicked message =>
      .failed scanner.id ["scanner panicked: " ++ message.getD "unknown panic"]

end Scanner

end ArchSurvey
