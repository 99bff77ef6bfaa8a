import ArchSurvey.Finding.Codec
import ArchSurvey.Statistics.Basic

/-!
# Scan results

What one scanner hands back: its findings with statistics and warnings, or the reasons why it
failed and no findings at all.
-/

namespace ArchSurvey

/-- Why a scan cannot be done. -/
inductive ScanError where
  | rootUnreadable (path reason : String)
  | invalidGlob (pattern reason : String)
  | duplicateScanner (id : String)
  | unreadable (path reason : String)
  | precondition (reason : String)
  deriving DecidableEq, Repr

/-- What is said of a scan that cannot be done. -/
def ScanError.message : ScanError → String
  | rootUnreadable path reason => "cannot read project root " ++ path ++ ": " ++ reason
  | invalidGlob pattern reason => "invalid glob pattern '" ++ pattern ++ "': " ++ reason
  | duplicateScanner id => "scanner '" ++ id ++ "' is already registered"
  | unreadable path reason => "failed to read " ++ path ++ ": " ++ reason
  | precondition reason => reason

/-- The result of one scanner. -/
structure ScanResult where
  scanner : String
  success : Bool
  findings : Findings := {}
  warnings : List String := []
  errors : List String := []
  statistics : Statistics := {}
  deriving DecidableEq, Repr

/-- A length of time in thousandths of a second. -/
structure Duration where
  milliseconds : Nat
  deriving DecidableEq, Repr

namespace Duration

/-- A length of time in whole seconds. -/
def ofSeconds (seconds : Nat) : Duration :=
  ⟨seconds * 1000⟩

/-- The seconds, as the floating-point sum of the whole ones and the fraction. -/
def seconds (duration : Duration) : Decimal.Magnitude :=
  (Decimal.Magnitude.ofNat (duration.milliseconds / 1000)).add
    (.ofRatio (duration.milliseconds % 1000) 1000)

end Duration

namespace ScanResult

/-- A successful result. -/
def succeeded (scanner : String) (findings : Findings) (warnings : List String)
    (statistics : Statistics) : ScanResult :=
  { scanner, success := true, findings, warnings, statistics }

/-- A successful result without findings. -/
def empty (scanner : String) : ScanResult :=
  succeeded scanner {} [] {}

/-- A failed result, which names at least one reason. -/
def failed (scanner : String) (errors : List String) : ScanResult :=
  { scanner
    success := false
    errors := if errors.isEmpty then ["scanner " ++ scanner ++ " failed"] else errors }

/-- The result of a scanner that took too long; what it had counted so far is kept. -/
def timedOut (scanner : String) (timeout : Duration) (counted : Statistics) : ScanResult :=
  { failed scanner ["timed out after " ++ String.ofList (timeout.seconds.fixed 1) ++ "s"] with
    statistics := counted }

/-- The result of a scan that may be impossible. -/
def ofOutcome (scanner : String) : Except ScanError ScanResult → ScanResult
  | .ok result => result
  | .error error => failed scanner [error.message]

open Json

/-- Writes a result, the categories of its findings among its own fields. -/
def toJson (result : ScanResult) : Json :=
  obj ([("scanner_id", str result.scanner), ("success", bool result.success)] ++
    result.findings.toMembers ++
    [("warnings", ofStrings result.warnings), ("errors", ofStrings result.errors),
      ("statistics", result.statistics.toJson)])

/-- Reads a result, which has to be an object. -/
def ofJson? : Decoder ScanResult := fun value => do
  let fields ← objectRecord
    (["scanner_id", "success", "warnings", "errors", "statistics"] ++ Findings.categories) value
  some
    { scanner := ← fields.required "scanner_id" string
      success := ← fields.required "success" truth
      findings := ← Findings.ofFields? fields
      warnings := ← fields.listOf "warnings" string
      errors := ← fields.listOf "errors" string
      statistics := ← fields.withDefault "statistics" {} Statistics.ofJson? }

end ScanResult

/-!
## Attempts

Code that a scanner supplies may panic.  An attempt is what comes of calling it, so that a panic is a
value which the caller turns into an answer of its own.
-/

/-- What comes of a call: a value, or a panic with its message if that is a text. -/
inductive Attempt (α : Type) where
  | finished (value : α)
  | panicked (message : Option String)

namespace Attempt

variable {α β : Type}

/-- The value of a call that finished. -/
def value? : Attempt α → Option α
  | finished value => some value
  | panicked _ => none

/-- The value of a call, or a default after a panic. -/
def getD (attempt : Attempt α) (default : α) : α :=
  attempt.value?.getD default

/-- A call and then another with its value, unless the first panics. -/
def bind : Attempt α → (α → Attempt β) → Attempt β
  | finished value, next => next value
  | panicked message, _ => panicked message

instance : Monad Attempt where
  pure := finished
  bind := bind

end Attempt

end ArchSurvey
