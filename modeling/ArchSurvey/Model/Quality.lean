import ArchSurvey.Model.Basic

/-!
# Scan quality

How much of a project was read, how surely, and where a scan is known to be incomplete.
-/

namespace ArchSurvey

/-- How far a finding can be trusted, by the tier that produced it. -/
inductive Confidence where
  | high
  | medium
  | low
  deriving DecidableEq, Repr

namespace Confidence

/-- Every confidence, highest first. -/
def all : List Confidence :=
  [high, medium, low]

/-- The name of a confidence. -/
def name : Confidence → String
  | high => "HIGH"
  | medium => "MEDIUM"
  | low => "LOW"

/-- What a confidence rests on. -/
def description : Confidence → String
  | high => "AST-based"
  | medium => "Regex-based"
  | low => "Heuristic-based"

/-- The weight of a confidence in tenths. -/
def tenths : Confidence → Nat
  | high => 10
  | medium => 7
  | low => 4

/-- The weight of a confidence. -/
def weight (confidence : Confidence) : Decimal.Magnitude :=
  .ofRatio confidence.tenths 10

/-- The confidence with a name. -/
def ofName? (name : String) : Option Confidence :=
  all.find? fun confidence => confidence.name == name

end Confidence

/-- How bad a gap is. -/
inductive Severity where
  | error
  | warning
  | info
  deriving DecidableEq, Repr

/-- The name of a severity. -/
def Severity.name : Severity → String
  | error => "ERROR"
  | warning => "WARNING"
  | info => "INFO"

/-- The severity with a name. -/
def Severity.ofName? (name : String) : Option Severity :=
  [error, warning, info].find? fun severity => severity.name == name

/-- A place where a scan is known to be incomplete. -/
structure Gap where
  severity : Severity
  scanner : String
  message : String
  deriving DecidableEq, Repr

/-- The quality of a survey. -/
structure Quality where
  totalFiles : Nat
  filesAnalyzed : Nat
  filesSkipped : Nat
  /-- The scanned files by the confidence of their reading, highest confidence first. -/
  filesByConfidence : List (Confidence × Nat)
  /-- The number of findings by category, none if no scan succeeded. -/
  findingsByCategory : List (String × Nat)
  scannersRun : Nat
  scannersFailed : Nat
  gaps : List Gap
  deriving DecidableEq, Repr

namespace Quality

/-- The failure rate in percent above which a scan counts as incomplete. -/
def failureThreshold : Decimal.Magnitude :=
  .ofNat 20

/-- The gap that a failed result leaves. -/
def failureGap (result : ScanResult) : Gap :=
  ⟨.error, result.scanner, "Scanner failed: " ++ result.errors.headD "unknown error"⟩

/-- The gap of a warning, where there is one. -/
def warningGap (result : ScanResult) : List Gap :=
  match result.warnings with
  | [] => []
  | warning :: _ => [⟨.warning, result.scanner, warning⟩]

/-- The gap of many unread files, where there are many. -/
def failureRateGap (result : ScanResult) : List Gap :=
  let s := result.statistics
  if failureThreshold.lt s.failureRate then
    [⟨.warning, result.scanner,
      "High parse failure rate: " ++ Statistics.rateText s.failureRate ++ "% (" ++
        toString s.failed ++ " of " ++ toString s.scanned ++ " files)"⟩]
  else []

/-- The gap of files read by the fallback, where there are some. -/
def fallbackGap (result : ScanResult) : List Gap :=
  if result.statistics.usedFallback then
    [⟨.info, result.scanner,
      toString result.statistics.fallback ++
        " file(s) parsed with fallback (reduced confidence)"⟩]
  else []

/-- The gaps that a result leaves. -/
def gapsOf (result : ScanResult) : List Gap :=
  if result.success then warningGap result ++ failureRateGap result ++ fallbackGap result
  else [failureGap result]

/-- The gaps that results leave, by scanner. -/
def gapsOfAll (results : List ScanResult) : List Gap :=
  (results.mergeSort fun a b => a.scanner ≤ b.scanner).flatMap gapsOf

/-- The number of files that a result read with a confidence. -/
def filesWith (confidence : Confidence) (result : ScanResult) : Nat :=
  match confidence with
  | .high => result.statistics.parsed
  | .medium => result.statistics.fallback
  | .low => result.statistics.failed

/-- The quality of some results for a project of `total` files. -/
def ofResults (total : Nat) (results : List ScanResult) : Quality :=
  let succeeded := results.filter ScanResult.success
  let analyzed := succeeded.foldl (fun files result => files + result.statistics.scanned) 0
  { totalFiles := total
    filesAnalyzed := analyzed
    filesSkipped := total - analyzed
    filesByConfidence := Confidence.all.map fun confidence =>
      (confidence, succeeded.foldl (fun files result => files + filesWith confidence result) 0)
    findingsByCategory := succeeded.foldl (fun counts result =>
      result.findings.counts.foldl (fun counts (category, count) =>
        Keyed.add category count counts) counts) []
    scannersRun := results.length
    scannersFailed := results.countP fun result => !result.success
    gaps := gapsOfAll results }

/-- Whether some gap is an error. -/
def hasErrors (quality : Quality) : Bool :=
  quality.gaps.any fun gap => gap.severity == .error

open Json

/-- Writes a gap. -/
def gapToJson (gap : Gap) : Json :=
  obj [("severity", str gap.severity.name), ("scanner_id", str gap.scanner),
    ("message", str gap.message)]

/-- Reads a gap. -/
def gapOfJson? : Decoder Gap := fun value => do
  let fields ← record ["severity", "scanner_id", "message"] value
  some
    { severity := ← fields.required "severity" (variant Severity.ofName?)
      scanner := ← fields.required "scanner_id" string
      message := ← fields.required "message" string }

/-- Writes a quality report. -/
def toJson (quality : Quality) : Json :=
  obj [("total_files", nat quality.totalFiles), ("files_analyzed", nat quality.filesAnalyzed),
    ("files_skipped", nat quality.filesSkipped),
    ("files_by_confidence", obj (quality.filesByConfidence.map fun (confidence, count) =>
      (confidence.name, nat count))),
    ("findings_by_category", Statistics.countsToJson quality.findingsByCategory),
    ("scanners_run", nat quality.scannersRun), ("scanners_failed", nat quality.scannersFailed),
    ("gaps", arr (quality.gaps.map gapToJson))]

/-- The counts by confidence among counts by name, highest confidence first; none if some name
is no confidence. -/
def confidenceCounts? (counts : List (String × Nat)) : Option (List (Confidence × Nat)) :=
  if counts.all fun entry => (Confidence.ofName? entry.1).isSome then
    some (Confidence.all.filterMap fun confidence =>
      (counts.lookup confidence.name).map (confidence, ·))
  else none

/-- Reads a quality report. -/
def ofJson? : Decoder Quality := fun value => do
  let fields ← record
    ["total_files", "files_analyzed", "files_skipped", "files_by_confidence",
      "findings_by_category", "scanners_run", "scanners_failed", "gaps"] value
  some
    { totalFiles := ← fields.required "total_files" natural
      filesAnalyzed := ← fields.required "files_analyzed" natural
      filesSkipped := ← fields.required "files_skipped" natural
      filesByConfidence := ← fields.required "files_by_confidence" fun value => do
        confidenceCounts? (← map natural value)
      findingsByCategory := ← fields.required "findings_by_category" (map natural)
      scannersRun := ← fields.required "scanners_run" natural
      scannersFailed := ← fields.required "scanners_failed" natural
      gaps := ← fields.required "gaps" (list gapOfJson?) }

end Quality

end ArchSurvey
