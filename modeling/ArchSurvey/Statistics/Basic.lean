import ArchSurvey.Decimal.Binary64
import ArchSurvey.Json.Decode
import ArchSurvey.Keyed

/-!
# Parsing statistics

How many files a scanner saw and how far it got with each, with the errors it met by type and the
first few of them in detail.
-/

namespace ArchSurvey

/-- The parsing statistics of one scan. -/
structure Statistics where
  /-- Files that match the scanner's patterns. -/
  discovered : Nat := 0
  /-- Files that passed the filter. -/
  scanned : Nat := 0
  /-- Files read by the structural parser. -/
  parsed : Nat := 0
  /-- Files read by the fallback. -/
  fallback : Nat := 0
  /-- Files that nothing could read. -/
  failed : Nat := 0
  /-- How often each type of error occurred. -/
  errorCounts : List (String × Nat) := []
  /-- The first error details. -/
  topErrors : List String := []
  deriving DecidableEq, Repr

namespace Statistics

/-- How many error details are kept. -/
def maxTopErrors : Nat := 10

/-- Statistics of nothing. -/
def empty : Statistics :=
  {}

/-- One number as a percentage of another, in floating-point steps; of nothing it is zero. -/
def percentage (part whole : Nat) : Decimal.Magnitude :=
  if whole == 0 then .ofNat 0
  else ((Decimal.Magnitude.ofNat part).mul (.ofNat 100)).div (.ofNat whole)

/-- The percentage of the scanned files that the structural parser read. -/
def successRate (s : Statistics) : Decimal.Magnitude :=
  percentage s.parsed s.scanned

/-- The percentage of the scanned files that either tier read. -/
def overallParseRate (s : Statistics) : Decimal.Magnitude :=
  percentage (s.parsed + s.fallback) s.scanned

/-- The percentage of the scanned files that nothing could read. -/
def failureRate (s : Statistics) : Decimal.Magnitude :=
  percentage s.failed s.scanned

/-- Whether some file failed. -/
def hasFailures (s : Statistics) : Bool :=
  0 < s.failed

/-- Whether some file was read by the fallback. -/
def usedFallback (s : Statistics) : Bool :=
  0 < s.fallback

/-- The sum of two counts of errors by type. -/
def addCounts (first second : List (String × Nat)) : List (String × Nat) :=
  second.foldl (fun counts (type, count) => Keyed.add type count counts) first

/-- The sum of two statistics; the details of both are kept as far as they fit. -/
def combine (s t : Statistics) : Statistics :=
  { discovered := s.discovered + t.discovered
    scanned := s.scanned + t.scanned
    parsed := s.parsed + t.parsed
    fallback := s.fallback + t.fallback
    failed := s.failed + t.failed
    errorCounts := addCounts s.errorCounts t.errorCounts
    topErrors := (s.topErrors ++ t.topErrors).take maxTopErrors }

/-- One decimal place of a rate. -/
def rateText (rate : Decimal.Magnitude) : String :=
  String.ofList (rate.fixed 1)

/-- The statistics in one line. -/
def summary (s : Statistics) : String :=
  "Discovered: " ++ toString s.discovered ++ ", Scanned: " ++ toString s.scanned ++
    ", Success: " ++ toString s.parsed ++ " (" ++ rateText s.successRate ++
    "%), Fallback: " ++ toString s.fallback ++ ", Failed: " ++ toString s.failed ++
    " (" ++ rateText s.failureRate ++ "%)"

/-- One more scanned file. -/
def addScanned (s : Statistics) : Statistics :=
  { s with scanned := s.scanned + 1 }

/-- One more file read by the structural parser. -/
def addParsed (s : Statistics) : Statistics :=
  { s with parsed := s.parsed + 1 }

/-- One more file read by the fallback. -/
def addFallback (s : Statistics) : Statistics :=
  { s with fallback := s.fallback + 1 }

/-- One more file that nothing could read. -/
def addFailed (s : Statistics) : Statistics :=
  { s with failed := s.failed + 1 }

/-- One more error, its detail kept while there is room. -/
def addError (s : Statistics) (type detail : String) : Statistics :=
  { s with
    errorCounts := Keyed.add type 1 s.errorCounts
    topErrors :=
      if s.topErrors.length < maxTopErrors then s.topErrors ++ [detail] else s.topErrors }

/-- The statistics of two parts of one scan, which discovered the same files. -/
def merge (s t : Statistics) : Statistics :=
  { s.combine t with discovered := max s.discovered t.discovered }

theorem length_topErrors_addError (s : Statistics) (type detail : String)
    (room : s.topErrors.length ≤ maxTopErrors) :
    (s.addError type detail).topErrors.length ≤ maxTopErrors := by
  unfold addError
  dsimp only
  split
  · simp only [List.length_append, List.length_cons, List.length_nil]
    omega
  · exact room

end Statistics

end ArchSurvey

/-! ## Statistics in JSON -/

namespace ArchSurvey.Statistics

open Json

/-- Writes counts by name. -/
def countsToJson (counts : List (String × Nat)) : Json :=
  obj (counts.map fun (name, count) => (name, nat count))

/-- Writes statistics. -/
def toJson (s : Statistics) : Json :=
  obj [("files_discovered", nat s.discovered), ("files_scanned", nat s.scanned),
    ("files_parsed_successfully", nat s.parsed), ("files_parsed_with_fallback", nat s.fallback),
    ("files_failed", nat s.failed), ("error_counts", countsToJson s.errorCounts),
    ("top_errors", ofStrings s.topErrors)]

/-- Reads statistics. -/
def ofJson? : Decoder Statistics := fun value => do
  let fields ← record
    ["files_discovered", "files_scanned", "files_parsed_successfully",
      "files_parsed_with_fallback", "files_failed", "error_counts", "top_errors"] value
  some
    { discovered := ← fields.required "files_discovered" natural
      scanned := ← fields.required "files_scanned" natural
      parsed := ← fields.required "files_parsed_successfully" natural
      fallback := ← fields.required "files_parsed_with_fallback" natural
      failed := ← fields.required "files_failed" natural
      errorCounts := ← fields.withDefault "error_counts" [] (map natural)
      topErrors := ← fields.listOf "top_errors" string }

end ArchSurvey.Statistics
