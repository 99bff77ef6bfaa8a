import ArchSurvey.Grammar.Occurrence
import ArchSurvey.Model.Quality
import ArchSurvey.Scan.Context
import ArchSurvey.Scan.Result

/-!
# Reading files in tiers

A file that passes the filter is first given to the structural parser and its occurrences to the
extractor; where that yields nothing to go by, the fallback reads the text.  No file stops a scan:
whatever goes wrong ends up in the statistics.
-/

namespace ArchSurvey

/-- What became of a file. -/
inductive FileOutcome where
  /-- The filter refused it. -/
  | skipped
  /-- The structural parser read it. -/
  | structural
  /-- The fallback read it. -/
  | fallback
  /-- Nothing could read it. -/
  | failed
  deriving DecidableEq, Repr

/-- The name of an outcome. -/
def FileOutcome.name : FileOutcome → String
  | skipped => "Skipped"
  | structural => "Structural"
  | fallback => "Fallback"
  | failed => "Failed"

/-- Whether some tier read the file. -/
def FileOutcome.isSuccess : FileOutcome → Bool
  | structural => true
  | fallback => true
  | _ => false

/-- How far the data of a file can be trusted; nothing is said of a skipped file. -/
def FileOutcome.confidence? : FileOutcome → Option Confidence
  | skipped => none
  | structural => some .high
  | fallback => some .medium
  | failed => some .low

/-- How a scanner reads the text of a file: data, an error, or a panic. -/
abbrev FallbackReader (α : Type) := String → List Char → Attempt (Except String (List α))

/-- How a scanner reads the files that it looks at. -/
structure TierEngine (α : Type) where
  /-- Which files are read at all. -/
  accepts : String → Attempt Bool := fun _ => .finished true
  /-- The structural parser, if the scanner has one. -/
  parser : Option (List UInt8 → Attempt (Except Grammar.Refusal (List Grammar.Occurrence))) := none
  /-- What the occurrences in a file amount to. -/
  extract : String → List Grammar.Occurrence → Attempt (List α) := fun _ _ => .finished []
  /-- What the text of a file amounts to. -/
  fallback : FallbackReader α

/-- The reader that finds nothing in any text. -/
def FallbackReader.nothing {α : Type} : FallbackReader α :=
  fun _ _ => .finished (.ok [])

namespace TierEngine

variable {α : Type}

/-- The data of the structural tier, if the file has occurrences and the extractor returns. -/
def structural? (engine : TierEngine α) (file : String) (bytes : List UInt8) : Option (List α) := do
  let parse ← engine.parser
  let occurrences ← ((← (parse bytes).value?).toOption)
  if occurrences.isEmpty then none else (engine.extract file occurrences).value?

/-- The statistics with one more failed file and the error that made it fail. -/
def fail (stats : Statistics) (type detail : String) : Statistics :=
  stats.addFailed.addError type detail

/-- Reads the text of a file. -/
def readText (engine : TierEngine α) (file : String) (bytes : List UInt8) (stats : Statistics) :
    FileOutcome × List α × Statistics :=
  match engine.fallback file (Text.Utf8.decodeLossy bytes) with
  | .finished (.ok data) => (.fallback, data, stats.addFallback)
  | .finished (.error reason) => (.failed, [], fail stats "fallback" (file ++ ": " ++ reason))
  | .panicked _ => (.failed, [], fail stats "panic" (file ++ ": fallback parser panicked"))

/-- Reads one file and counts what became of it. -/
def parseFile (engine : TierEngine α) (disk : Disk) (file : String) (stats : Statistics) :
    FileOutcome × List α × Statistics :=
  if !(engine.accepts file).getD false then (.skipped, [], stats)
  else
    let stats := stats.addScanned
    match disk.read file with
    | .error _ => (.failed, [], fail stats "io" (file ++ ": unreadable"))
    | .ok bytes =>
        match engine.structural? file bytes with
        | some data => (.structural, data, stats.addParsed)
        | none => engine.readText file bytes stats

/-- What a worker makes of a file whose turn comes before the deadline: the data and statistics of
its own. -/
def parseAlone (engine : TierEngine α) (context : Context) (file : String) :
    Option (List α × Statistics) :=
  if context.isExpired file then none
  else
    let (_, data, stats) := engine.parseFile context.disk file {}
    some (data, stats)

/-- Reads files one by one, each with statistics of its own, which are merged in the order of the
files. -/
def parseFiles (engine : TierEngine α) (context : Context) (files : List String) :
    List α × Statistics :=
  let parts := files.filterMap (engine.parseAlone context)
  (parts.flatMap Prod.fst,
    parts.foldl (fun total part => total.merge part.2) { discovered := files.length })

end TierEngine

end ArchSurvey

/-!
## Sweeps

A sweep reads every file that matches some patterns and puts together what the files yield.
-/

namespace ArchSurvey.Sweep

/-- The warning about files that nothing could read, where there are some. -/
def warnings (stats : Statistics) : List String :=
  if stats.hasFailures then
    [toString stats.failed ++ " of " ++ toString stats.scanned ++
      " file(s) could not be parsed"]
  else []

/-- The successful result of a sweep. -/
def finish (scanner : String) (findings : Findings) (stats : Statistics) : ScanResult :=
  .succeeded scanner findings (warnings stats) stats

/-- The findings in some files, one file after another. -/
def read (engine : TierEngine Findings) (context : Context) (files : List String) :
    Findings × Statistics :=
  let (found, stats) := engine.parseFiles context files
  (Findings.concat found, stats)

/-- The result of reading every file that matches some patterns. -/
def run (scanner : String) (engine : TierEngine Findings) (context : Context)
    (patterns : List String) : Except ScanError ScanResult := do
  let (findings, stats) := read engine context (← context.findFilesAny patterns)
  return finish scanner findings stats

end ArchSurvey.Sweep
