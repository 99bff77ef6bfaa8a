import ArchSurvey.Diagram.Generator
import ArchSurvey.Survey.Report
import ArchSurvey.Text.Split

/-!
# Reports for readers

Reports, plans and lists of scanners as lines for a terminal.
-/

namespace ArchSurvey.Console

/-!
## Styled text

Text for a terminal: padded to a width, and shown in a style where the terminal has styles.
-/

/-- The styles of text. -/
inductive Style where
  | bold
  | dimmed
  | red
  | green
  | yellow
  | blue
  | boldCyan
  deriving DecidableEq, Repr

/-- The code that turns a style on. -/
def Style.code : Style → String
  | bold => "1"
  | dimmed => "2"
  | red => "31"
  | green => "32"
  | yellow => "33"
  | blue => "34"
  | boldCyan => "1;36"

/-- A text in a style, where styles are shown. -/
def styled (colors : Bool) (style : Style) (text : String) : String :=
  if colors then "\x1b[" ++ style.code ++ "m" ++ text ++ "\x1b[0m" else text

/-- A number of blanks. -/
def blanks (count : Nat) : String :=
  String.ofList (List.replicate count ' ')

/-- A text with blanks after it up to a width. -/
def padRight (width : Nat) (text : String) : String :=
  text ++ blanks (width - text.length)

/-- A text with blanks before it up to a width. -/
def padLeft (width : Nat) (text : String) : String :=
  blanks (width - text.length) ++ text

/-- Lines as a text, each ended by a line feed. -/
def linesText (lines : List String) : String :=
  String.join (lines.map (· ++ "\n"))

/-! ## Reports for readers -/

/-- The name of the program. -/
def programName : String := "archscan"

/-- The lines above a report, with a fact under a label. -/
def headerLines (colors : Bool) (label value : String) : List String :=
  ["", "  " ++ styled colors .boldCyan programName ++ " v" ++ version, "",
    "  " ++ styled colors .dimmed (padRight 10 label) ++ value, ""]

/-- The line of a number of findings. -/
def countLine (colors : Bool) (label : String) (count : Nat) : String :=
  let shown := padLeft 5 (toString count)
  "    " ++ padRight 20 label ++ " " ++ if count == 0 then styled colors .dimmed shown else shown

/-- The lines on the findings of a model. -/
def findingLines (colors : Bool) (model : Model) : List String :=
  ["  " ++ styled colors .bold "Findings:",
    countLine colors "Components" model.components.length,
    countLine colors "Dependencies" model.dependencies.length,
    countLine colors "API endpoints" model.endpoints.length,
    countLine colors "Message flows" model.flows.length,
    countLine colors "Data entities" model.entities.length,
    countLine colors "Relationships" model.relationships.length]

/-- A title with the number of what is listed under it. -/
def countedTitle (colors : Bool) (title : String) (count : Nat) : String :=
  "  " ++ styled colors .bold title ++ " (" ++ toString count ++ "):"

/-- The lines on the result of a scanner. -/
def resultLines (colors : Bool) (result : ScanResult) : List String :=
  let mark :=
    if result.success then styled colors .green "OK  " else styled colors .red "FAIL"
  let note (style : Style) (text : String) := blanks 12 ++ styled colors style text
  ("    " ++ mark ++ " " ++ padRight 24 result.scanner ++
      styled colors .dimmed result.statistics.summary) ::
    result.errors.map (note .red) ++ result.warnings.map (note .yellow)

/-- The lines on the results of all scanners. -/
def scannerLines (colors : Bool) (results : List ScanResult) : List String :=
  [countedTitle colors "Scanners" results.length, ""] ++
    if results.isEmpty then ["    " ++ styled colors .dimmed "no applicable scanners"]
    else results.flatMap (resultLines colors)

/-- The mark of a severity. -/
def severityMark (colors : Bool) : Severity → String
  | .error => styled colors .red "ERROR"
  | .warning => styled colors .yellow "WARN "
  | .info => styled colors .blue "INFO "

/-- The line of a gap. -/
def gapLine (colors : Bool) (gap : Gap) : String :=
  "    " ++ severityMark colors gap.severity ++ " " ++
    styled colors .dimmed (padRight 24 gap.scanner) ++ gap.message

/-- The lines on the gaps of a survey. -/
def gapLines (colors : Bool) (gaps : List Gap) : List String :=
  if gaps.isEmpty then []
  else countedTitle colors "Quality gaps" gaps.length :: gaps.map (gapLine colors) ++ [""]

/-- The lines on the files that were written. -/
def writtenLines (colors : Bool) (written : List String) : List String :=
  if written.isEmpty then []
  else
    countedTitle colors "Written" written.length ::
      written.map (fun path => "    " ++ styled colors .blue path) ++ [""]

/-- The line that says how a survey ended. -/
def statusLine (colors : Bool) (report : SurveyReport) (milliseconds : Nat) : String :=
  let quality := report.quality
  let files :=
    toString quality.filesAnalyzed ++ " of " ++ toString quality.totalFiles ++
      " files analyzed in " ++ toString milliseconds ++ " ms"
  let status :=
    if report.hasFailures then
      styled colors .red (toString quality.scannersFailed ++ " SCANNER(S) FAILED")
    else styled colors .green "COMPLETED"
  "  " ++ styled colors .dimmed files ++ "  " ++ status

/-- The lines of a report. -/
def reportLines (colors : Bool) (report : SurveyReport) (milliseconds : Nat)
    (written : List String) : List String :=
  headerLines colors "Scanning:" report.root ++
    ["  " ++ styled colors .dimmed (padRight 10 "Project:") ++ report.projectName, ""] ++
    findingLines colors report.model ++ [""] ++
    scannerLines colors report.results ++ [""] ++
    gapLines colors report.quality.gaps ++
    writtenLines colors written ++ [statusLine colors report milliseconds, ""]

/-- A priority as a column. -/
def priorityColumn (scanner : Scanner) : String :=
  padLeft 4 (toString scanner.priority)

/-- The lines of a plan. -/
def planLines (colors : Bool) (root : String) (planned : List Scanner) : List String :=
  headerLines colors "Dry run:" root ++
    [countedTitle colors "Would run" planned.length] ++
    planned.map (fun scanner =>
      "    " ++ priorityColumn scanner ++ "  " ++ padRight 24 scanner.id ++
        styled colors .dimmed scanner.title) ++ [""]

/-- The columns of a list of scanners. -/
def scannerColumns (priority id title languages : String) : String :=
  priority ++ "  " ++ padRight 24 id ++ padRight 32 title ++ languages

/-- The line of a scanner; where it is known which scanners apply, the others are set back. -/
def scannerLine (colors : Bool) (applicable : Option (List String)) (scanner : Scanner) : String :=
  let columns :=
    scannerColumns (priorityColumn scanner) scanner.id scanner.title
      (", ".intercalate scanner.languages)
  let shown :=
    match applicable with
    | none => columns
    | some ids => styled colors (if ids.contains scanner.id then .green else .dimmed) columns
  "  " ++ shown

/-- The lines of a list of scanners. -/
def scannerListLines (colors : Bool) (scanners : List Scanner)
    (applicable : Option (List String)) : List String :=
  ["", "  " ++ styled colors .bold (scannerColumns "PRIO" "ID" "NAME" "LANGUAGES")] ++
    scanners.map (scannerLine colors applicable) ++ [""]

/-- The lines of a generator. -/
def generatorLines (generator : Generator) : List String :=
  ["  " ++ padRight 10 generator.id ++ " " ++ generator.title,
    "  " ++ blanks 10 ++ " .md - " ++ ", ".intercalate (generator.kinds.map DiagramKind.name)]

/-- The lines of the list of generators. -/
def generatorListLines : List String :=
  ["Available generators:", ""] ++ Generator.all.flatMap generatorLines ++ [""]

end ArchSurvey.Console
