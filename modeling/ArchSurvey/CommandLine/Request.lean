import ArchSurvey.CommandLine.Arguments
import ArchSurvey.Text.LetterCase

/-!
# Requests

What the user asks for: to scan a project, to list scanners or generators, or to generate documents
from a saved report.
-/

namespace ArchSurvey.CommandLine

/-- How a scan is reported. -/
inductive ReportFormat where
  | pretty
  | json
  deriving DecidableEq, Repr

/-- The format with a name. -/
def ReportFormat.ofName? (name : String) : Option ReportFormat :=
  if name == "pretty" then some .pretty else if name == "json" then some .json else none

/-- A request to scan a project. -/
structure ScanRequest where
  path : String := "."
  config : Option String := none
  /-- Whether to tell only which scanners would run. -/
  dryRun : Bool := false
  format : ReportFormat := .pretty
  output : Option String := none
  timeoutSeconds : Option Nat := none
  sequential : Bool := false
  /-- Whether to write no documents. -/
  noWrite : Bool := false
  deriving DecidableEq, Repr

/-- A request to list scanners or generators. -/
structure ListRequest where
  path : Option String := none
  generators : Bool := false
  deriving DecidableEq, Repr

/-- A request to generate documents. -/
structure GenerateRequest where
  input : String := "docs/architecture/architecture.json"
  types : List String := []
  generators : List String := []
  output : Option String := none
  deriving DecidableEq, Repr

/-- What the user asks for. -/
inductive Request where
  | scan (request : ScanRequest)
  | list (request : ListRequest)
  | generate (request : GenerateRequest)
  deriving DecidableEq, Repr

/-- The options that every command takes. -/
def commonChoices : List Choice :=
  [{ long := "verbose", short := some 'v', repeatable := true },
    { long := "help", short := some 'h' }]

/-- A path is not empty. -/
def isPath (text : String) : Bool :=
  text != ""

/-- The number of seconds that a text stands for: at least one, and at most sixty-four bits. -/
def seconds? (text : String) : Option Nat :=
  let digits :=
    match text.toList with
    | '+' :: rest => rest
    | rest => rest
  (Text.natural64? digits).filter (0 < ·)

/-- What the command to scan takes. -/
def scanShape : Shape :=
  { choices := commonChoices ++
      [{ long := "config", short := some 'c', takesValue := true, accepts := isPath },
        { long := "dry-run" },
        { long := "format", short := some 'f', takesValue := true,
          accepts := fun text => (ReportFormat.ofName? text).isSome },
        { long := "output", short := some 'o', takesValue := true, accepts := isPath },
        { long := "timeout", takesValue := true, accepts := fun text => (seconds? text).isSome },
        { long := "sequential" },
        { long := "no-write" }]
    operands := 1 }

/-- What the command to list takes. -/
def listShape : Shape :=
  { choices := commonChoices ++ [{ long := "generators" }]
    operands := 1 }

/-- What the command to generate takes. -/
def generateShape : Shape :=
  { choices := commonChoices ++
      [{ long := "input", short := some 'i', takesValue := true, accepts := isPath },
        { long := "type", short := some 't', takesValue := true, repeatable := true },
        { long := "generator", short := some 'g', takesValue := true, repeatable := true },
        { long := "output", short := some 'o', takesValue := true, accepts := isPath }] }

/-- What stands before the command. -/
def programShape : Shape :=
  { choices := commonChoices ++ [{ long := "version", short := some 'V' }] }

/-- The request that arguments of the command to scan make. -/
def scanRequest (arguments : Arguments) : ScanRequest :=
  { path := arguments.operands.headD "."
    config := arguments.value? "config"
    dryRun := arguments.has "dry-run"
    format := ((arguments.value? "format").bind ReportFormat.ofName?).getD .pretty
    output := arguments.value? "output"
    timeoutSeconds := (arguments.value? "timeout").bind seconds?
    sequential := arguments.has "sequential"
    noWrite := arguments.has "no-write" }

/-- The request that arguments of the command to list make. -/
def listRequest (arguments : Arguments) : ListRequest :=
  { path := arguments.operands.head?
    generators := arguments.has "generators" }

/-- The request that arguments of the command to generate make. -/
def generateRequest (arguments : Arguments) : GenerateRequest :=
  { input := (arguments.value? "input").getD "docs/architecture/architecture.json"
    types := arguments.values "type"
    generators := arguments.values "generator"
    output := arguments.value? "output" }

/-- The names of the commands. -/
def commandNames : List String :=
  ["scan", "list", "generate", "help"]

/-- Reads a command and its words. -/
def readCommand (name : String) (words : List String) : Except Halt Request :=
  if name == "scan" then (read scanShape words).map fun arguments => .scan (scanRequest arguments)
  else if name == "list" then
    (read listShape words).map fun arguments => .list (listRequest arguments)
  else if name == "generate" then
    (read generateShape words).map fun arguments => .generate (generateRequest arguments)
  else if name == "help" && words.length ≤ 1 && words.all commandNames.contains then .error .help
  else .error .misuse

/-- Reads a command line. -/
def readRequest : List String → Except Halt Request
  | [] => .error .misuse
  | word :: rest =>
      if word == "--" then .error .misuse
      else if isOption word then
        match readOption programShape {} word with
        | .error halt => .error halt
        | .ok _ => readRequest rest
      else readCommand word rest

end ArchSurvey.CommandLine
