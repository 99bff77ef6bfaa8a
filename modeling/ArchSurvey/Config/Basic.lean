import ArchSurvey.Diagram.Document
import ArchSurvey.Json.Decode
import ArchSurvey.Scan.Groups
import ArchSurvey.Yaml.Printer

/-!
# Project configurations

What a project may say about its survey; every part may be left out.  A configuration may be written
in YAML or in JSON.  The two differ in what they take for a text, a list and a record, and agree on
all else.
-/

namespace ArchSurvey

/-- What a project says of itself. -/
structure ProjectInfo where
  name : Option String := none
  version : Option String := none
  description : Option String := none
  deriving DecidableEq, Repr

/-- How the scanners to run are chosen. -/
inductive SelectionMode where
  /-- Every scanner. -/
  | auto
  /-- The members of the listed groups. -/
  | groups
  /-- The listed scanners. -/
  | explicit
  deriving DecidableEq, Repr

/-- The name of a way to choose scanners. -/
def SelectionMode.name : SelectionMode → String
  | auto => "auto"
  | groups => "groups"
  | explicit => "explicit"

/-- The way to choose scanners with a name. -/
def SelectionMode.ofName? (name : String) : Option SelectionMode :=
  [auto, groups, explicit].find? fun mode => mode.name == name

/-- The choice of scanners. -/
structure ScannerSelection where
  mode : Option SelectionMode := none
  enabled : List String := []
  groups : List String := []
  /-- The scanners that never run. -/
  disabled : List String := []
  deriving DecidableEq, Repr

namespace ScannerSelection

/-- How the scanners are chosen; without a word on it, lists that are not empty decide. -/
def effectiveMode (selection : ScannerSelection) : SelectionMode :=
  match selection.mode with
  | some mode => mode
  | none =>
      if !selection.groups.isEmpty then .groups
      else if !selection.enabled.isEmpty then .explicit
      else .auto

/-- Whether a scanner is chosen. -/
def selects (selection : ScannerSelection) (scanner : String) : Bool :=
  !selection.disabled.contains scanner &&
    match selection.effectiveMode with
    | .auto => true
    | .groups => Groups.includes selection.groups scanner
    | .explicit => selection.enabled.isEmpty || selection.enabled.contains scanner

end ScannerSelection

/-- How a survey is run. -/
structure ScanSettings where
  timeoutSeconds : Nat := 300
  parallel : Bool := true
  /-- The patterns of the files that are left out. -/
  exclude : List String := []
  deriving DecidableEq, Repr

/-- What is drawn of a model. -/
structure GeneratorSettings where
  enabled : List String := ["mermaid", "markdown"]
  diagrams : List String := []
  theme : Option String := none
  includeExternal : Bool := true
  deriving DecidableEq, Repr

/-- How the diagrams are to be drawn. -/
def GeneratorSettings.options (settings : GeneratorSettings) : Diagram.DrawingOptions :=
  ⟨settings.theme, settings.includeExternal⟩

/-- Where documents are written. -/
structure OutputSettings where
  directory : String := "docs/architecture"
  generateIndex : Bool := true
  deriving DecidableEq, Repr

/-- The configuration of a project. -/
structure ProjectConfig where
  project : ProjectInfo := {}
  scanners : ScannerSelection := {}
  /-- The free settings of scanners, by name. -/
  settings : List (String × Yaml.Value) := []
  scan : ScanSettings := {}
  generators : GeneratorSettings := {}
  output : OutputSettings := {}

namespace ProjectConfig

/-- A setting as a text; one without a value has none. -/
def settingText? : Yaml.Value → Option String
  | .nothing => none
  | .text text => some text
  | value => some value.print

/-- The settings as texts. -/
def settingTexts (config : ProjectConfig) : List (String × String) :=
  config.settings.filterMap fun (name, value) => (settingText? value).map (name, ·)

/-- The name of the project, or another one if the configuration gives none that shows. -/
def projectNameOr (config : ProjectConfig) (fallback : String) : String :=
  match config.project.name with
  | none => fallback
  | some name => if (Text.trim name.toList).isEmpty then fallback else name

end ProjectConfig

/-! ## Decoding -/

/-- What a format takes for values of the basic types. -/
structure DataFormat (ν : Type) where
  text : ν → Option String
  truth : ν → Option Bool
  natural : ν → Option Nat
  variantName : ν → Option String
  /-- Whether a value stands for none. -/
  isNone : ν → Bool
  list : ν → Option (List ν)
  /-- The values of a map by name. -/
  map : ν → Option (List (String × ν))
  /-- The fields of a record with the given field names. -/
  record : List String → ν → Option (List (String × ν))
  value : ν → Option Yaml.Value

namespace DataFormat

variable {ν : Type}

/-- The value of a field, or a default value for one that is left out. -/
def field {α : Type} (fields : List (String × ν)) (name : String) (default : α)
    (decode : ν → Option α) : Option α :=
  match fields.lookup name with
  | none => some default
  | some value => decode value

/-- The value of a field that may be left out or none. -/
def optional {α : Type} (format : DataFormat ν) (fields : List (String × ν)) (name : String)
    (decode : ν → Option α) : Option (Option α) :=
  field fields name none fun value =>
    if format.isNone value then some none else (decode value).map some

/-- A list of texts. -/
def texts (format : DataFormat ν) (value : ν) : Option (List String) := do
  (← format.list value).mapM format.text

/-- Reads what a project says of itself. -/
def projectInfo (format : DataFormat ν) (value : ν) : Option ProjectInfo := do
  let fields ← format.record ["name", "version", "description"] value
  some
    { name := ← format.optional fields "name" format.text
      version := ← format.optional fields "version" format.text
      description := ← format.optional fields "description" format.text }

/-- Reads the free settings of scanners. -/
def settings (format : DataFormat ν) (value : ν) : Option (List (String × Yaml.Value)) := do
  let values ← (← format.map value).mapM fun (name, value) =>
    (format.value value).map (name, ·)
  some (Keyed.ofList values)

/-- Reads the choice of scanners and their free settings. -/
def scanners (format : DataFormat ν) (value : ν) :
    Option (ScannerSelection × List (String × Yaml.Value)) := do
  let fields ← format.record ["mode", "enabled", "groups", "disabled", "settings"] value
  let mode ← format.optional fields "mode" fun value =>
    (format.variantName value).bind SelectionMode.ofName?
  let selection : ScannerSelection :=
    { mode
      enabled := ← field fields "enabled" [] format.texts
      groups := ← field fields "groups" [] format.texts
      disabled := ← field fields "disabled" [] format.texts }
  some (selection, ← field fields "settings" [] format.settings)

/-- Reads how a survey is run. -/
def scanSettings (format : DataFormat ν) (value : ν) : Option ScanSettings := do
  let fields ← format.record ["timeout_secs", "parallel", "exclude"] value
  let default : ScanSettings := {}
  some
    { timeoutSeconds := ← field fields "timeout_secs" default.timeoutSeconds format.natural
      parallel := ← field fields "parallel" default.parallel format.truth
      exclude := ← field fields "exclude" default.exclude format.texts }

/-- Reads what is drawn of a model. -/
def generatorSettings (format : DataFormat ν) (value : ν) : Option GeneratorSettings := do
  let fields ← format.record ["enabled", "diagrams", "theme", "include_external"] value
  let default : GeneratorSettings := {}
  some
    { enabled := ← field fields "enabled" default.enabled format.texts
      diagrams := ← field fields "diagrams" default.diagrams format.texts
      theme := ← format.optional fields "theme" format.text
      includeExternal := ← field fields "include_external" default.includeExternal format.truth }

/-- Reads where documents are written. -/
def outputSettings (format : DataFormat ν) (value : ν) : Option OutputSettings := do
  let fields ← format.record ["directory", "generate_index"] value
  let default : OutputSettings := {}
  some
    { directory := ← field fields "directory" default.directory format.text
      generateIndex := ← field fields "generate_index" default.generateIndex format.truth }

/-- Reads a configuration. -/
def config (format : DataFormat ν) (value : ν) : Option ProjectConfig := do
  let fields ← format.record ["project", "scanners", "scan", "generators", "output"] value
  let (selection, settings) ← field fields "scanners" ({}, []) format.scanners
  some
    { project := ← field fields "project" {} format.projectInfo
      scanners := selection
      settings
      scan := ← field fields "scan" {} format.scanSettings
      generators := ← field fields "generators" {} format.generatorSettings
      output := ← field fields "output" {} format.outputSettings }

/-- The format of JSON values. -/
def json : DataFormat Json where
  text := Json.string
  truth := Json.truth
  natural := Json.natural
  variantName := Json.variantName
  isNone
    | .null => true
    | _ => false
  list := Json.list some
  map := Json.map some
  record names value := (Json.record names value).map Json.Fields.members
  value := Yaml.Value.ofJson?

end DataFormat

namespace Yaml

/-- The truth value of a plain scalar. -/
def truth? : Yaml → Option Bool
  | scalar true text => truthOf? text
  | _ => none

/-- The natural number of a plain scalar, of at most sixty-four bits. -/
def word? : Yaml → Option Nat
  | scalar true text => (natural? text.toList).filter (· < Nat.pow 2 64)
  | _ => none

/-- Whether a plain scalar stands for none. -/
def isNone : Yaml → Bool
  | scalar true text => text.isEmpty || isNullWord text
  | _ => false

/-- The items of a list; an empty scalar is a list without items. -/
def items? : Yaml → Option (List Yaml)
  | list items => some items
  | scalar _ text => if text.isEmpty then some [] else none
  | map _ => none

/-- The entries of a map by the texts of their keys; an empty scalar is a map without entries. -/
def entries? : Yaml → Option (List (String × Yaml))
  | map entries => entries.mapM fun (key, value) => key.text?.map (·, value)
  | scalar _ text => if text.isEmpty then some [] else none
  | list _ => none

/-- The fields of a record: a map in which no name of a field stands twice. -/
def fields? (names : List String) (value : Yaml) : Option (List (String × Yaml)) :=
  value.entries?.filter fun entries =>
    names.all fun name => (entries.countP fun entry => entry.1 == name) ≤ 1

/-- The format of YAML documents. -/
def format : DataFormat Yaml where
  text := text?
  truth := truth?
  natural := word?
  variantName := text?
  isNone := isNone
  list := items?
  map := entries?
  record := fields?
  value := Value.ofYaml?

end Yaml

namespace ProjectConfig

/-- Reads a configuration from a JSON value. -/
def ofJson? (value : Json) : Option ProjectConfig :=
  DataFormat.json.config value

/-- Reads a configuration from a YAML text; one without content is the default configuration. -/
def ofYaml? (text : List Char) : Option ProjectConfig := do
  match ← Yaml.parse? text with
  | none => some {}
  | some document => Yaml.format.config document

end ProjectConfig

end ArchSurvey
