import ArchSurvey.Manifest.Requirement

/-!
# Table files

Manifests made of tables, read line by line: only the tables that hold requirements are looked at.
An array may go on over several lines.
-/

namespace ArchSurvey.Manifest.TableFile

open Text
open Text.Pattern (concat oneOf opt literal group many some1 char blanks noneOf textStart textEnd
  anyInLine is anyOf wordChar)

/-- The version in a table of facts about a package, in group 1. -/
def tableVersion : Pattern :=
  concat
    [literal "version", blanks, is '=', blanks, anyOf "\"'", group 1 (many (noneOf "\"'")),
      anyOf "\"'"]

/-- A line that gives a value to a key: the key in group 1 and the value in group 2. -/
def keyValue : Pattern :=
  concat
    [textStart, opt (anyOf "\"'"), group 1 Requirement.namePattern, opt (anyOf "\"'"), blanks,
      is '=', blanks, group 2 (some1 anyInLine), textEnd]

/-- The name of a table with the requirements of a group. -/
def groupTable : Pattern :=
  concat
    [textStart, literal "tool.poetry.group.",
      some1 (oneOf [wordChar, is '.', is '-']), literal ".dependencies", textEnd]

/-- The version in the value of a key; a star stands for any. -/
def versionOf (value : List Char) : Option String :=
  let value := trim value
  let version :=
    if value.head? == some '\x7b' then (tableVersion.search value).map fun found => found.group 1
    else (Requirement.quotedTexts value).head?
  (version.filter fun text => !text.isEmpty && text != ['*']).map String.ofList

/-- A table of a project file. -/
inductive Table where
  | project
  | optionalDependencies
  | poetryDependencies
  | poetryDevDependencies
  | other
  deriving DecidableEq, Repr

/-- The table with a name. -/
def Table.ofName (name : List Char) : Table :=
  if name == "project".toList then project
  else if name == "project.optional-dependencies".toList then optionalDependencies
  else if name == "tool.poetry.dependencies".toList then poetryDependencies
  else if name == "tool.poetry.dev-dependencies".toList then poetryDevDependencies
  else if groupTable.occurs name then poetryDevDependencies
  else other

/-- How many more brackets open than close. -/
def bracketBalance (text : List Char) : Int :=
  (text.count '[' : Int) - (text.count ']' : Int)

/-- An array that goes on: the scope of its requirements, its text so far, and how many brackets are
open. -/
structure OpenArray where
  scope : String
  text : List Char
  depth : Int
  deriving DecidableEq, Repr

/-- What is known after some lines of a project file. -/
structure State where
  table : Table := .other
  pending : Option OpenArray := none
  requirements : List Requirement := []
  deriving DecidableEq, Repr

/-- Adds requirements. -/
def State.add (state : State) (requirements : List Requirement) : State :=
  { state with requirements := state.requirements ++ requirements }

/-- Goes on with an array. -/
def State.continue (state : State) (array : OpenArray) (line : List Char) : State :=
  let text := array.text ++ line ++ ['\n']
  let depth := array.depth + bracketBalance line
  if depth ≤ 0 then
    { state with pending := none }.add (Requirement.readQuoted array.scope text)
  else { state with pending := some { array with text, depth } }

/-- Starts an array, which may end on its first line. -/
def State.startArray (state : State) (scope : String) (value : List Char) : State :=
  let depth := bracketBalance value
  if 0 < depth then { state with pending := some ⟨scope, value ++ ['\n'], depth⟩ }
  else state.add (Requirement.readQuoted scope value)

/-- The scope of the requirements in the array of a key. -/
def arrayScope? (table : Table) (key : List Char) : Option String :=
  match table with
  | .project => if key == "dependencies".toList then some "compile" else none
  | .optionalDependencies => some "optional"
  | _ => none

/-- The scope of the requirement that a key is. -/
def keyScope? (table : Table) (key : List Char) : Option String :=
  match table with
  | .poetryDependencies => if key == "python".toList then none else some "compile"
  | .poetryDevDependencies => some "test"
  | _ => none

/-- The requirement that a key with its value is. -/
def keyRequirement (scope : String) (key value : List Char) : Requirement :=
  { name := String.ofList (lower key), version := versionOf value, scope }

/-- Whether a line names a table. -/
def isTableName (line : List Char) : Bool :=
  line.head? == some '[' && line.getLast? == some ']' && !line.contains '='

/-- What is known after one more line of a project file. -/
def State.step (state : State) (line : List Char) : State :=
  let line := Requirement.withoutComment line
  match state.pending with
  | some array => state.continue array line
  | none =>
      if line.isEmpty || line.head? == some '#' then state
      else if isTableName line then
        { state with table := .ofName (trim (trimWhile (fun c => c == '[' || c == ']') line)) }
      else
        match keyValue.search line with
        | none => state
        | some found =>
            let key := found.group 1
            let value := found.group 2
            match arrayScope? state.table key with
            | some scope => state.startArray scope value
            | none =>
                match keyScope? state.table key with
                | some scope => state.add [keyRequirement scope key value]
                | none => state

/-- Reads the requirements of a project file. -/
def readProject (text : List Char) : List Requirement :=
  ((lines text).foldl State.step {}).requirements

/-- The scope of the requirements in a table of a package file. -/
def packageScope? (line : List Char) : Option String :=
  if line == "[packages]".toList then some "compile"
  else if line == "[dev-packages]".toList then some "test"
  else none

/-- Reads the lines of a package file, the first of them in a table of some scope. -/
def readPackagesFrom (scope : Option String) : List (List Char) → List Requirement
  | [] => []
  | line :: rest =>
      let line := trim line
      if line.head? == some '[' then readPackagesFrom (packageScope? line) rest
      else
        match scope, keyValue.search line with
        | some name, some found =>
            keyRequirement name (found.group 1) (found.group 2) :: readPackagesFrom scope rest
        | _, _ => readPackagesFrom scope rest

/-- Reads the requirements of a package file. -/
def readPackages (text : List Char) : List Requirement :=
  readPackagesFrom none (lines text)

end ArchSurvey.Manifest.TableFile
