import ArchSurvey.Text.LetterCase
import ArchSurvey.Text.Pattern
import ArchSurvey.Text.Split

/-!
# Requirements

One required package as requirement files write it: a name, perhaps with extras, and perhaps the
versions that will do.
-/

namespace ArchSurvey.Manifest

open Text
open Text.Pattern (concat oneOf opt literal group many some1 char blanks noneOf textStart textEnd
  anyInLine is)

/-- A required package. -/
structure Requirement where
  name : String
  version : Option String
  scope : String
  deriving DecidableEq, Repr

namespace Requirement

/-- A character that a package name starts with. -/
def nameStart : Pattern :=
  char isAsciiAlphanumeric

/-- A further character of a package name. -/
def nameRest : Pattern :=
  char fun c => isAsciiAlphanumeric c || c == '.' || c == '_' || c == '-'

/-- A package name. -/
def namePattern : Pattern :=
  .seq nameStart (many nameRest)

/-- The comparisons of versions, a longer one before its start. -/
def comparisons : List String :=
  ["===", "==", ">=", "<=", "~=", "!=", ">", "<"]

/-- A requirement: the name in group 1, the comparison in group 2 and the version in group 3. -/
def pattern : Pattern :=
  concat
    [textStart, group 1 namePattern, blanks, opt (concat [is '[', many (noneOf "]"), is ']']),
      blanks,
      opt (concat
        [group 2 (oneOf (comparisons.map literal)), blanks, group 3 (some1 anyInLine)]),
      textEnd]

/-- Reads a requirement; markers and addresses are left out, and so is the sign of equality. -/
def read (scope : String) (text : List Char) : Option Requirement := do
  let text := trim (beforeFirst [';'] text)
  let text := trim (beforeFirst " @ ".toList text)
  let found ← pattern.search text
  some
    { name := String.ofList (lower (found.group 1))
      version :=
        match found.group? 2, found.group? 3 with
        | some comparison, some version =>
            let version := trim version
            some (String.ofList
              (if comparison == "==".toList then version else comparison ++ version))
        | _, _ => none
      scope }

/-- A text in double quotes in group 1 or in single quotes in group 2. -/
def quoted : Pattern :=
  oneOf
    [concat [is '"', group 1 (many (noneOf "\"")), is '"'],
      concat [is '\'', group 2 (many (noneOf "'")), is '\'']]

/-- The quoted texts. -/
def quotedTexts (text : List Char) : List (List Char) :=
  (quoted.searchAll text).map fun found => (found.group? 1).getD (found.group 2)

/-- Reads the requirements among the quoted texts. -/
def readQuoted (scope : String) (text : List Char) : List Requirement :=
  (quotedTexts text).filterMap (read scope)

/-- Whether a line of a requirement file says nothing of a package. -/
def isIgnored (line : List Char) : Bool :=
  line.isEmpty || line.head? == some '#' || line.head? == some '-'

/-- The line without the comment at its end and without blanks at its ends. -/
def withoutComment (line : List Char) : List Char :=
  trim (beforeFirst " #".toList line)

/-- Reads a requirement file, one package a line. -/
def readLines (text : List Char) : List Requirement :=
  (((lines text).map withoutComment).filter fun line => !isIgnored line).filterMap (read "compile")

/-- The list of requirements of a setup script, in group 1. -/
def setupList : Pattern :=
  concat
    [literal "install_requires", blanks, is '=', blanks, is '[', group 1 (.star false .any), is ']']

/-- Reads the requirements of a setup script. -/
def readSetup (text : List Char) : List Requirement :=
  match setupList.search text with
  | some found => readQuoted "compile" (found.group 1)
  | none => []

end Requirement

end ArchSurvey.Manifest
