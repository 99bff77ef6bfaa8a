import ArchSurvey.Text.Pattern
import ArchSurvey.Text.Split

/-!
# Annotations

The annotations and modifiers in front of a declaration, and the arguments of an annotation.
-/

namespace ArchSurvey.Declaration

open Text
open Text.Pattern (concat opt group many noneOf textStart blanks is)

/-- An annotation: its simple name and the text of its arguments. -/
structure Note where
  name : String
  arguments : Option (List Char)
  deriving DecidableEq, Repr

/-- The pieces between the commas that stand outside brackets and strings; `piece` holds the piece
being read, last character first. -/
def piecesFrom (depth : Int) (quoted : Bool) (piece : List Char) : List Char → List (List Char)
  | [] => [piece.reverse]
  | '\\' :: c :: rest =>
      if quoted then piecesFrom depth quoted (c :: '\\' :: piece) rest
      else piecesFrom depth quoted ('\\' :: piece) (c :: rest)
  | c :: rest =>
      if c == '"' then piecesFrom depth (!quoted) (c :: piece) rest
      else if quoted then piecesFrom depth quoted (c :: piece) rest
      else if c == '\x7b' || c == '(' || c == '<' then
        piecesFrom (depth + 1) quoted (c :: piece) rest
      else if c == '\x7d' || c == ')' || c == '>' then
        piecesFrom (depth - 1) quoted (c :: piece) rest
      else if c == ',' && depth == 0 then piece.reverse :: piecesFrom depth quoted [] rest
      else piecesFrom depth quoted (c :: piece) rest
termination_by text => text.length

/-- The pieces between the commas that stand outside brackets and strings, without the blank
ones. -/
def splitArguments (text : List Char) : List (List Char) :=
  (piecesFrom 0 false [] text).filter fun piece => !isAllBlank piece

/-- A string that a value begins with, alone or as the first one in braces, in group 1. -/
def firstString : Pattern :=
  concat
    [textStart, blanks, opt (is '\x7b'), blanks, is '"', group 1 (many (noneOf "\"")), is '"']

/-- A string, in group 1. -/
def anyString : Pattern :=
  concat [is '"', group 1 (many (noneOf "\"")), is '"']

namespace Note

/-- The value that an argument gives to an attribute; one without a name is the `value`. -/
def valueIn (key : List Char) (argument : List Char) : Option (List Char) :=
  match cutAt '=' argument with
  | some (name, value) => if trim name == key then some (trim value) else none
  | none => if key == "value".toList then some (trim argument) else none

/-- The value of an attribute. -/
def valueOf? (note : Note) (key : String) : Option (List Char) := do
  (splitArguments (← note.arguments)).findSome? (valueIn key.toList)

/-- The first string in the value of an attribute. -/
def stringOf (note : Note) (key : String) : Option (List Char) := do
  let found ← firstString.search (← note.valueOf? key)
  some (found.group 1)

/-- Every string in the value of an attribute. -/
def stringsOf (note : Note) (key : String) : List (List Char) :=
  match note.valueOf? key with
  | some value => (anyString.searchAll value).map fun found => found.group 1
  | none => []

/-- The path of a mapping: the `value`, or else the `path`, or else nothing. -/
def path (note : Note) : List Char :=
  ((note.stringOf "value").or (note.stringOf "path")).getD []

end Note

/-- The words that may stand in front of a declaration. -/
def modifierWords : List String :=
  ["public", "protected", "private", "static", "final", "abstract", "synchronized", "native",
    "transient", "volatile", "strictfp", "default", "sealed", "non-sealed"]

/-- What follows the parenthesis that closes the one at the start of a text, and what is between
them; a quote after a backslash does not end a string. -/
def afterParenthesis (depth : Nat) (quoted : Bool) (previous : Char) (inside : List Char) :
    List Char → Option (List Char × List Char)
  | [] => none
  | c :: rest =>
      if c == '"' && previous != '\\' then afterParenthesis depth (!quoted) c (c :: inside) rest
      else if quoted then afterParenthesis depth quoted c (c :: inside) rest
      else if c == '(' then afterParenthesis (depth + 1) quoted c (c :: inside) rest
      else if c == ')' then
        if depth ≤ 1 then some (inside.reverse, rest)
        else afterParenthesis (depth - 1) quoted c (c :: inside) rest
      else afterParenthesis depth quoted c (c :: inside) rest

/-- The text of the arguments in front of a text, if there are any, and the rest.  Arguments without
an end take all of the text. -/
def takeArguments (text : List Char) : Option (List Char) × List Char :=
  match text with
  | '(' :: rest =>
      match afterParenthesis 1 false '(' [] rest with
      | some (inside, after) => (some (trim inside), after)
      | none => (some (trim rest), [])
  | text => (none, text)

/-- A character of the name of an annotation, qualification included. -/
def isNameChar (c : Char) : Bool :=
  isAlphanumeric c || c == '_' || c == '.'

/-- Reads an annotation after its at sign, and the rest of the text. -/
def takeNote (text : List Char) : Note × List Char :=
  let name := text.takeWhile isNameChar
  let (arguments, rest) := takeArguments (trimStart (text.dropWhile isNameChar))
  (⟨String.ofList (afterLast '.' name), arguments⟩, rest)

/-- The modifier at the start of a text, and the rest. -/
def takeModifier (text : List Char) : Option (String × List Char) :=
  let isPart (c : Char) : Bool := isAlphanumeric c || c == '-'
  let word := String.ofList (text.takeWhile isPart)
  if modifierWords.contains word then some (word, text.dropWhile isPart) else none

/-- What stands in front of a declaration, and the declaration. -/
structure Heading where
  annotations : List Note := []
  modifiers : List String := []
  rest : List Char := []
  deriving DecidableEq, Repr

/-- Reads at most `fuel` annotations and modifiers in front of a declaration. -/
def readHeading : Nat → List Char → Heading
  | 0, text => { rest := text }
  | fuel + 1, text =>
      if text.head? == some '@' && !startsWith "@interface".toList text then
        let (note, rest) := takeNote (text.drop 1)
        let heading := readHeading fuel (trimStart rest)
        { heading with annotations := note :: heading.annotations }
      else
        match takeModifier text with
        | some (modifier, rest) =>
            let heading := readHeading fuel (trimStart rest)
            { heading with modifiers := modifier :: heading.modifiers }
        | none => { rest := text }

/-- The annotations and modifiers in front of a declaration. -/
def Heading.ofText (text : List Char) : Heading :=
  readHeading (text.length + 1) (trimStart text)

end ArchSurvey.Declaration
