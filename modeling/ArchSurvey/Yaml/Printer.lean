import ArchSurvey.Digest.Sha256
import ArchSurvey.Text.Split
import ArchSurvey.Yaml.Reader
import ArchSurvey.Yaml.Value

/-!
# YAML text of values

Lists and maps as blocks, a list inside a map at the column of its key.  A text stands without
quotes where it reads back as itself, in single quotes where it would read as something else, in
double quotes where it holds characters that need an escape, and as a block where it has lines.
-/

namespace ArchSurvey.Yaml

/-- Whether a text without quotes would be read as something other than itself. -/
def isAmbiguous (text : String) : Bool :=
  plain text != .text || hasIdleZero text.toList

/-- A character that quotes need not escape. -/
def isShown (c : Char) : Bool :=
  c != '\t' && c != '\r' && c.toNat != 0x85 && isPrintable c

/-- Whether a mark that a plain scalar does not hold stands somewhere in a text; `spaced` tells
whether white space stands before it. -/
def hasIndicatorFrom (spaced : Bool) : List Char → Bool
  | [] => false
  | c :: rest =>
      (c == ':' && startsBlank rest) || (c == '#' && spaced) ||
        hasIndicatorFrom (startsBlank [c]) rest

/-- Whether a mark that no plain scalar starts with starts a text. -/
def startsIndicator : List Char → Bool
  | [] => false
  | c :: rest =>
      if c == '-' || c == '?' || c == ':' then startsBlank rest else indicators.contains c

/-- Whether a text on one line may stand without quotes. -/
def isPlainText (text : List Char) : Bool :=
  !text.isEmpty && text.all isShown && text.head? != some ' ' && text.getLast? != some ' ' &&
    !(Text.startsWith ['-', '-', '-'] text || Text.startsWith ['.', '.', '.'] text) &&
    !startsIndicator text && !hasIndicatorFrom false text

/-- A text in single quotes. -/
def singleQuoted (text : List Char) : List Char :=
  '\'' :: text.flatMap (fun c => if c == '\'' then ['\'', '\''] else [c]) ++ ['\'']

/-- The letters that stand for characters after a backslash. -/
def escapeLetters : List (Char × Char) :=
  [('\x00', '0'), ('\x07', 'a'), ('\x08', 'b'), ('\t', 't'), ('\n', 'n'), ('\x0b', 'v'),
    ('\x0c', 'f'), ('\r', 'r'), ('\x1b', 'e'), ('"', '"'), ('\\', '\\'), ('\u0085', 'N'),
    ('\u00a0', '_'), ('\u2028', 'L'), ('\u2029', 'P')]

/-- A character inside double quotes. -/
def doubleQuotedChar (c : Char) : List Char :=
  if isShown c && !(['"', '\\', '\n', '\u2028', '\u2029'].contains c) then [c]
  else
    match escapeLetters.lookup c with
    | some letter => ['\\', letter]
    | none =>
        let hex (width : Nat) := (Digest.Sha256.hexDigits width c.toNat).map Char.toUpper
        if c.toNat ≤ 0xFF then '\\' :: 'x' :: hex 2
        else if c.toNat ≤ 0xFFFF then '\\' :: 'u' :: hex 4
        else '\\' :: 'U' :: hex 8

/-- A text in double quotes. -/
def doubleQuoted (text : List Char) : List Char :=
  '"' :: text.flatMap doubleQuotedChar ++ ['"']

/-- Whether white space stands before a line end. -/
def hasSpaceBeforeEnd : List Char → Bool
  | ' ' :: '\n' :: _ => true
  | _ :: rest => hasSpaceBeforeEnd rest
  | [] => false

/-- Whether a text with lines may stand as a block. -/
def isBlockText (text : List Char) : Bool :=
  text.all isShown && text.getLast? != some ' ' && !hasSpaceBeforeEnd text

/-- The marks of the block of a text. -/
def blockHints (text : List Char) : List Char :=
  let indent := if text.head? == some ' ' || text.head? == some '\n' then ['2'] else []
  let chomping :=
    match text.reverse with
    | '\n' :: '\n' :: _ => ['+']
    | ['\n'] => ['+']
    | '\n' :: _ => []
    | _ => ['-']
  indent ++ chomping

/-- The lines of a block at a column, each after a line end. -/
def blockBody (column : Nat) (text : List Char) : List Char :=
  (Text.lines text).flatMap fun line =>
    if line.isEmpty then ['\n'] else '\n' :: List.replicate column ' ' ++ line

/-- A text inside a block at a column, as a key or not. -/
def scalarText (isKey : Bool) (column : Nat) (text : String) : List Char :=
  let chars := text.toList
  if chars.contains '\n' then
    if isKey || !isBlockText chars then doubleQuoted chars
    else '|' :: blockHints chars ++ blockBody column chars
  else if !isAmbiguous text && isPlainText chars then chars
  else if chars.all isShown then singleQuoted chars
  else doubleQuoted chars

/-- A line end and the blanks up to a column. -/
def lineTo (column : Nat) : List Char :=
  '\n' :: List.replicate column ' '

namespace Value

/-- A value that is neither a list nor a map. -/
def plainText (isKey : Bool) (column : Nat) : Value → List Char
  | nothing => "null".toList
  | truth true => "true".toList
  | truth false => "false".toList
  | number canonical => canonical.toList
  | text written => scalarText isKey column written
  | list _ => "[]".toList
  | map _ => ['\x7b', '\x7d']

mutual

/-- A value that starts a line at a column or follows the mark of an item there. -/
def blockText (column : Nat) : Value → List Char
  | list (item :: rest) => itemsText column (item :: rest)
  | map (entry :: rest) => entriesText column (entry :: rest)
  | value => plainText false column value

/-- The items of a list at a column, the first one without the start of its line. -/
def itemsText (column : Nat) : List Value → List Char
  | [] => []
  | item :: rest =>
      '-' :: ' ' :: blockText (column + 2) item ++
        if rest.isEmpty then [] else lineTo column ++ itemsText column rest

/-- The entries of a map at a column, the first one without the start of its line. -/
def entriesText (column : Nat) : List (Value × Value) → List Char
  | [] => []
  | (key, value) :: rest =>
      plainText true column key ++ ':' :: entryText column value ++
        if rest.isEmpty then [] else lineTo column ++ entriesText column rest

/-- The value of an entry of a map at a column, with what parts it from the colon. -/
def entryText (column : Nat) : Value → List Char
  | list (item :: rest) => lineTo column ++ itemsText column (item :: rest)
  | map (entry :: rest) => lineTo (column + 2) ++ entriesText (column + 2) (entry :: rest)
  | value => ' ' :: plainText false (column + 2) value

end

/-- The text of a value, without white space at its ends. -/
def print (value : Value) : String :=
  String.ofList (Text.trim (blockText 0 value))

end Value

end ArchSurvey.Yaml
