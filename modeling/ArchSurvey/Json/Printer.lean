import ArchSurvey.Decimal.Binary64
import ArchSurvey.Digest.Sha256
import ArchSurvey.Json.Basic

/-!
# Text of JSON values

Two layouts: one without any white space, and one with a line for each member and item.
-/

namespace ArchSurvey.Json

/-- A character inside a quoted string. -/
def escapeChar (c : Char) : List Char :=
  match c with
  | '"' => ['\\', '"']
  | '\\' => ['\\', '\\']
  | '\x08' => ['\\', 'b']
  | '\x0c' => ['\\', 'f']
  | '\n' => ['\\', 'n']
  | '\r' => ['\\', 'r']
  | '\t' => ['\\', 't']
  | c =>
      if c.toNat < 32 then '\\' :: 'u' :: Digest.Sha256.hexDigits 4 c.toNat else [c]

/-- A quoted string. -/
def quote (text : String) : List Char :=
  '"' :: text.toList.flatMap escapeChar ++ ['"']

mutual

/-- The value without white space. -/
def compactText : Json → List Char
  | null => "null".toList
  | bool true => "true".toList
  | bool false => "false".toList
  | nat value => Decimal.natText value
  | negative magnitude => '-' :: Decimal.natText magnitude
  | float value => value.shortestText
  | str value => quote value
  | arr items => '[' :: compactItems true items
  | obj members => '\x7b' :: compactMembers true members
  | unusable => "null".toList

/-- The items of an array up to its closing bracket. -/
def compactItems (first : Bool) : List Json → List Char
  | [] => [']']
  | item :: rest =>
      (if first then [] else [',']) ++ compactText item ++ compactItems false rest

/-- The members of an object up to its closing brace. -/
def compactMembers (first : Bool) : List (String × Json) → List Char
  | [] => ['\x7d']
  | (name, value) :: rest =>
      (if first then [] else [',']) ++ quote name ++ ':' :: compactText value ++
        compactMembers false rest

end

/-- A line feed and the indentation of a nesting depth. -/
def newline (depth : Nat) : List Char :=
  '\n' :: List.replicate (2 * depth) ' '

mutual

/-- The value with each member and item on a line of its own. -/
def prettyText (depth : Nat) : Json → List Char
  | arr [] => "[]".toList
  | arr items => '[' :: prettyItems (depth + 1) true items ++ newline depth ++ [']']
  | obj [] => ['\x7b', '\x7d']
  | obj members => '\x7b' :: prettyMembers (depth + 1) true members ++ newline depth ++ ['\x7d']
  | null => compactText null
  | bool value => compactText (bool value)
  | nat value => compactText (nat value)
  | negative magnitude => compactText (negative magnitude)
  | float value => compactText (float value)
  | str value => compactText (str value)
  | unusable => compactText unusable

/-- The items of an array, each on a line of its own. -/
def prettyItems (depth : Nat) (first : Bool) : List Json → List Char
  | [] => []
  | item :: rest =>
      (if first then [] else [',']) ++ newline depth ++ prettyText depth item ++
        prettyItems depth false rest

/-- The members of an object, each on a line of its own. -/
def prettyMembers (depth : Nat) (first : Bool) : List (String × Json) → List Char
  | [] => []
  | (name, value) :: rest =>
      (if first then [] else [',']) ++ newline depth ++ quote name ++ ':' :: ' ' ::
        prettyText depth value ++ prettyMembers depth false rest

end

/-- The value without white space. -/
def compact (value : Json) : String :=
  String.ofList value.compactText

/-- The value with each member and item on a line of its own. -/
def pretty (value : Json) : String :=
  String.ofList (value.prettyText 0)

end ArchSurvey.Json
