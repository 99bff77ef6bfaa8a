import ArchSurvey.Text.Split

/-!
# Nesting in scripts

Which characters of a script stand inside parentheses and single quotes, where it can be split, and
what remains of it without comments.
-/

namespace ArchSurvey.Schema

open Text

/-- How deep in parentheses a place is, and whether it is inside single quotes. -/
structure Nesting where
  depth : Int := 0
  quoted : Bool := false
  deriving DecidableEq, Repr

namespace Nesting

/-- The nesting after one more character. -/
def step (nesting : Nesting) (c : Char) : Nesting :=
  if c == '\'' then { nesting with quoted := !nesting.quoted }
  else if nesting.quoted then nesting
  else if c == '(' then { nesting with depth := nesting.depth + 1 }
  else if c == ')' then { nesting with depth := nesting.depth - 1 }
  else nesting

/-- Whether a place is outside all parentheses and quotes. -/
def isOutside (nesting : Nesting) : Bool :=
  nesting.depth == 0 && !nesting.quoted

end Nesting

/-- The pieces between the separators that stand outside; `piece` holds the piece being read, last
character first. -/
def piecesFrom (separator : Char) (nesting : Nesting) (piece : List Char) :
    List Char → List (List Char)
  | [] => [piece.reverse]
  | c :: rest =>
      if c == separator && nesting.isOutside then
        piece.reverse :: piecesFrom separator nesting [] rest
      else piecesFrom separator (nesting.step c) (c :: piece) rest

/-- The pieces between the separators that stand outside parentheses and quotes, without the blank
ones. -/
def splitOutside (separator : Char) (text : List Char) : List (List Char) :=
  (piecesFrom separator {} [] text).filter fun piece => !isAllBlank piece

/-- The text before the parenthesis that closes the one just before it. -/
def untilClose (nesting : Nesting) : List Char → Option (List Char)
  | [] => none
  | c :: rest =>
      let after := nesting.step c
      if after.depth == 0 && !after.quoted && c == ')' then some []
      else (untilClose after rest).map (c :: ·)

/-- The text inside the parentheses whose opening one stands just before it. -/
def insideParentheses (text : List Char) : Option (List Char) :=
  untilClose { depth := 1 } text

/-- What follows the end of a block comment, if it ends. -/
def afterBlock? : List Char → Option (List Char)
  | '*' :: '/' :: rest => some rest
  | _ :: rest => afterBlock? rest
  | [] => none

theorem length_lt_of_afterBlock? {text rest : List Char} (ended : afterBlock? text = some rest) :
    rest.length < text.length := by
  fun_induction afterBlock? text with
  | case1 rest' =>
      simp only [Option.some.injEq] at ended
      subst ended
      simp only [List.length_cons]
      omega
  | case2 c tail _ ih =>
      have shorter := ih ended
      simp only [List.length_cons]
      omega
  | case3 => simp at ended

/-- The text with a blank in the place of each block comment. -/
def withoutBlocks (text : List Char) : List Char :=
  match text with
  | [] => []
  | '/' :: '*' :: rest =>
      match _ended : afterBlock? rest with
      | some after => ' ' :: withoutBlocks after
      | none => '/' :: withoutBlocks ('*' :: rest)
  | c :: rest => c :: withoutBlocks rest
termination_by text.length
decreasing_by
  · have shorter := length_lt_of_afterBlock? _ended
    simp only [List.length_cons]
    omega
  · simp only [List.length_cons]
    omega
  · simp only [List.length_cons]
    omega

/-- The text without line comments; `inComment` says whether it starts inside one. -/
def withoutLines (inComment : Bool) : List Char → List Char
  | [] => []
  | '-' :: '-' :: rest => withoutLines true rest
  | c :: rest =>
      if inComment then
        if c == '\n' then c :: withoutLines false rest else withoutLines true rest
      else c :: withoutLines false rest

/-- The text of a script without comments: block comments are taken out before line comments. -/
def withoutComments (text : List Char) : List Char :=
  withoutLines false (withoutBlocks text)

end ArchSurvey.Schema
