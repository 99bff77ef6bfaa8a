/-!
# Trimming, splitting and searching text

White space in the sense of Unicode's property of that name, and the trimming of text by it; lines,
separators and occurrences, each as a function on the list of characters.
-/

namespace ArchSurvey.Text

/-! ## Blank characters -/

/-- A character with the property White_Space. -/
def isBlank (c : Char) : Bool :=
  let n := c.toNat
  (9 ≤ n && n ≤ 13) || n == 32 || n == 0x85 || n == 0xA0 || n == 0x1680 ||
    (0x2000 ≤ n && n ≤ 0x200A) || n == 0x2028 || n == 0x2029 || n == 0x202F ||
    n == 0x205F || n == 0x3000

theorem isBlank_of_isWhitespace (c : Char) (white : c.isWhitespace = true) : isBlank c = true := by
  simp only [Char.isWhitespace, Bool.or_eq_true, decide_eq_true_eq] at white
  rcases white with ((rfl | rfl) | rfl) | rfl <;> decide

/-- Drops from the end the characters that satisfy `p`. -/
def dropEndWhile (p : Char → Bool) (text : List Char) : List Char :=
  (text.reverse.dropWhile p).reverse

/-- Drops from both ends the characters that satisfy `p`. -/
def trimWhile (p : Char → Bool) (text : List Char) : List Char :=
  dropEndWhile p (text.dropWhile p)

/-- The text without the white space at its start. -/
def trimStart (text : List Char) : List Char :=
  text.dropWhile isBlank

/-- The text without the white space at its end. -/
def trimEnd (text : List Char) : List Char :=
  dropEndWhile isBlank text

/-- The text without the white space at its ends. -/
def trim (text : List Char) : List Char :=
  trimWhile isBlank text

/-- Whether the text has nothing but white space. -/
def isAllBlank (text : List Char) : Bool :=
  text.all isBlank

/-- The maximal runs of characters that are not blank, in order; `word` holds the letters of the
run being read, last first. -/
def wordsFrom (word : List Char) : List Char → List (List Char)
  | [] => if word.isEmpty then [] else [word.reverse]
  | c :: rest =>
      if isBlank c then
        if word.isEmpty then wordsFrom [] rest else word.reverse :: wordsFrom [] rest
      else wordsFrom (c :: word) rest

/-- The maximal runs of characters that are not blank, in order. -/
def words (text : List Char) : List (List Char) :=
  wordsFrom [] text

/-! ## Pieces and occurrences -/

/-- The pieces between the characters that satisfy `p`, empty pieces included; `piece` holds the
piece being read, last character first. -/
def splitFrom (p : Char → Bool) (piece : List Char) : List Char → List (List Char)
  | [] => [piece.reverse]
  | c :: rest =>
      if p c then piece.reverse :: splitFrom p [] rest else splitFrom p (c :: piece) rest

/-- The pieces between the characters that satisfy `p`, empty pieces included. -/
def splitWhen (p : Char → Bool) (text : List Char) : List (List Char) :=
  splitFrom p [] text

/-- The pieces between the occurrences of a character. -/
def splitOn (separator : Char) (text : List Char) : List (List Char) :=
  splitWhen (· == separator) text

theorem splitFrom_ne_nil (p : Char → Bool) (piece text : List Char) :
    splitFrom p piece text ≠ [] := by
  induction text generalizing piece with
  | nil => simp [splitFrom]
  | cons c rest ih => by_cases hit : p c = true <;> simp [splitFrom, hit, ih]

/-- A line without the carriage return that stands before its line feed. -/
def dropReturn (line : List Char) : List Char :=
  match line.reverse with
  | '\r' :: rest => rest.reverse
  | _ => line

/-- The lines of a text: each ends with a line feed, which may follow a carriage return, and text
after the last line feed is a line of its own. -/
def lines (text : List Char) : List (List Char) :=
  let pieces := splitOn '\n' text
  let ended := (pieces.dropLast).map dropReturn
  match pieces.getLast? with
  | none => ended
  | some [] => ended
  | some last => ended ++ [last]

/-- The rest of a text that starts with `start`. -/
def dropPrefix? (start text : List Char) : Option (List Char) :=
  match start, text with
  | [], rest => some rest
  | _ :: _, [] => none
  | a :: start, b :: text => if a == b then dropPrefix? start text else none

/-- Whether a text starts with another. -/
def startsWith (start text : List Char) : Bool :=
  (dropPrefix? start text).isSome

/-- Whether a text ends with another. -/
def endsWith (ending text : List Char) : Bool :=
  startsWith ending.reverse text.reverse

/-- The rest of a text before the `ending` it ends with. -/
def dropSuffix? (ending text : List Char) : Option (List Char) :=
  (dropPrefix? ending.reverse text.reverse).map List.reverse

/-- What stands before and after the first occurrence of a text in another; `before` holds the
characters already passed, last first. -/
def cutFrom (needle before : List Char) : List Char → Option (List Char × List Char)
  | [] => if needle.isEmpty then some (before.reverse, []) else none
  | c :: rest =>
      match dropPrefix? needle (c :: rest) with
      | some after => some (before.reverse, after)
      | none => cutFrom needle (c :: before) rest

/-- What stands before and after the first occurrence of `needle`. -/
def cut (needle text : List Char) : Option (List Char × List Char) :=
  cutFrom needle [] text

/-- What stands before and after the last occurrence of `needle`. -/
def cutLast (needle text : List Char) : Option (List Char × List Char) :=
  (cut needle.reverse text.reverse).map fun (after, before) => (before.reverse, after.reverse)

/-- Whether `needle` occurs in the text. -/
def occursIn (needle text : List Char) : Bool :=
  (cut needle text).isSome

/-- The text before the first occurrence of `needle`, or all of it. -/
def beforeFirst (needle text : List Char) : List Char :=
  match cut needle text with
  | some (before, _) => before
  | none => text

/-- What follows the last occurrence of a character, or all of the text. -/
def afterLast (separator : Char) (text : List Char) : List Char :=
  (text.reverse.takeWhile (· != separator)).reverse

/-- What stands before and after the last blank character. -/
def cutLastBlank (text : List Char) : Option (List Char × List Char) :=
  let last := (text.reverse.takeWhile fun c => !isBlank c)
  match text.reverse.drop last.length with
  | [] => none
  | _ :: before => some (before.reverse, last.reverse)

/-- What stands before and after the first occurrence of a character. -/
def cutAt (separator : Char) (text : List Char) : Option (List Char × List Char) :=
  match text.dropWhile (· != separator) with
  | [] => none
  | _ :: after => some (text.takeWhile (· != separator), after)

/-- The pieces with a separator between each two. -/
def joinWith (separator : List Char) (pieces : List (List Char)) : List Char :=
  List.intercalate separator pieces

end ArchSurvey.Text
