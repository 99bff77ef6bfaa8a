import ArchSurvey.Grammar.Tree
import ArchSurvey.Text.LetterCase
import ArchSurvey.Text.Split

/-!
# Lexis

What the words of a language look like and what may stand between them.  A scan says how many
characters at the start of a text make a word of its sort.
-/

namespace ArchSurvey.Grammar

open Text

/-- A way to read a word: the number of characters at the start of a text that make one. -/
abbrev Scan := List Char → Option Nat

namespace Scan

/-- As many characters of a class as there are, and at least one. -/
def run (p : Char → Bool) : Scan := fun text =>
  let count := (text.takeWhile p).length
  if count == 0 then none else some count

/-- The given characters. -/
def exactly (word : List Char) : Scan := fun text =>
  if startsWith word text then some word.length else none

/-- A scan and then another. -/
def andThen (first second : Scan) : Scan := fun text => do
  let count ← first text
  let more ← second (text.drop count)
  some (count + more)

/-- A scan or else another. -/
def orElse (first second : Scan) : Scan := fun text =>
  match first text with
  | some count => some count
  | none => second text

/-- A scan of nothing at all, or of something if there is something. -/
def optional (scan : Scan) : Scan := fun text =>
  some ((scan text).getD 0)

/-- The characters up to and including a closing quote; a backslash makes the next character an
ordinary one. -/
def untilQuote (quote : Char) (isPlain : Char → Bool) (count : Nat) : List Char → Option Nat
  | [] => none
  | [c] => if c == quote then some (count + 1) else none
  | c :: d :: rest =>
      if c == quote then some (count + 1)
      else if c == '\\' then untilQuote quote isPlain (count + 2) rest
      else if isPlain c then untilQuote quote isPlain (count + 1) (d :: rest)
      else none

/-- A string on one line between two quotes. -/
def quoted (quote : Char) : Scan
  | [] => none
  | c :: rest =>
      if c == quote then untilQuote quote (fun c => c != '\n' && c != '\x00') 1 rest else none

/-- A string between two quotes that may go over several lines and knows no escapes. -/
def raw (quote : Char) : Scan
  | [] => none
  | c :: rest =>
      let inside := rest.takeWhile (fun c => c != quote && c != '\x00')
      if c == quote && startsWith [quote] (rest.drop inside.length) then
        some (inside.length + 2)
      else none

/-- The characters up to and including an ending; a backslash makes the next character an
ordinary one if `escapes`. -/
def untilText (ending : List Char) (escapes : Bool) (count : Nat) : List Char → Option Nat
  | [] => none
  | c :: rest =>
      if startsWith ending (c :: rest) then some (count + ending.length)
      else if c == '\x00' then none
      else
        match rest with
        | [] => none
        | d :: others =>
            if c == '\\' && escapes then untilText ending escapes (count + 2) others
            else untilText ending escapes (count + 1) (d :: others)

/-- What stands between an opening and an ending, both included. -/
def between (opening ending : List Char) (escapes : Bool) : Scan := fun text => do
  let rest ← dropPrefix? opening text
  untilText ending escapes opening.length rest

/-- A mark and the rest of its line. -/
def toLineEnd (mark : List Char) : Scan := fun text =>
  if startsWith mark text then
    some (text.takeWhile (fun c => c != '\n' && c != '\x00')).length
  else none

/-- The characters of a number after its first; `exponents` are the letters after which a sign
belongs to it. -/
def numberFrom (exponents : List Char) (count : Nat) : List Char → Nat
  | [] => count
  | [c] => if isAsciiAlphanumeric c || c == '_' || c == '.' then count + 1 else count
  | c :: d :: rest =>
      if exponents.contains c && (d == '+' || d == '-') then numberFrom exponents (count + 2) rest
      else if isAsciiAlphanumeric c || c == '_' || c == '.' then
        numberFrom exponents (count + 1) (d :: rest)
      else count

/-- A number in any base, with or without a fraction, an exponent and a suffix. -/
def number : Scan
  | [] => none
  | c :: rest =>
      let second := rest.headD ' '
      if c == '0' && (second == 'x' || second == 'X') then
        some (numberFrom ['p', 'P'] 1 rest)
      else if isAsciiDigit c || (c == '.' && isAsciiDigit second) then
        some (numberFrom ['e', 'E'] 1 rest)
      else none

/-- A word whose first character and others are of the given classes, unless it is reserved. -/
def word (isFirst isOther : Char → Bool) (reserved : List (List Char)) : Scan
  | [] => none
  | c :: rest =>
      if isFirst c then
        let others := rest.takeWhile isOther
        if reserved.contains (c :: others) then none else some (others.length + 1)
      else none

end Scan

/-- The white space of ASCII, line ends apart. -/
def isAsciiSpace (c : Char) : Bool :=
  c != '\n' && (('\t' ≤ c && c ≤ '\r') || c == ' ')

/-- The lexis of a language. -/
structure Lexis where
  /-- The blanks of a line. -/
  blank : Scan
  /-- What is a comment. -/
  comment : Scan
  /-- The signs of more than one character. -/
  signs : List (List Char)
  /-- What a word can be made of. -/
  isWordChar : Char → Bool
  /-- Whether a line end outside of brackets is more than a blank. -/
  endsLines : Bool

namespace Lexis

/-- Whether a text starts with a word or sign that does not go on. -/
def startsWith (lexis : Lexis) (word text : List Char) : Bool :=
  match dropPrefix? word text with
  | none => false
  | some rest =>
      match word.getLast? with
      | none => true
      | some last =>
          if lexis.isWordChar last then !(rest.head?.any lexis.isWordChar)
          else !(lexis.signs.any fun sign =>
            decide (word.length < sign.length) && Text.startsWith sign text)

/-- The comments at the start of a text, and the place after them and after the blanks.  A comment
or blank of which `left` characters are still to come has `begun` at a place, if it is a
comment. -/
def skipFrom (lexis : Lexis) (acrossLines : Bool) (begun : Option Spot) (left : Nat)
    (found : List Tree) (spot : Spot) : List Char → List Tree × Spot
  | [] => (found.reverse, spot)
  | c :: rest =>
      let next := spot.after c rest
      match left with
      | more + 2 => lexis.skipFrom acrossLines begun (more + 1) found next rest
      | 1 =>
          match begun with
          | some start =>
              lexis.skipFrom acrossLines none 0 (.node .comment start next [] :: found) next rest
          | none => lexis.skipFrom acrossLines none 0 found next rest
      | 0 =>
          if c == '\n' then
            if acrossLines then lexis.skipFrom acrossLines none 0 found next rest
            else (found.reverse, spot)
          else
            match lexis.blank (c :: rest) with
            | some count => lexis.skipFrom acrossLines none (count - 1) found next rest
            | none =>
                match lexis.comment (c :: rest) with
                | some (count + 2) =>
                    lexis.skipFrom acrossLines (some spot) (count + 1) found next rest
                | some _ =>
                    lexis.skipFrom acrossLines none 0 (.node .comment spot next [] :: found)
                      next rest
                | none => (found.reverse, spot)

/-- The comments at a place, and the place after them and after the blanks. -/
def skip (lexis : Lexis) (acrossLines : Bool) (spot : Spot) : List Tree × Spot :=
  lexis.skipFrom acrossLines none 0 [] spot spot.rest

end Lexis

end ArchSurvey.Grammar
