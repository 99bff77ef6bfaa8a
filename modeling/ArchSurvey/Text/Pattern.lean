import ArchSurvey.Text.LetterCase
import ArchSurvey.Text.Split

/-!
# Patterns

Patterns over text with numbered groups.  A match is the first in the order of preference: of two
alternatives the left one, of a greedy repetition the longest and of a lazy one the shortest.  The
matcher is structural on the pattern and passes each way to match on to a continuation, so a later
part can refuse it; a repetition stops where a round would read nothing.
-/

namespace ArchSurvey.Text

/-- A pattern over text. -/
inductive Pattern where
  /-- Matches without reading. -/
  | empty
  /-- Reads one character that satisfies the test. -/
  | char (test : Char → Bool)
  /-- One pattern after another. -/
  | seq (first second : Pattern)
  /-- Either pattern, the left one preferred. -/
  | alt (left right : Pattern)
  /-- Any number of rounds of a pattern, more of them preferred if greedy. -/
  | star (greedy : Bool) (body : Pattern)
  /-- A pattern whose text is kept under a number. -/
  | group (number : Nat) (body : Pattern)
  /-- The start of the text. -/
  | textStart
  /-- The end of the text. -/
  | textEnd
  /-- The start of the text or of a line of it. -/
  | lineStart
  /-- A place with a word character on exactly one side. -/
  | wordEdge

namespace Pattern

/-- A place in the text: the character before it, the text after it, how many characters were read
since the match began, and the groups read so far, latest first, each as the text from its start
and its length. -/
structure Place where
  before : Option Char
  rest : List Char
  read : Nat
  groups : List (Nat × List Char × Nat)

/-- Whether a neighbour is a word character. -/
def besideWord : Option Char → Bool
  | none => false
  | some c => isWordChar c

/-- The rounds of a repetition from a place, at most `fuel` of them; `body` matches one round. -/
def rounds {α : Type} (body : Place → (Place → Option α) → Option α) (greedy : Bool) :
    Nat → Place → (Place → Option α) → Option α
  | 0, place, next => next place
  | fuel + 1, place, next =>
      let more (_ : Unit) := body place fun after =>
        if after.read == place.read then none else rounds body greedy fuel after next
      if greedy then
        match more () with
        | some found => some found
        | none => next place
      else
        match next place with
        | some found => some found
        | none => more ()

/-- Matches a pattern at a place and passes each way to do so on to `next` until it accepts. -/
def run {α : Type} : Pattern → Place → (Place → Option α) → Option α
  | empty, place, next => next place
  | char test, place, next =>
      match place.rest with
      | [] => none
      | c :: rest =>
          if test c then next ⟨some c, rest, place.read + 1, place.groups⟩ else none
  | seq first second, place, next => run first place fun after => run second after next
  | alt left right, place, next =>
      match run left place next with
      | some found => some found
      | none => run right place next
  | star greedy body, place, next => rounds (run body) greedy place.rest.length place next
  | group number body, place, next =>
      run body place fun after =>
        next { after with groups := (number, place.rest, after.read - place.read) :: after.groups }
  | textStart, place, next => if place.before.isNone then next place else none
  | textEnd, place, next => if place.rest.isEmpty then next place else none
  | lineStart, place, next =>
      if place.before.isNone || place.before == some '\n' then next place else none
  | wordEdge, place, next =>
      if besideWord place.before != besideWord place.rest.head? then next place else none

/-- An occurrence of a pattern: the text before, in and after it, and its groups. -/
structure Match where
  before : List Char
  text : List Char
  after : List Char
  groups : List (Nat × List Char)

/-- The text of a group that took part in the match. -/
def Match.group? (found : Match) (number : Nat) : Option (List Char) :=
  found.groups.lookup number

/-- The text of a group, empty if it took no part. -/
def Match.group (found : Match) (number : Nat) : List Char :=
  (found.group? number).getD []

/-- The text of a group as a string, empty if it took no part. -/
def Match.groupString (found : Match) (number : Nat) : String :=
  String.ofList (found.group number)

/-- The match that ends at a place, for a match that started at the text `start` with the
characters `passed` before it, last first. -/
def Match.ending (passed start : List Char) (place : Place) : Match :=
  { before := passed.reverse
    text := start.take place.read
    after := place.rest
    groups := place.groups.map fun (number, from_, length) => (number, from_.take length) }

/-- The first match that starts at or after the text; `previous` is the character before the text
and `passed` holds the characters skipped so far, last first. -/
def searchFrom (pattern : Pattern) (previous : Option Char) (passed : List Char) :
    List Char → Option Match
  | [] => (pattern.run ⟨previous, [], 0, []⟩ some).map (Match.ending passed [])
  | c :: rest =>
      match pattern.run ⟨previous, c :: rest, 0, []⟩ some with
      | some place => some (Match.ending passed (c :: rest) place)
      | none => searchFrom pattern (some c) (c :: passed) rest

/-- The first match in a text. -/
def search (pattern : Pattern) (text : List Char) : Option Match :=
  searchFrom pattern none [] text

/-- Whether a text has a match. -/
def occurs (pattern : Pattern) (text : List Char) : Bool :=
  (pattern.search text).isSome

/-- The character before what follows a match. -/
def Match.lastRead (previous : Option Char) (found : Match) : Option Char :=
  match found.text.getLast? with
  | some c => some c
  | none => match found.before.getLast? with
    | some c => some c
    | none => previous

/-- At most `fuel` matches one after another, none of them empty. -/
def searchAllFrom (pattern : Pattern) : Nat → Option Char → List Char → List Match
  | 0, _, _ => []
  | fuel + 1, previous, text =>
      match searchFrom pattern previous [] text with
      | none => []
      | some found =>
          if found.text.isEmpty then []
          else found :: searchAllFrom pattern fuel (found.lastRead previous) found.after

/-- All matches in a text, each starting after the one before it; for patterns that read at least
one character. -/
def searchAll (pattern : Pattern) (text : List Char) : List Match :=
  searchAllFrom pattern text.length none text

/-- The text with every match replaced by what `image` makes of it. -/
def replaceAll (pattern : Pattern) (image : Match → List Char) (text : List Char) : List Char :=
  let found := pattern.searchAll text
  let tail := match found.getLast? with
    | none => text
    | some last => last.after
  (found.flatMap fun hit => hit.before ++ image hit) ++ tail

/-- The text with every match taken out. -/
def removeAll (pattern : Pattern) (text : List Char) : List Char :=
  pattern.replaceAll (fun _ => []) text

/-- Patterns one after another. -/
def concat : List Pattern → Pattern
  | [] => empty
  | [only] => only
  | first :: rest => seq first (concat rest)

/-- The first of several patterns that matches. -/
def oneOf : List Pattern → Pattern
  | [] => char fun _ => false
  | [only] => only
  | first :: rest => alt first (oneOf rest)

/-- Exactly the given character. -/
def is (c : Char) : Pattern :=
  char (· == c)

/-- Exactly the given text. -/
def literal (text : String) : Pattern :=
  concat (text.toList.map is)

/-- Whether a character is the given lower-case letter or another form of it without regard to
case; the long s and the kelvin sign are forms of `s` and `k`. -/
def sameLetter (letter c : Char) : Bool :=
  c == letter || c == letter.toUpper || (letter == 's' && c == 'ſ') ||
    (letter == 'k' && c == '\u212A')

/-- The given lower-case word in any letter case. -/
def word (text : String) : Pattern :=
  concat (text.toList.map fun letter => char (sameLetter letter))

/-- One character of the text, or none. -/
def anyOf (characters : String) : Pattern :=
  char characters.toList.contains

/-- One character that the text does not have. -/
def noneOf (characters : String) : Pattern :=
  char fun c => !characters.toList.contains c

/-- Any number of rounds, as many as possible. -/
def many (body : Pattern) : Pattern :=
  star true body

/-- Any number of rounds, as few as possible. -/
def fewest (body : Pattern) : Pattern :=
  star false body

/-- At least one round, as many as possible. -/
def some1 (body : Pattern) : Pattern :=
  seq body (star true body)

/-- At least one round, as few as possible. -/
def fewest1 (body : Pattern) : Pattern :=
  seq body (star false body)

/-- The pattern or nothing, the pattern preferred. -/
def opt (body : Pattern) : Pattern :=
  alt body empty

/-- One blank character. -/
def blank : Pattern :=
  char isBlank

/-- Any number of blank characters. -/
def blanks : Pattern :=
  many blank

/-- At least one blank character. -/
def blanks1 : Pattern :=
  some1 blank

/-- One word character. -/
def wordChar : Pattern :=
  char isWordChar

/-- Any character. -/
def any : Pattern :=
  char fun _ => true

/-- Any character but a line feed. -/
def anyInLine : Pattern :=
  char (· != '\n')

end Pattern

end ArchSurvey.Text
