import ArchSurvey.Json.Reader
import ArchSurvey.Text.Split

/-!
# Reading YAML scalars

Plain, quoted and block scalars, and the places in a text where they start and end.
-/

namespace ArchSurvey.Yaml

/-!
## Places in a YAML text

A place is the rest of the text with its line and column, which decide what a YAML text means.
-/

/-- A place in a text. -/
structure Place where
  line : Nat
  column : Nat
  rest : List Char

/-- A blank or a tab. -/
def isSpace (c : Char) : Bool :=
  c == ' ' || c == '\t'

/-- Whether a text starts with a blank, a tab or a line end, or is empty. -/
def startsBlank : List Char → Bool
  | [] => true
  | c :: _ => isSpace c || c == '\n'

namespace Place

/-- The place after one character. -/
def next (place : Place) : Place :=
  match place.rest with
  | [] => place
  | c :: rest =>
      if c == '\n' then ⟨place.line + 1, 0, rest⟩ else ⟨place.line, place.column + 1, rest⟩

/-- The place after some characters of the same line. -/
def skip (place : Place) (count : Nat) : Place :=
  ⟨place.line, place.column + count, place.rest.drop count⟩

/-- Whether a character that a blank follows stands here. -/
def hasMark (place : Place) (mark : Char) : Bool :=
  match place.rest with
  | [] => false
  | c :: rest => c == mark && startsBlank rest

/-- Whether three characters that a blank follows start the line here. -/
def hasMarker (place : Place) (marker : List Char) : Bool :=
  place.column == 0 &&
    match Text.dropPrefix? marker place.rest with
    | some rest => startsBlank rest
    | none => false

/-- Whether a document starts or ends here. -/
def atMarker (place : Place) : Bool :=
  place.hasMarker ['-', '-', '-'] || place.hasMarker ['.', '.', '.']

/-- Whether nothing more of the document follows. -/
def atEnd (place : Place) : Bool :=
  place.rest.isEmpty || place.atMarker

/-- The first content at or after a place, comments and line ends skipped.  Tabs count as blanks
up to the line end if `tabs` and after it if `inFlow`. -/
def contentFrom (inFlow tabs comment : Bool) (line column : Nat) : List Char → Place
  | [] => ⟨line, column, []⟩
  | c :: rest =>
      if c == '\n' then contentFrom inFlow inFlow false (line + 1) 0 rest
      else if comment || c == '#' then contentFrom inFlow tabs true line (column + 1) rest
      else if c == ' ' || (tabs && c == '\t') then
        contentFrom inFlow tabs false line (column + 1) rest
      else ⟨line, column, c :: rest⟩

/-- The first content at or after a place between flow brackets. -/
def flowContent (place : Place) : Place :=
  contentFrom true true false place.line place.column place.rest

/-- The first content at or after a place between blocks; a tab may part it from what stands
before it on its line if `tabs`. -/
def content (place : Place) (tabs : Bool) : Place :=
  contentFrom false tabs false place.line place.column place.rest

/-- What the white space at a place stands for inside a scalar, and the place after it: one line
end stands for a blank and each further one for itself, and without any the white space is kept.
None if a tab of a later line stands before the column `least`. -/
def gapFrom (least ends : Nat) (isFolded : Bool) (spaces : List Char) (line column : Nat) :
    List Char → Option (List Char × Place)
  | [] => some (gapText ends isFolded spaces, ⟨line, column, []⟩)
  | c :: rest =>
      if c == '\n' then gapFrom least (ends + 1) true [] (line + 1) 0 rest
      else if isSpace c then
        if isFolded then
          if c == '\t' && column < least then none
          else gapFrom least ends isFolded [] line (column + 1) rest
        else gapFrom least ends isFolded (c :: spaces) line (column + 1) rest
      else some (gapText ends isFolded spaces, ⟨line, column, c :: rest⟩)
where
  gapText (ends : Nat) (isFolded : Bool) (spaces : List Char) : List Char :=
    if !isFolded then spaces.reverse
    else if ends == 1 then [' ']
    else List.replicate (ends - 1) '\n'

/-- What the white space at a place stands for inside a scalar, and the place after it. -/
def gap (place : Place) (least : Nat) : Option (List Char × Place) :=
  gapFrom least 0 false [] place.line place.column place.rest

end Place

/-!
## Scalars

Plain, quoted and block scalars.  Each reader returns the text of a scalar and the place after it.
-/

/-- What a reader makes of a place: a value and the place after it. -/
abbrev Step (α : Type) := Option (α × Place)

/-! ## Plain scalars -/

/-- The characters that part the items of a flow collection. -/
def flowMarks : List Char :=
  [',', '[', ']', '\x7b', '\x7d']

/-- The characters that a plain scalar does not start with. -/
def indicators : List Char :=
  ['-', '?', ':', ',', '[', ']', '\x7b', '\x7d', '#', '&', '*', '!', '|', '>', '\'', '"', '%', '@',
    '\x60']

/-- Whether a plain scalar starts here. -/
def startsPlain (inFlow : Bool) : List Char → Bool
  | [] => false
  | c :: rest =>
      if indicators.contains c then
        (c == '-' || (!inFlow && (c == '?' || c == ':'))) && !startsBlank rest
      else !startsBlank (c :: rest)

/-- Whether a mark that may not follow a colon between flow brackets starts the text. -/
def startsFlowMark : List Char → Bool
  | [] => false
  | c :: _ => c == '?' || flowMarks.contains c

/-- The characters of a plain scalar up to the next white space; none if a colon stands before a
mark of a flow collection. -/
def plainWord (inFlow : Bool) : List Char → Option (List Char)
  | [] => some []
  | c :: rest =>
      if startsBlank (c :: rest) then some []
      else if inFlow && c == ':' && startsFlowMark rest then none
      else if c == ':' && startsBlank rest then some []
      else if inFlow && flowMarks.contains c then some []
      else (plainWord inFlow rest).map (c :: ·)

/-- The words of a plain scalar from `place` on, lines joined.  `read` is the text up to `last`,
and `gap` is what parts it from the next word. -/
def plainFrom (inFlow : Bool) (least : Nat) :
    Nat → List Char → List Char → Place → Place → Step (List Char)
  | 0, _, _, _, _ => none
  | fuel + 1, read, gap, last, place =>
      if place.atMarker || place.rest.head? == some '#' then some (read, last)
      else
        match plainWord inFlow place.rest with
        | none => none
        | some [] => some (read, last)
        | some word =>
            let read := read ++ gap ++ word
            let last := place.skip word.length
            match last.gap least with
            | none => none
            | some ([], _) => some (read, last)
            | some (gap, next) =>
                if !inFlow && next.column < least then some (read, last)
                else plainFrom inFlow least fuel read gap last next

/-- A plain scalar, whose further lines stand at column `least` or after it. -/
def plainScalar (inFlow : Bool) (least : Nat) (place : Place) : Step (List Char) :=
  if startsPlain inFlow place.rest then
    plainFrom inFlow least (place.rest.length + 1) [] [] place place
  else none

/-! ## Quoted scalars -/

/-- The characters that a letter after a backslash stands for. -/
def escapes : List (Char × Char) :=
  [('0', '\x00'), ('a', '\x07'), ('b', '\x08'), ('t', '\t'), ('\t', '\t'), ('n', '\n'),
    ('v', '\x0b'), ('f', '\x0c'), ('r', '\r'), ('e', '\x1b'), (' ', ' '), ('"', '"'), ('/', '/'),
    ('\\', '\\'), ('N', '\u0085'), ('_', '\u00a0'), ('L', '\u2028'), ('P', '\u2029')]

/-- How many hexadecimal digits follow a letter after a backslash. -/
def escapeWidth : Char → Nat
  | 'x' => 2
  | 'u' => 4
  | 'U' => 8
  | _ => 0

/-- The number that hexadecimal digits stand for. -/
def hexNumber? (digits : List Char) : Option Nat :=
  digits.foldl
    (fun value c => do
      let value ← value
      let digit ← Json.hexValue? c
      some (value * 16 + digit))
    (some 0)

/-- The character that an escape stands for, and how many characters follow the backslash. -/
def escape? : List Char → Option (Char × Nat)
  | [] => none
  | c :: rest =>
      match escapes.lookup c with
      | some image => some (image, 1)
      | none =>
          let width := escapeWidth c
          let digits := rest.take width
          if width == 0 || digits.length < width then none
          else
            (hexNumber? digits).bind fun code =>
              if code.isValidChar then some (Char.ofNat code, width + 1) else none

/-- A quoted scalar up to its closing quote; `read` holds its characters so far, last first. -/
def quotedFrom (isDouble : Bool) : Nat → List Char → Place → Step (List Char)
  | 0, _, _ => none
  | fuel + 1, read, place =>
      if place.atMarker then none
      else
        match place.rest with
        | [] => none
        | c :: rest =>
            if isSpace c || c == '\n' then
              match place.gap 0 with
              | none => none
              | some (gap, next) => quotedFrom isDouble fuel (gap.reverse ++ read) next
            else if isDouble && c == '"' then some (read.reverse, place.next)
            else if isDouble && c == '\\' then
              match rest with
              | '\n' :: _ =>
                  match place.next.gap 0 with
                  | none => none
                  | some (gap, next) =>
                      let kept := if gap == [' '] then [] else gap
                      quotedFrom isDouble fuel (kept.reverse ++ read) next
              | _ =>
                  match escape? rest with
                  | none => none
                  | some (image, width) =>
                      quotedFrom isDouble fuel (image :: read) (place.skip (width + 1))
            else if !isDouble && c == '\'' then
              match rest with
              | '\'' :: _ => quotedFrom isDouble fuel ('\'' :: read) (place.skip 2)
              | _ => some (read.reverse, place.next)
            else quotedFrom isDouble fuel (c :: read) place.next

/-- A quoted scalar after its opening quote. -/
def quotedScalar (isDouble : Bool) (place : Place) : Step (List Char) :=
  quotedFrom isDouble (place.rest.length + 1) [] place

/-! ## Block scalars -/

/-- What becomes of the line ends after a block scalar. -/
inductive Chomping where
  | clip
  | strip
  | keep
  deriving DecidableEq, Repr

/-- The chomping that a mark asks for. -/
def Chomping.ofMark? : Char → Option Chomping
  | '+' => some .keep
  | '-' => some .strip
  | _ => none

/-- The indentation that a digit asks for. -/
def indentation? (c : Char) : Option Nat :=
  if '1' ≤ c && c ≤ '9' then some (c.toNat - 48) else none

/-- The marks after the sign of a block scalar, in either order, and how many there are. -/
def blockMarks : List Char → Chomping × Option Nat × Nat
  | a :: b :: _ =>
      match Chomping.ofMark? a, indentation? a, Chomping.ofMark? b, indentation? b with
      | some chomping, _, _, some indent => (chomping, some indent, 2)
      | some chomping, _, _, none => (chomping, none, 1)
      | none, some indent, some chomping, _ => (chomping, some indent, 2)
      | none, some indent, none, _ => (.clip, some indent, 1)
      | none, none, _, _ => (.clip, none, 0)
  | [a] =>
      match Chomping.ofMark? a, indentation? a with
      | some chomping, _ => (chomping, none, 1)
      | none, some indent => (.clip, some indent, 1)
      | none, none => (.clip, none, 0)
  | [] => (.clip, none, 0)

/-- The end of the line that a block scalar starts on, with nothing but a comment before it. -/
def lineEnd? (place : Place) : Option Place :=
  let spaces := place.rest.takeWhile isSpace
  let after := place.skip spaces.length
  match after.rest with
  | [] => some after
  | '\n' :: _ => some after.next
  | '#' :: _ => some (after.skip (after.rest.takeWhile (· != '\n')).length).next
  | _ => none

/-- The lines without content from a line start on, as far as column `indent`, where it is not
zero: the widest of them, their number and the place after their white space.  None if a tab stands
in place of a blank. -/
def blankLines (indent widest lines line column : Nat) : List Char → Option (Nat × Nat × Place)
  | [] => some (max widest column, lines, ⟨line, column, []⟩)
  | c :: rest =>
      let isInside := indent == 0 || column < indent
      if c == ' ' && isInside then blankLines indent widest lines line (column + 1) rest
      else if c == '\t' && isInside then none
      else if c == '\n' then blankLines indent (max widest column) (lines + 1) (line + 1) 0 rest
      else some (max widest column, lines, ⟨line, column, c :: rest⟩)

/-- The part of a block scalar that has been read. -/
structure BlockText where
  text : List Char := []
  /-- Whether a line end stands after the text. -/
  ended : Bool := false
  /-- The lines without content after that. -/
  blankLines : Nat := 0
  /-- Whether the last line starts with white space. -/
  wasIndented : Bool := false

/-- What joins the lines of a block scalar before a further one. -/
def BlockText.joint (block : BlockText) (isFolded isIndented : Bool) : List Char :=
  let single :=
    if !block.ended then []
    else if isFolded && !block.wasIndented && !isIndented then
      if block.blankLines == 0 then [' '] else []
    else ['\n']
  single ++ List.replicate block.blankLines '\n'

/-- The text with the line ends after it that are kept. -/
def BlockText.chomped (block : BlockText) (chomping : Chomping) : List Char :=
  let ending := if block.ended then ['\n'] else []
  match chomping with
  | .strip => block.text
  | .clip => block.text ++ ending
  | .keep => block.text ++ ending ++ List.replicate block.blankLines '\n'

/-- The lines of a block scalar at a column. -/
def blockLines (isFolded : Bool) (indent : Nat) : Nat → BlockText → Place → Step BlockText
  | 0, _, _ => none
  | fuel + 1, block, place =>
      if place.column != indent || place.rest.isEmpty then some (block, place)
      else
        let line := place.rest.takeWhile (· != '\n')
        let isIndented := !line.isEmpty && startsBlank line
        let text := block.text ++ block.joint isFolded isIndented ++ line
        let after := place.skip line.length
        if after.rest.isEmpty then some ({ text, wasIndented := isIndented }, after)
        else
          let start := after.next
          match blankLines indent 0 0 start.line start.column start.rest with
          | none => none
          | some (_, lines, next) =>
              blockLines isFolded indent fuel
                { text, ended := true, blankLines := lines, wasIndented := isIndented } next

/-- A block scalar after its sign, whose lines stand at column `least` or after it. -/
def blockScalar (isFolded : Bool) (least : Nat) (place : Place) :
    Option (List Char × Place) := do
  let (chomping, increment, width) := blockMarks place.rest
  let start ← lineEnd? (place.skip width)
  let asked :=
    match increment with
    | some increment => least - 1 + increment
    | none => 0
  let (widest, lines, body) ← blankLines asked 0 0 start.line start.column start.rest
  let indent := if asked == 0 then max (max widest least) 1 else asked
  let (block, after) ←
    blockLines isFolded indent (body.rest.length + 1) { blankLines := lines } body
  some (block.chomped chomping, after)

end ArchSurvey.Yaml
