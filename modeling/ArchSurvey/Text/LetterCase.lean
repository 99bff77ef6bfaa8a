import ArchSurvey.Text.CaseTable
import ArchSurvey.Text.ClassTable

/-!
# Word characters and letter case

Membership in the Unicode classes that patterns and identifiers are made of: ASCII is decided
directly and the rest by a search in a table of ranges.  The full upper-case and lower-case forms of
a text: a character may map to several, and a capital sigma that ends a word has a lower-case form
of its own.
-/

namespace ArchSurvey.Text

section Deciding

-- Properties of the characters of a text are decided one by one, and not for all characters.
variable (text : List Char) (property : Char → Prop) [DecidablePred property]

instance (priority := 2000) decidableForallChars : Decidable (∀ c ∈ text, property c) :=
  text.decidableBAll property

instance (priority := 2000) decidableExistsChar : Decidable (∃ c ∈ text, property c) :=
  text.decidableBEx property

end Deciding

/-- Binary search for `n` among the ranges from index `low` up to but not including `high`. -/
def inRangesFrom (ranges : Array (Nat × Nat)) (n low high : Nat) : Bool :=
  if _below : low < high then
    let middle := (low + high) / 2
    match ranges[middle]? with
    | none => false
    | some (first, last) =>
        if n < first then inRangesFrom ranges n low middle
        else if last < n then inRangesFrom ranges n (middle + 1) high
        else true
  else false
termination_by high - low
decreasing_by all_goals omega

/-- Whether `n` lies in one of the ascending ranges. -/
def inRanges (ranges : Array (Nat × Nat)) (n : Nat) : Bool :=
  inRangesFrom ranges n 0 ranges.size

/-- An ASCII letter or digit. -/
def isAsciiAlphanumeric (c : Char) : Bool :=
  ('a' ≤ c && c ≤ 'z') || ('A' ≤ c && c ≤ 'Z') || ('0' ≤ c && c ≤ '9')

/-- An ASCII digit. -/
def isAsciiDigit (c : Char) : Bool :=
  '0' ≤ c && c ≤ '9'

/-- A decimal digit of any script. -/
def isDigit (c : Char) : Bool :=
  if c.toNat < 128 then isAsciiDigit c else inRanges digitRanges c.toNat

/-- A letter, mark, decimal digit, connector or joiner: what a word is made of. -/
def isWordChar (c : Char) : Bool :=
  if c.toNat < 128 then isAsciiAlphanumeric c || c == '_' else inRanges wordRanges c.toNat

/-- An alphabetic or numeric character. -/
def isAlphanumeric (c : Char) : Bool :=
  if c.toNat < 128 then isAsciiAlphanumeric c else inRanges alphanumericRanges c.toNat

/-- The letters and digits of ASCII belong to words. -/
theorem isWordChar_of_isAsciiAlphanumeric {c : Char} (alphanumeric : isAsciiAlphanumeric c = true)
    (ascii : c.toNat < 128) : isWordChar c = true := by
  simp [isWordChar, ascii, alphanumeric]

/-! ## Numbers in text -/

/-- The value of a text of ASCII digits. -/
def digitsValue (digits : List Char) : Nat :=
  digits.foldl (fun value c => 10 * value + (c.toNat - 48)) 0

/-- The number that ASCII digits stand for, if it has at most sixty-four bits. -/
def natural64? (digits : List Char) : Option Nat :=
  if digits.isEmpty || !digits.all isAsciiDigit then none
  else
    let value := digitsValue digits
    if value < Nat.pow 2 64 then some value else none

/-! ## Letter case -/

/-- The shift of the run that contains `n`, searched from index `low` up to but not including
`high`. -/
def shiftFrom (runs : Array (Nat × Nat × Nat × Int)) (n low high : Nat) : Option Int :=
  if _below : low < high then
    let middle := (low + high) / 2
    match runs[middle]? with
    | none => none
    | some (first, last, step, shift) =>
        if n < first then shiftFrom runs n low middle
        else if last < n then shiftFrom runs n (middle + 1) high
        else if (n - first) % step == 0 then some shift
        else none
  else none
termination_by high - low
decreasing_by all_goals omega

/-- The character `n + shift` of the run that contains `n`, if one does. -/
def shifted (runs : Array (Nat × Nat × Nat × Int)) (c : Char) : Char :=
  match shiftFrom runs c.toNat 0 runs.size with
  | none => c
  | some shift => Char.ofNat (Int.toNat (c.toNat + shift))

/-- The several characters that `c` maps to, if the list has it. -/
def expansion (expansions : List (Nat × List Nat)) (c : Char) : Option (List Char) :=
  (expansions.lookup c.toNat).map fun points => points.map Char.ofNat

/-- Full upper-case form of one character. -/
def upperChar (c : Char) : List Char :=
  if c.toNat < 128 then [c.toUpper]
  else (expansion upperExpansions c).getD [shifted upperRuns c]

/-- Full upper-case form of a text. -/
def upper (text : List Char) : List Char :=
  text.flatMap upperChar

/-- Lower-case form of one character, whatever stands around it. -/
def lowerChar (c : Char) : List Char :=
  if c.toNat < 128 then [c.toLower]
  else (expansion lowerExpansions c).getD [shifted lowerRuns c]

/-- A letter that has case. -/
def isCased (c : Char) : Bool :=
  if c.toNat < 128 then c.isAlpha else inRanges casedRanges c.toNat

/-- A character that does not separate a letter from the letters of its word. -/
def isCaseIgnorable (c : Char) : Bool :=
  if c.toNat < 128 then ['\'', '.', ':', '^', '\x60'].contains c
  else inRanges caseIgnorableRanges c.toNat

/-- Whether the first character that counts is a cased letter. -/
def startsCased (text : List Char) : Bool :=
  match text.dropWhile isCaseIgnorable with
  | [] => false
  | c :: _ => isCased c

/-- Lower-case form of a text whose characters before it are `before`, last first. -/
def lowerFrom (before : List Char) : List Char → List Char
  | [] => []
  | c :: rest =>
      let image :=
        if c == 'Σ' then
          if startsCased before && !startsCased rest then ['ς'] else ['σ']
        else lowerChar c
      image ++ lowerFrom (c :: before) rest

/-- Full lower-case form of a text. -/
def lower (text : List Char) : List Char :=
  lowerFrom [] text

/-- Full upper-case form of a string. -/
def upperString (text : String) : String :=
  String.ofList (upper text.toList)

/-- Full lower-case form of a string. -/
def lowerString (text : String) : String :=
  String.ofList (lower text.toList)

end ArchSurvey.Text
