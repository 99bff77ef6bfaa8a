import ArchSurvey.Json.Basic
import ArchSurvey.Text.LetterCase

/-!
# Reading JSON text

Each step returns what it read and the rest of the text.  A number keeps at most as many digits as
fit a sixty-four-bit word; further digits only scale it, and the result is rounded once for the
digits and once for the scale.
-/

namespace ArchSurvey.Json

/-- The text without the white space at its start. -/
def skipSpace (text : List Char) : List Char :=
  text.dropWhile fun c => c == ' ' || c == '\t' || c == '\n' || c == '\r'

/-- The value of a hexadecimal digit. -/
def hexValue? (c : Char) : Option Nat :=
  if Text.isAsciiDigit c then some (c.toNat - 48)
  else if 'a' ≤ c && c ≤ 'f' then some (c.toNat - 87)
  else if 'A' ≤ c && c ≤ 'F' then some (c.toNat - 55)
  else none

/-- Four hexadecimal digits. -/
def hexUnit? : List Char → Option (Nat × List Char)
  | a :: b :: c :: d :: rest => do
      let a ← hexValue? a
      let b ← hexValue? b
      let c ← hexValue? c
      let d ← hexValue? d
      some (((a * 16 + b) * 16 + c) * 16 + d, rest)
  | _ => none

/-- A character of a string, or none for one that stands for nothing, and the rest. -/
abbrev StringStep := Option Char × List Char

/-- The character after a backslash. -/
def escaped? : List Char → Option StringStep
  | '"' :: rest => some (some '"', rest)
  | '\\' :: rest => some (some '\\', rest)
  | '/' :: rest => some (some '/', rest)
  | 'b' :: rest => some (some '\x08', rest)
  | 'f' :: rest => some (some '\x0c', rest)
  | 'n' :: rest => some (some '\n', rest)
  | 'r' :: rest => some (some '\r', rest)
  | 't' :: rest => some (some '\t', rest)
  | 'u' :: rest =>
      match hexUnit? rest with
      | none => none
      | some (unit, rest) =>
          if 0xD800 ≤ unit && unit < 0xDC00 then
            match rest with
            | '\\' :: 'u' :: more =>
                match hexUnit? more with
                | some (low, more) =>
                    if 0xDC00 ≤ low && low < 0xE000 then
                      some (some (Char.ofNat (0x10000 + (unit - 0xD800) * 1024 + (low - 0xDC00))),
                        more)
                    else some (none, rest)
                | none => none
            | _ => some (none, rest)
          else if 0xDC00 ≤ unit && unit < 0xE000 then some (none, rest)
          else some (some (Char.ofNat unit), rest)
  | _ => none

/-- The characters of a string up to its closing quote, at most `fuel` of them; `read` holds those
already read, last first, and is none once one of them stood for nothing. -/
def stringFrom : Nat → Option (List Char) → List Char → Option (Option (List Char) × List Char)
  | 0, _, _ => none
  | _ + 1, _, [] => none
  | fuel + 1, read, c :: rest =>
      if c == '"' then some (read.map List.reverse, rest)
      else if c == '\\' then
        match escaped? rest with
        | none => none
        | some (some e, rest) => stringFrom fuel (read.map (e :: ·)) rest
        | some (none, rest) => stringFrom fuel none rest
      else if c.toNat < 32 then none
      else stringFrom fuel (read.map (c :: ·)) rest

/-- The text of a string after its opening quote: its value, if it has one, and the rest. -/
def string? (text : List Char) : Option (Option (List Char) × List Char) :=
  stringFrom (text.length + 1) (some []) text

/-- The largest number that a word of sixty-four bits holds. -/
def maxWord : Nat := 18446744073709551615

/-- Adds digits to a number while it fits a word: the number, how many digits were added and the
digits left over. -/
def addDigits (value count : Nat) : List Char → Nat × Nat × List Char
  | [] => (value, count, [])
  | d :: rest =>
      let more := value * 10 + (d.toNat - 48)
      if more > maxWord then (value, count, d :: rest) else addDigits more (count + 1) rest

/-- Divides or multiplies a magnitude by a power of ten, in steps of at most `10 ^ 308`; none if it
passes beyond the finite range. -/
def scaleMagnitude : Nat → Decimal.Magnitude → Int → Option Decimal.Magnitude
  | 0, _, _ => none
  | fuel + 1, m, exponent =>
      let large := Decimal.Magnitude.ofNat (Nat.pow 10 308)
      if exponent.natAbs ≤ 308 then
        let power := Decimal.Magnitude.ofNat (Nat.pow 10 exponent.natAbs)
        if exponent < 0 then some (m.div power)
        else match m.mul power with
          | .infinite => none
          | scaled => some scaled
      else if m == Decimal.Magnitude.ofNat 0 then some m
      else if exponent < 0 then scaleMagnitude fuel (m.div large) (exponent + 308)
      else none

/-- The number with the given sign, digits and power of ten. -/
def floatOf (negative : Bool) (value : Nat) (exponent : Int) : Json :=
  match scaleMagnitude 16 (.ofNat value) exponent with
  | some magnitude => .float ⟨negative, magnitude⟩
  | none => if exponent < 0 then .float ⟨negative, .ofNat 0⟩ else .unusable

/-- An integer with the given sign and digits, a floating-point number where it fits no word. -/
def integerOf (isNegative : Bool) (value : Nat) : Json :=
  if !isNegative then .nat value
  else if value == 0 || value > 9223372036854775808 then .float ⟨true, .ofNat value⟩
  else .negative value

/-- An exponent mark and its digits: the exponent and the rest, or the text as it stands. -/
def exponent? : List Char → Option (Option Int × List Char)
  | c :: rest =>
      if c == 'e' || c == 'E' then
        let (isNegative, rest) :=
          match rest with
          | '+' :: rest => (false, rest)
          | '-' :: rest => (true, rest)
          | rest => (false, rest)
        let digits := rest.takeWhile Text.isAsciiDigit
        if digits.isEmpty then none
        else
          let value : Nat := digits.foldl (fun value d => value * 10 + (d.toNat - 48)) 0
          some (some (if isNegative then -(value : Int) else value),
            rest.dropWhile Text.isAsciiDigit)
      else some (none, c :: rest)
  | [] => some (none, [])

/-- A number after its sign. -/
def number? (isNegative : Bool) (text : List Char) : Option (Json × List Char) :=
  let whole := text.takeWhile Text.isAsciiDigit
  let rest := text.dropWhile Text.isAsciiDigit
  if whole.isEmpty || (whole.length > 1 && whole.head? == some '0') then none
  else
    let (value, _, left) := addDigits 0 0 whole
    match rest with
    | '.' :: rest =>
        let places := rest.takeWhile Text.isAsciiDigit
        if places.isEmpty then none
        else
          let (value, count, _) := addDigits value 0 places
          match exponent? (rest.dropWhile Text.isAsciiDigit) with
          | none => none
          | some (exponent, rest) =>
              some (floatOf isNegative value
                ((left.length : Int) - count + exponent.getD 0), rest)
    | rest =>
        match exponent? rest with
        | none => none
        | some (some exponent, rest) =>
            some (floatOf isNegative value ((left.length : Int) + exponent), rest)
        | some (none, rest) =>
            if left.isEmpty then some (integerOf isNegative value, rest)
            else some (floatOf isNegative value left.length, rest)

mutual

/-- A value and the rest of the text, with at most `fuel` steps. -/
def valueFrom : Nat → List Char → Option (Json × List Char)
  | 0, _ => none
  | fuel + 1, text =>
      match skipSpace text with
      | 'n' :: 'u' :: 'l' :: 'l' :: rest => some (.null, rest)
      | 't' :: 'r' :: 'u' :: 'e' :: rest => some (.bool true, rest)
      | 'f' :: 'a' :: 'l' :: 's' :: 'e' :: rest => some (.bool false, rest)
      | '"' :: rest =>
          match string? rest with
          | none => none
          | some (some value, rest) => some (.str (String.ofList value), rest)
          | some (none, rest) => some (.unusable, rest)
      | '[' :: rest =>
          match skipSpace rest with
          | ']' :: rest => some (.arr [], rest)
          | rest => itemsFrom fuel [] rest
      | '\x7b' :: rest =>
          match skipSpace rest with
          | '\x7d' :: rest => some (.obj [], rest)
          | rest => membersFrom fuel [] rest
      | '-' :: rest => number? true rest
      | c :: rest => if Text.isAsciiDigit c then number? false (c :: rest) else none
      | [] => none

/-- The items of an array from one of them on; `read` holds those before it, last first. -/
def itemsFrom : Nat → List Json → List Char → Option (Json × List Char)
  | 0, _, _ => none
  | fuel + 1, read, text =>
      match valueFrom fuel text with
      | none => none
      | some (item, rest) =>
          match skipSpace rest with
          | ',' :: rest => itemsFrom fuel (item :: read) rest
          | ']' :: rest => some (.arr (item :: read).reverse, rest)
          | _ => none

/-- The members of an object from one of them on; `read` holds those before it, last first. -/
def membersFrom : Nat → List (String × Json) → List Char → Option (Json × List Char)
  | 0, _, _ => none
  | fuel + 1, read, text =>
      match skipSpace text with
      | '"' :: rest =>
          match string? rest with
          | some (some name, rest) =>
              match skipSpace rest with
              | ':' :: rest =>
                  match valueFrom fuel rest with
                  | none => none
                  | some (value, rest) =>
                      let member := (String.ofList name, value)
                      match skipSpace rest with
                      | ',' :: rest => membersFrom fuel (member :: read) rest
                      | '\x7d' :: rest => some (.obj (member :: read).reverse, rest)
                      | _ => none
              | _ => none
          | _ => none
      | _ => none

end

/-- The value that a whole text stands for. -/
def parseChars? (text : List Char) : Option Json :=
  match valueFrom (2 * text.length + 2) text with
  | none => none
  | some (value, rest) => if (skipSpace rest).isEmpty then some value else none

/-- The value that a whole text stands for. -/
def parse? (text : String) : Option Json :=
  parseChars? text.toList

end ArchSurvey.Json
