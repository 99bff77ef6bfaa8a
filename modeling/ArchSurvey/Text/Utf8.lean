/-!
# UTF-8

Characters as bytes and back.  Reading is either strict, where one ill-formed sequence refuses the
whole text, or lenient, where each ill-formed sequence becomes one replacement character.
-/

namespace ArchSurvey.Text.Utf8

/-- The bytes of a text. -/
def encode (text : List Char) : List UInt8 :=
  text.flatMap String.utf8EncodeChar

/-- A byte that continues a sequence. -/
def isContinuation (b : UInt8) : Bool :=
  0x80 ≤ b && b ≤ 0xBF

/-- How many bytes follow the first byte of a sequence, and the range that the second one of them
must lie in; none where no sequence starts with the byte. -/
def sequenceRule (first : UInt8) : Option (Nat × UInt8 × UInt8) :=
  if first < 0x80 then some (0, 0, 0)
  else if 0xC2 ≤ first && first ≤ 0xDF then some (1, 0x80, 0xBF)
  else if first == 0xE0 then some (2, 0xA0, 0xBF)
  else if first == 0xED then some (2, 0x80, 0x9F)
  else if 0xE1 ≤ first && first ≤ 0xEF then some (2, 0x80, 0xBF)
  else if first == 0xF0 then some (3, 0x90, 0xBF)
  else if 0xF1 ≤ first && first ≤ 0xF3 then some (3, 0x80, 0xBF)
  else if first == 0xF4 then some (3, 0x80, 0x8F)
  else none

/-- How many of the bytes after the first belong to the sequence that it starts: all that the rule
asks for, or those up to the first that breaks it. -/
def matched (count : Nat) (low high : UInt8) : List UInt8 → Nat
  | [] => 0
  | b :: rest =>
      if count == 0 then 0
      else if low ≤ b && b ≤ high then 1 + matched (count - 1) 0x80 0xBF rest
      else 0

/-- The code point of a sequence of the given number of continuation bytes. -/
def codePoint (first : UInt8) (count : Nat) (tail : List UInt8) : Nat :=
  let lead :=
    match count with
    | 0 => first.toNat
    | 1 => first.toNat % 32
    | 2 => first.toNat % 16
    | _ => first.toNat % 8
  (tail.take count).foldl (fun value b => value * 64 + b.toNat % 64) lead

/-- The character that a sequence starting with `first` stands for, none if it is ill-formed, and
the number of bytes after the first that it takes. -/
def next (first : UInt8) (tail : List UInt8) : Option Char × Nat :=
  match sequenceRule first with
  | none => (none, 0)
  | some (count, low, high) =>
      let taken := matched count low high tail
      if taken == count then (some (Char.ofNat (codePoint first count tail)), count)
      else (none, taken)

/-- The characters of a byte sequence, none in the place of each ill-formed sequence. -/
def units : List UInt8 → List (Option Char)
  | [] => []
  | first :: tail =>
      let (unit, taken) := next first tail
      unit :: units (tail.drop taken)
termination_by bytes => bytes.length
decreasing_by simp only [List.length_drop, List.length_cons]; omega

/-- The text of a byte sequence, with a replacement character for each ill-formed sequence. -/
def decodeLossy (bytes : List UInt8) : List Char :=
  (units bytes).map fun unit => unit.getD '\uFFFD'

/-- The text of a well-formed byte sequence. -/
def decode? (bytes : List UInt8) : Option (List Char) :=
  (units bytes).mapM id

end ArchSurvey.Text.Utf8
