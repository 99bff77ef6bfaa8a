import ArchSurvey.Decimal.Binary64
import ArchSurvey.Json.Basic
import ArchSurvey.Keyed
import ArchSurvey.Text.LetterCase
import ArchSurvey.Text.Split
import ArchSurvey.Yaml.Basic

/-!
# YAML values

What a part of a document stands for when nothing else decides it, as free settings do.
-/

namespace ArchSurvey.Yaml

open Text

/-!
## Plain scalars

What a text without quotes stands for: nothing, a truth value, a number or itself.
-/

/-- What a plain scalar stands for. -/
inductive Plain where
  | nothing
  | truth (value : Bool)
  /-- A number, by its canonical text. -/
  | number (text : String)
  /-- An integer of more than sixty-four bits and at most one hundred and twenty-eight. -/
  | large
  | text
  deriving DecidableEq, Repr

/-- Whether a text is a word for nothing. -/
def isNullWord (text : String) : Bool :=
  ["null", "Null", "NULL", "~"].contains text

/-- The truth value that a text stands for. -/
def truthOf? (text : String) : Option Bool :=
  if ["true", "True", "TRUE"].contains text then some true
  else if ["false", "False", "FALSE"].contains text then some false
  else none

/-- The value of a digit in bases up to sixteen. -/
def digitValue? (base : Nat) (c : Char) : Option Nat :=
  let value :=
    if isAsciiDigit c then some (c.toNat - 48)
    else if 'a' ≤ c && c ≤ 'f' then some (c.toNat - 87)
    else if 'A' ≤ c && c ≤ 'F' then some (c.toNat - 55)
    else none
  value.filter (· < base)

/-- The number that digits in a base stand for. -/
def numeral? (base : Nat) (digits : List Char) : Option Nat :=
  if digits.isEmpty then none
  else
    digits.foldl
      (fun value c => do
        let value ← value
        let digit ← digitValue? base c
        some (value * base + digit))
      (some 0)

/-- The digits after one of the marks of a base, with the base. -/
def baseMark? : List Char → Option (Nat × List Char)
  | '0' :: 'x' :: rest => some (16, rest)
  | '0' :: 'o' :: rest => some (8, rest)
  | '0' :: 'b' :: rest => some (2, rest)
  | _ => none

/-- Whether a text is made of digits after a zero, which makes it no number. -/
def hasIdleZero (text : List Char) : Bool :=
  let digits :=
    match text with
    | '-' :: rest => rest
    | '+' :: rest => rest
    | rest => rest
  match digits with
  | '0' :: d :: rest => (d :: rest).all isAsciiDigit
  | _ => false

/-- The magnitude of an integer after its sign. -/
def magnitude? (text : List Char) : Option Nat :=
  match baseMark? text with
  | some (base, digits) => numeral? base digits
  | none => numeral? 10 text

/-- The natural number that a text stands for, a plus sign before it allowed. -/
def natural? (text : List Char) : Option Nat :=
  if hasIdleZero text then none
  else
    match text with
    | '+' :: rest => magnitude? rest
    | rest => magnitude? rest

/-- The magnitude of the negative number that a text stands for. -/
def negative? (text : List Char) : Option Nat :=
  if hasIdleZero text then none
  else
    match text with
    | '-' :: rest => magnitude? rest
    | _ => none

/-- What an integer stands for. -/
def integer? (text : List Char) : Option Plain :=
  match natural? text, negative? text with
  | some value, _ =>
      if value < Nat.pow 2 64 then some (.number (toString value))
      else if value < Nat.pow 2 128 then some .large
      else none
  | none, some magnitude =>
      if magnitude == 0 then some (.number "0")
      else if magnitude ≤ Nat.pow 2 63 then some (.number ("-" ++ toString magnitude))
      else if magnitude ≤ Nat.pow 2 127 then some .large
      else none
  | none, none => none

/-- The power of ten that a mark of an exponent stands for; no mark stands for none. -/
def exponent? : List Char → Option Int
  | [] => some 0
  | mark :: rest =>
      if mark == 'e' || mark == 'E' then
        match rest with
        | '-' :: digits => (numeral? 10 digits).map fun value => -(value : Int)
        | '+' :: digits => (numeral? 10 digits).map fun value => (value : Int)
        | digits => (numeral? 10 digits).map fun value => (value : Int)
      else none

/-- The nearest floating-point magnitude to `digits * 10 ^ power`. -/
def decimalMagnitude (digits : Nat) (power : Int) : Decimal.Magnitude :=
  let width := (Decimal.natText digits).length
  if digits == 0 then .ofNat 0
  else if power + width > 400 then .infinite
  else if power + width < -400 then .ofNat 0
  else if power < 0 then .ofRatio digits (Nat.pow 10 (-power).toNat)
  else .ofNat (digits * Nat.pow 10 power.toNat)

/-- The magnitude of a decimal number without a sign. -/
def decimal? (text : List Char) : Option Decimal.Magnitude :=
  let whole := text.takeWhile isAsciiDigit
  let rest := text.dropWhile isAsciiDigit
  let (places, rest) :=
    match rest with
    | '.' :: rest => (rest.takeWhile isAsciiDigit, rest.dropWhile isAsciiDigit)
    | rest => ([], rest)
  if whole.isEmpty && places.isEmpty then none
  else
    (exponent? rest).map fun exponent =>
      decimalMagnitude (digitsValue (whole ++ places)) (exponent - places.length)

/-- The finite floating-point number that a text stands for. -/
def finite? (text : List Char) : Option Decimal.Binary64 :=
  let (isNegative, digits) :=
    match text with
    | '+' :: rest => (false, rest)
    | '-' :: rest => (true, rest)
    | rest => (false, rest)
  match decimal? digits with
  | some (.finite mantissa exponent) => some ⟨isNegative, .finite mantissa exponent⟩
  | _ => none

/-- The canonical text of a floating-point number. -/
def floatText? (text : String) : Option String :=
  let unsigned := (dropPrefix? ['+'] text.toList).getD text.toList
  if [".inf", ".Inf", ".INF"].contains (String.ofList unsigned) then some ".inf"
  else if ["-.inf", "-.Inf", "-.INF"].contains text then some "-.inf"
  else if [".nan", ".NaN", ".NAN"].contains text then some ".nan"
  else (finite? text.toList).map fun value => String.ofList value.shortestText

/-- What a plain scalar stands for. -/
def plain (text : String) : Plain :=
  if text.isEmpty || isNullWord text then .nothing
  else
    match truthOf? text, integer? text.toList with
    | some value, _ => .truth value
    | none, some integer => integer
    | none, none =>
        if hasIdleZero text.toList then .text
        else
          match floatText? text with
          | some number => .number number
          | none => .text

/-!
## Values

What a part of a document stands for when nothing else decides it, as free settings do.
-/

/-- A value of its own kind. -/
inductive Value where
  | nothing
  | truth (value : Bool)
  /-- A number, by its canonical text. -/
  | number (text : String)
  | text (text : String)
  | list (items : List Value)
  | map (entries : List (Value × Value))

namespace Value

mutual

/-- Whether two values are the same. -/
def same : Value → Value → Bool
  | nothing, nothing => true
  | truth a, truth b => a == b
  | number a, number b => a == b
  | text a, text b => a == b
  | list a, list b => sameItems a b
  | map a, map b => sameEntries a b
  | _, _ => false

/-- Whether two lists have the same items. -/
def sameItems : List Value → List Value → Bool
  | [], [] => true
  | a :: as, b :: bs => same a b && sameItems as bs
  | _, _ => false

/-- Whether two maps have the same entries. -/
def sameEntries : List (Value × Value) → List (Value × Value) → Bool
  | [], [] => true
  | (k, a) :: as, (l, b) :: bs => same k l && same a b && sameEntries as bs
  | _, _ => false

end

/-- Whether no key of a map stands twice. -/
def keysDiffer : List (Value × Value) → Bool
  | [] => true
  | (key, _) :: rest => rest.all (fun other => !same key other.1) && keysDiffer rest

/-- What a plain scalar stands for. -/
def ofPlain? (written : String) : Option Value :=
  match plain written with
  | .nothing => some nothing
  | .truth value => some (truth value)
  | .number canonical => some (number canonical)
  | .large => none
  | .text => some (text written)

mutual

/-- What a part of a document stands for. -/
def ofYaml? : Yaml → Option Value
  | .scalar true written => ofPlain? written
  | .scalar false written => some (text written)
  | .list items => (ofItems? items).map list
  | .map entries =>
      (ofEntries? entries).bind fun entries => if keysDiffer entries then some (map entries) else none

/-- What the items of a list stand for. -/
def ofItems? : List Yaml → Option (List Value)
  | [] => some []
  | item :: rest => do
      let item ← ofYaml? item
      some (item :: (← ofItems? rest))

/-- What the entries of a map stand for. -/
def ofEntries? : List (Yaml × Yaml) → Option (List (Value × Value))
  | [] => some []
  | (key, value) :: rest => do
      let key ← ofYaml? key
      let value ← ofYaml? value
      some ((key, value) :: (← ofEntries? rest))

end

mutual

/-- What a JSON value stands for, its members sorted by name. -/
def ofJson? : Json → Option Value
  | .null => some nothing
  | .bool value => some (truth value)
  | .nat value => some (number (toString value))
  | .negative magnitude => some (number ("-" ++ toString magnitude))
  | .float value => some (number (String.ofList value.shortestText))
  | .str value => some (text value)
  | .arr items => (ofJsonItems? items).map list
  | .obj members =>
      (ofJsonMembers? members).map fun members =>
        map ((Keyed.ofList members).map fun (name, value) => (text name, value))
  | .unusable => none

/-- What the items of an array stand for. -/
def ofJsonItems? : List Json → Option (List Value)
  | [] => some []
  | item :: rest => do
      let item ← ofJson? item
      some (item :: (← ofJsonItems? rest))

/-- What the members of an object stand for. -/
def ofJsonMembers? : List (String × Json) → Option (List (String × Value))
  | [] => some []
  | (name, value) :: rest => do
      let value ← ofJson? value
      some ((name, value) :: (← ofJsonMembers? rest))

end

end Value

end ArchSurvey.Yaml
