/-!
# Binary floating-point magnitudes

Finite non-negative numbers with a mantissa of at most fifty-three bits, as exact values, and the
rounding of a quotient to the nearest of them, a tie going to the even mantissa.

The shortest text of a number has the fewest digits that read back as the number, and among those
the nearest.  The digits are sought on decimal grids from coarse to fine: on each grid only the two
neighbours of the number can lie in the interval of the reals that round to it.
-/

namespace ArchSurvey.Decimal

/-- A magnitude `mantissa * 2 ^ exponent`, or one beyond every finite number. -/
inductive Magnitude where
  | finite (mantissa : Nat) (exponent : Int)
  | infinite
  deriving DecidableEq, Repr

/-- A floating-point number. -/
structure Binary64 where
  negative : Bool
  magnitude : Magnitude
  deriving DecidableEq, Repr

/-- The exponent of the smallest positive number. -/
def leastExponent : Int := -1074

/-- The greatest exponent of a number whose mantissa has all its bits. -/
def greatestExponent : Int := 971

/-- The quotient rounded to an integer, a tie going to the even neighbour. -/
def roundDiv (num den : Nat) : Nat :=
  let quotient := num / den
  let remainder := num % den
  if 2 * remainder < den then quotient
  else if den < 2 * remainder then quotient + 1
  else if quotient % 2 == 0 then quotient else quotient + 1

/-- The quotient `num / den` scaled by `2 ^ (-exponent)`, as a fraction. -/
def scaleBy (exponent : Int) (num den : Nat) : Nat × Nat :=
  if exponent < 0 then (num * Nat.pow 2 (-exponent).toNat, den) else (num, den * Nat.pow 2 exponent.toNat)

/-- A mantissa that has fifty-four bits after rounding up is halved. -/
def normal (mantissa : Nat) (exponent : Int) : Magnitude :=
  let (mantissa, exponent) :=
    if mantissa == Nat.pow 2 53 then (Nat.pow 2 52, exponent + 1) else (mantissa, exponent)
  if exponent > greatestExponent then .infinite else .finite mantissa exponent

/-- The nearest magnitude to `num / den`. -/
def Magnitude.ofRatio (num den : Nat) : Magnitude :=
  if num == 0 then .finite 0 leastExponent
  else
    let estimate := (Nat.log2 num : Int) - (Nat.log2 den : Int) - 52
    let (top, bottom) := scaleBy estimate num den
    let exponent := if top < bottom * Nat.pow 2 52 then estimate - 1 else estimate
    let exponent := if exponent < leastExponent then leastExponent else exponent
    let (top, bottom) := scaleBy exponent num den
    normal (roundDiv top bottom) exponent

/-- A finite magnitude as an exact fraction. -/
def Magnitude.toRatio : Magnitude → Option (Nat × Nat)
  | .infinite => none
  | .finite mantissa exponent =>
      if exponent < 0 then some (mantissa, Nat.pow 2 (-exponent).toNat)
      else some (mantissa * Nat.pow 2 exponent.toNat, 1)

/-- The nearest magnitude to a natural number. -/
def Magnitude.ofNat (n : Nat) : Magnitude :=
  .ofRatio n 1

/-- The rounded sum of two magnitudes. -/
def Magnitude.add (x y : Magnitude) : Magnitude :=
  match x.toRatio, y.toRatio with
  | some (a, b), some (c, d) => .ofRatio (a * d + c * b) (b * d)
  | _, _ => .infinite

/-- The rounded product of two magnitudes. -/
def Magnitude.mul (x y : Magnitude) : Magnitude :=
  match x.toRatio, y.toRatio with
  | some (a, b), some (c, d) => .ofRatio (a * c) (b * d)
  | _, _ => .infinite

/-- The rounded quotient of two magnitudes, the second of them positive. -/
def Magnitude.div (x y : Magnitude) : Magnitude :=
  match x.toRatio, y.toRatio with
  | some (a, b), some (c, d) => .ofRatio (a * d) (b * c)
  | some _, none => .finite 0 leastExponent
  | none, _ => .infinite

/-- Whether the first magnitude is the smaller one. -/
def Magnitude.lt (x y : Magnitude) : Bool :=
  match x.toRatio, y.toRatio with
  | some (a, b), some (c, d) => a * d < c * b
  | some _, none => true
  | none, _ => false

/-- A decimal digit as a character. -/
def digitChar (n : Nat) : Char :=
  Char.ofNat (48 + n % 10)

/-- The decimal digits of a number, at least `width` of them. -/
def digits : Nat → Nat → List Char
  | 0, n => if n == 0 then [] else (Nat.toDigits 10 n)
  | width + 1, n => digits width (n / 10) ++ [digitChar n]

/-- The decimal text of a natural number. -/
def natText (n : Nat) : List Char :=
  Nat.toDigits 10 n

/-- A fraction with a fixed number of decimal places, a tie going to the even neighbour. -/
def fixedText (places num den : Nat) : List Char :=
  let scaled := roundDiv (num * Nat.pow 10 places) den
  natText (scaled / Nat.pow 10 places) ++ '.' :: digits places (scaled % Nat.pow 10 places)

/-- A magnitude with a fixed number of decimal places. -/
def Magnitude.fixed (places : Nat) (x : Magnitude) : List Char :=
  match x.toRatio with
  | some (num, den) => fixedText places num den
  | none => "inf".toList

theorem roundDiv_le (num den : Nat) : roundDiv num den ≤ num / den + 1 := by
  unfold roundDiv
  simp only
  split
  · omega
  · split
    · omega
    · split <;> omega

/-! ## Shortest decimal text -/

/-- A positive fraction compared with another. -/
def ratioLe (a b c d : Nat) : Bool :=
  a * d ≤ c * b

/-- Whether the first fraction is smaller. -/
def ratioLt (a b c d : Nat) : Bool :=
  a * d < c * b

/-- The reals that round to a number: the fraction at each end, and whether the ends belong. -/
structure Interval where
  lowNum : Nat
  lowDen : Nat
  highNum : Nat
  highDen : Nat
  closed : Bool

/-- The interval of the reals that round to `mantissa * 2 ^ exponent`. -/
def Interval.around (mantissa : Nat) (exponent : Int) : Interval :=
  let scale (m : Nat) (e : Int) : Nat × Nat :=
    if e < 0 then (m, Nat.pow 2 (-e).toNat) else (m * Nat.pow 2 e.toNat, 1)
  let low :=
    if mantissa == Nat.pow 2 52 && exponent > leastExponent then scale (4 * mantissa - 1) (exponent - 2)
    else scale (2 * mantissa - 1) (exponent - 1)
  let high := scale (2 * mantissa + 1) (exponent - 1)
  ⟨low.1, low.2, high.1, high.2, mantissa % 2 == 0⟩

/-- Whether a fraction lies in the interval. -/
def Interval.has (i : Interval) (num den : Nat) : Bool :=
  if i.closed then ratioLe i.lowNum i.lowDen num den && ratioLe num den i.highNum i.highDen
  else ratioLt i.lowNum i.lowDen num den && ratioLt num den i.highNum i.highDen

/-- The digits `d` of the decimal `d * 10 ^ power` as a fraction. -/
def decimalRatio (d : Nat) (power : Int) : Nat × Nat :=
  if power < 0 then (d, Nat.pow 10 (-power).toNat) else (d * Nat.pow 10 power.toNat, 1)

/-- The neighbour of `num / den` on the grid of `10 ^ power` that lies in the interval, the nearer
one if both do. -/
def onGrid (i : Interval) (num den : Nat) (power : Int) : Option Nat :=
  let (top, bottom) :=
    if power < 0 then (num * Nat.pow 10 (-power).toNat, den) else (num, den * Nat.pow 10 power.toNat)
  let below := top / bottom
  let lower := decimalRatio below power
  let upper := decimalRatio (below + 1) power
  match below != 0 && i.has lower.1 lower.2, i.has upper.1 upper.2 with
  | true, true =>
      if 2 * (top % bottom) < bottom then some below
      else if 2 * (top % bottom) == bottom && below % 2 == 0 then some below
      else some (below + 1)
  | true, false => some below
  | false, true => some (below + 1)
  | false, false => none

/-- The shortest digits from the grid `10 ^ power` down, at most `fuel` grids. -/
def shortestFrom (i : Interval) (num den : Nat) : Nat → Int → Nat × Int
  | 0, power => (num * Nat.pow 10 (-power).toNat / den, power)
  | fuel + 1, power =>
      match onGrid i num den power with
      | some d => (d, power)
      | none => shortestFrom i num den fuel (power - 1)

/-- The shortest digits and decimal exponent of a positive finite number. -/
def shortestDigits (mantissa : Nat) (exponent : Int) : Nat × Int :=
  match (Magnitude.finite mantissa exponent).toRatio with
  | none => (0, 0)
  | some (num, den) =>
      let magnitude : Int := (Nat.log2 num : Int) - (Nat.log2 den : Int)
      let start := magnitude * 30103 / 100000 + 2
      shortestFrom (Interval.around mantissa exponent) num den 24 start

/-- The text of digits and an exponent: positional from `10 ^ -5` up to `10 ^ 16`, with at least
one place after the point, and with an exponent mark outside. -/
def decimalText (digits : Nat) (power : Int) : List Char :=
  let text := natText digits
  let point := (text.length : Int) + power
  if 0 ≤ power && point ≤ 16 then
    text ++ List.replicate power.toNat '0' ++ ".0".toList
  else if 0 < point && point ≤ 16 then
    text.take point.toNat ++ '.' :: text.drop point.toNat
  else if -5 < point && point ≤ 0 then
    "0.".toList ++ List.replicate (-point).toNat '0' ++ text
  else
    let mark := (toString (point - 1)).toList
    match text with
    | [] => []
    | [only] => only :: 'e' :: mark
    | first :: rest => first :: '.' :: rest ++ 'e' :: mark

/-- The shortest text of a finite number; infinities have none of their own here. -/
def Binary64.shortestText (x : Binary64) : List Char :=
  let magnitude :=
    match x.magnitude with
    | .infinite => "inf".toList
    | .finite 0 _ => "0.0".toList
    | .finite mantissa exponent =>
        let (digits, power) := shortestDigits mantissa exponent
        decimalText digits power
  if x.negative then '-' :: magnitude else magnitude

end ArchSurvey.Decimal
