import ArchSurvey.Json.Printer
import ArchSurvey.Json.Reader

/-!
# Printed values read back

Printed scalars are read back, and so is every layout of a value.
-/

namespace ArchSurvey.Json

/-!
## Reading printed scalars

A quoted string and a number that fits a word are read back, whatever follows
them.
-/

theorem hexValue?_hexDigit {value : Nat} (small : value < 16) :
    hexValue? (Digest.Sha256.hexDigit value) = some value := by
  rcases value with
    _ | _ | _ | _ | _ | _ | _ | _ | _ | _ | _ | _ | _ | _ | _ | _ | value
  all_goals first | rfl | omega

theorem hexUnit?_hexDigits {value : Nat} (small : value < 65536)
    (rest : List Char) :
    hexUnit? (Digest.Sha256.hexDigits 4 value ++ rest) = some (value, rest) := by
  simp only [Digest.Sha256.hexDigits, List.nil_append, List.cons_append,
    hexUnit?, hexValue?_hexDigit (Nat.mod_lt _ (by decide : 0 < 16)),
    Option.bind_eq_bind, Option.bind_some, Option.some.injEq, Prod.mk.injEq,
    and_true]
  omega

/-- An escaped character takes one step. -/
theorem stringFrom_escapeChar (fuel : Nat) (read : List Char) (c : Char)
    (rest : List Char) :
    stringFrom (fuel + 1) (some read) (escapeChar c ++ rest) =
      stringFrom fuel (some (c :: read)) rest := by
  unfold escapeChar
  split
  case h_8 =>
    next _ quote backslash _ _ _ _ _ =>
    split
    · next control =>
        have unit := hexUnit?_hexDigits (Nat.lt_trans control (by decide)) rest
        rw [List.cons_append, List.cons_append, stringFrom]
        simp only [escaped?, unit]
        simp [Nat.not_le.mpr (Nat.lt_trans control (by decide : 32 < 0xD800)),
          Nat.not_le.mpr (Nat.lt_trans control (by decide : 32 < 0xDC00)),
          Char.ofNat_toNat]
    · next plain =>
        rw [List.cons_append, List.nil_append, stringFrom]
        have noQuote : c ≠ '"' := quote
        have noBackslash : c ≠ '\\' := backslash
        simp [plain, noQuote, noBackslash]
  all_goals rfl

/-- A quoted text is read up to its closing quote. -/
theorem stringFrom_quoted (text rest read : List Char) {fuel : Nat}
    (enough : text.length < fuel) :
    stringFrom fuel (some read) (text.flatMap escapeChar ++ '"' :: rest) =
      some (some (read.reverse ++ text), rest) := by
  induction text generalizing fuel read with
  | nil =>
      obtain ⟨fuel, rfl⟩ := Nat.exists_eq_add_of_lt enough
      simp [stringFrom]
  | cons c text ih =>
      cases fuel with
      | zero => cases enough
      | succ fuel =>
          rw [List.flatMap_cons, List.append_assoc, stringFrom_escapeChar,
            ih _ (Nat.lt_of_succ_lt_succ enough)]
          simp

theorem length_le_flatMap_escapeChar (text : List Char) :
    text.length ≤ (text.flatMap escapeChar).length := by
  have each (c : Char) : 1 ≤ (escapeChar c).length := by
    unfold escapeChar
    split <;> try split
    all_goals simp
  induction text with
  | nil => exact Nat.le_refl 0
  | cons c text ih =>
      have first := each c
      rw [List.flatMap_cons, List.length_append, List.length_cons]
      omega

/-- What is quoted is read back. -/
theorem string?_quoted (text : String) (rest : List Char) :
    string? (text.toList.flatMap escapeChar ++ '"' :: rest) =
      some (some text.toList, rest) := by
  rw [string?, stringFrom_quoted]
  · rfl
  · have length := length_le_flatMap_escapeChar text.toList
    rw [List.length_append]
    omega

/-- Digits are added as long as the number fits a word. -/
theorem addDigits_eq {value count : Nat} {digits : List Char}
    (fits : Nat.ofDigitChars 10 digits value ≤ maxWord) :
    addDigits value count digits =
      (Nat.ofDigitChars 10 digits value, count + digits.length, []) := by
  induction digits generalizing value count with
  | nil => rfl
  | cons d digits ih =>
      have fits : Nat.ofDigitChars 10 digits (value * 10 + (d.toNat - 48)) ≤
          maxWord := by
        rw [Nat.mul_comm]
        exact fits
      have grows : Nat.ofDigitChars 10 digits (value * 10 + (d.toNat - 48)) =
          10 ^ digits.length * (value * 10 + (d.toNat - 48)) +
            Nat.ofDigitChars 10 digits 0 :=
        Nat.ofDigitChars_eq_ofDigitChars_zero
      have power : 1 ≤ 10 ^ digits.length := Nat.one_le_pow _ _ (by decide)
      have small : value * 10 + (d.toNat - 48) ≤ maxWord := by
        refine Nat.le_trans ?_ fits
        rw [grows]
        exact Nat.le_trans (Nat.le_mul_of_pos_left _ power)
          (Nat.le_add_right _ _)
      rw [addDigits, if_neg (Nat.not_lt.mpr small), ih fits,
        Nat.ofDigitChars_cons, Nat.mul_comm 10, List.length_cons,
        Nat.add_assoc, Nat.add_comm 1]
      rfl

theorem head?_natText {n : Nat} (positive : n ≠ 0) :
    (Decimal.natText n).head? ≠ some '0' := by
  rw [Decimal.natText]
  induction n using Nat.strongRecOn with
  | _ n ih =>
      rw [Nat.toDigits_eq_if (by decide)]
      split
      · next small =>
          rcases n with _ | _ | _ | _ | _ | _ | _ | _ | _ | _ | n
          · exact absurd rfl positive
          all_goals first | decide | omega
      · have first := ih (n / 10) (by omega) (by omega)
        rw [List.head?_append]
        cases leading : (Nat.toDigits 10 (n / 10)).head? with
        | none => exact absurd (List.head?_eq_none_iff.mp leading) Nat.toDigits_ne_nil
        | some c => simpa [leading] using first

theorem isAsciiDigit_of_mem_natText {n : Nat} {c : Char}
    (member : c ∈ Decimal.natText n) : Text.isAsciiDigit c = true := by
  have digit := Nat.isDigit_of_mem_toDigits (by decide) (by decide) member
  simpa [Char.isDigit, Text.isAsciiDigit, Char.le_def] using digit

/-- No number goes on with the text. -/
def EndsNumber (text : List Char) : Prop :=
  ∀ c ∈ text.head?, Text.isAsciiDigit c = false ∧ c ≠ '.' ∧ c ≠ 'e' ∧ c ≠ 'E'

theorem exponent?_of_endsNumber {text : List Char} (ends : EndsNumber text) :
    exponent? text = some (none, text) := by
  cases text with
  | nil => rfl
  | cons c rest =>
      obtain ⟨-, -, small, large⟩ := ends c rfl
      simp [exponent?, small, large]

/-- A number that fits a word is read back. -/
theorem number?_natText {n : Nat} (fits : n ≤ maxWord) {rest : List Char}
    (ends : EndsNumber rest) :
    number? false (Decimal.natText n ++ rest) = some (.nat n, rest) := by
  have digits : ∀ c ∈ Decimal.natText n, Text.isAsciiDigit c = true :=
    fun _ => isAsciiDigit_of_mem_natText
  have stops : rest.takeWhile Text.isAsciiDigit = [] ∧
      rest.dropWhile Text.isAsciiDigit = rest := by
    cases rest with
    | nil => exact ⟨rfl, rfl⟩
    | cons c rest => simp [(ends c rfl).1]
  have nonempty : (Decimal.natText n).isEmpty = false := by
    rw [List.isEmpty_eq_false_iff]
    exact Nat.toDigits_ne_nil
  have canonical : ((Decimal.natText n).length > 1 &&
      (Decimal.natText n).head? == some '0') = false := by
    by_cases zero : n = 0
    · subst zero
      rfl
    · simp [head?_natText zero]
  have value : Nat.ofDigitChars 10 (Decimal.natText n) 0 = n :=
    Nat.ofDigitChars_ten_toDigits
  have noPoint : ∀ more, rest ≠ '.' :: more := by
    rintro more rfl
    exact (ends '.' rfl).2.1 rfl
  rw [number?, List.takeWhile_append_of_pos digits,
    List.dropWhile_append_of_pos digits, stops.1, stops.2, List.append_nil,
    nonempty, canonical, addDigits_eq (by rw [value]; exact fits), value]
  simp only [Bool.or_self, Bool.false_eq_true, if_false]
  rw [exponent?_of_endsNumber ends]
  rfl

/-!
## Reading laid out values

White space may stand around every part of a value.  The reader takes each
layout of a value for that value, and both printed texts are layouts.
-/

/-- Nothing but white space. -/
def IsGap (text : List Char) : Prop :=
  ∀ c ∈ text, (c == ' ' || c == '\t' || c == '\n' || c == '\r') = true

mutual

/-- A text lays out a value, with white space between its parts. -/
inductive Spells : Json → List Char → Prop where
  | null : Spells .null ['n', 'u', 'l', 'l']
  | true : Spells (.bool true) ['t', 'r', 'u', 'e']
  | false : Spells (.bool false) ['f', 'a', 'l', 's', 'e']
  | nat {n : Nat} : n ≤ maxWord → Spells (.nat n) (Decimal.natText n)
  | str (text : String) : Spells (.str text) (quote text)
  | none {gap : List Char} : IsGap gap → Spells (.arr []) ('[' :: (gap ++ [']']))
  | arr {items : List Json} {text : List Char} :
      SpellsItems items text → Spells (.arr items) ('[' :: (text ++ [']']))
  | empty {gap : List Char} :
      IsGap gap → Spells (.obj []) ('\x7b' :: (gap ++ ['\x7d']))
  | obj {members : List (String × Json)} {text : List Char} :
      SpellsMembers members text →
      Spells (.obj members) ('\x7b' :: (text ++ ['\x7d']))

/-- A text lays out items with commas between them. -/
inductive SpellsItems : List Json → List Char → Prop where
  | last {item : Json} {before text after : List Char} :
      IsGap before → Spells item text → IsGap after →
      SpellsItems [item] (before ++ (text ++ after))
  | more {item : Json} {items : List Json}
      {before text after further : List Char} :
      IsGap before → Spells item text → IsGap after →
      SpellsItems items further →
      SpellsItems (item :: items) (before ++ (text ++ (after ++ ',' :: further)))

/-- A text lays out members with commas between them. -/
inductive SpellsMembers : List (String × Json) → List Char → Prop where
  | last {name : String} {value : Json}
      {before colon start text after : List Char} :
      IsGap before → IsGap colon → IsGap start → Spells value text →
      IsGap after →
      SpellsMembers [(name, value)]
        (before ++ (quote name ++ (colon ++ ':' :: (start ++ (text ++ after)))))
  | more {name : String} {value : Json} {members : List (String × Json)}
      {before colon start text after further : List Char} :
      IsGap before → IsGap colon → IsGap start → Spells value text →
      IsGap after → SpellsMembers members further →
      SpellsMembers ((name, value) :: members)
        (before ++ (quote name ++ (colon ++ ':' ::
          (start ++ (text ++ (after ++ ',' :: further))))))

end

theorem skipSpace_gap {gap : List Char} (blank : IsGap gap) (text : List Char) :
    skipSpace (gap ++ text) = skipSpace text :=
  List.dropWhile_append_of_pos blank

theorem skipSpace_cons {c : Char} (visible :
    (c == ' ' || c == '\t' || c == '\n' || c == '\r') = false)
    (text : List Char) : skipSpace (c :: text) = c :: text :=
  List.dropWhile_cons_of_neg (by simp [visible])

/-- The characters that part and enclose. -/
def marks : List Char :=
  ['"', ',', ':', '[', ']', '\x7b', '\x7d']

theorem skipSpace_bracket {c : Char} (member : c ∈ marks) (text : List Char) :
    skipSpace (c :: text) = c :: text := by
  have visible : ∀ c ∈ marks,
      (c == ' ' || c == '\t' || c == '\n' || c == '\r') = false := by
    decide
  exact skipSpace_cons (visible c member) text

theorem skipSpace_skipSpace (text : List Char) :
    skipSpace (skipSpace text) = skipSpace text := by
  induction text with
  | nil => rfl
  | cons c text ih =>
      cases blank : c == ' ' || c == '\t' || c == '\n' || c == '\r' with
      | true =>
          have skipped : skipSpace (c :: text) = skipSpace text :=
            List.dropWhile_cons_of_pos blank
          rw [skipped, ih]
      | false => rw [skipSpace_cons blank, skipSpace_cons blank]

theorem valueFrom_skipSpace (fuel : Nat) (text : List Char) :
    valueFrom fuel (skipSpace text) = valueFrom fuel text := by
  cases fuel with
  | zero => rfl
  | succ fuel => rw [valueFrom, valueFrom, skipSpace_skipSpace]

theorem valueFrom_gap {gap : List Char} (blank : IsGap gap) (fuel : Nat)
    (text : List Char) :
    valueFrom fuel (gap ++ text) = valueFrom fuel text := by
  rw [← valueFrom_skipSpace, skipSpace_gap blank, valueFrom_skipSpace]

theorem itemsFrom_skipSpace (fuel : Nat) (read : List Json) (text : List Char) :
    itemsFrom fuel read (skipSpace text) = itemsFrom fuel read text := by
  cases fuel with
  | zero => rfl
  | succ fuel => rw [itemsFrom, itemsFrom, valueFrom_skipSpace]

theorem membersFrom_skipSpace (fuel : Nat) (read : List (String × Json))
    (text : List Char) :
    membersFrom fuel read (skipSpace text) = membersFrom fuel read text := by
  cases fuel with
  | zero => rfl
  | succ fuel => rw [membersFrom, membersFrom, skipSpace_skipSpace]

theorem endsNumber_cons {c : Char} (plain : Text.isAsciiDigit c = false ∧
    c ≠ '.' ∧ c ≠ 'e' ∧ c ≠ 'E') (text : List Char) :
    EndsNumber (c :: text) := by
  intro other same
  cases same
  exact plain

/-- After white space a number does not go on. -/
theorem endsNumber_gap {gap text : List Char} (blank : IsGap gap)
    (ends : EndsNumber text) : EndsNumber (gap ++ text) := by
  cases gap with
  | nil => exact ends
  | cons c gap =>
      apply endsNumber_cons
      have space := blank c List.mem_cons_self
      simp only [Bool.or_eq_true, beq_iff_eq] at space
      rcases space with ((rfl | rfl) | rfl) | rfl <;> decide

theorem isSpace_of_isAsciiDigit {c : Char} (digit : Text.isAsciiDigit c = true) :
    (c == ' ' || c == '\t' || c == '\n' || c == '\r') = false := by
  rw [Bool.eq_false_iff]
  intro space
  simp only [Bool.or_eq_true, beq_iff_eq] at space
  rcases space with ((rfl | rfl) | rfl) | rfl <;> cases digit

/-- The first character of a value. -/
theorem Spells.head {value : Json} {text : List Char}
    (spells : Spells value text) : ∃ c tail, text = c :: tail ∧
      (c == ' ' || c == '\t' || c == '\n' || c == '\r') = Bool.false ∧
      c ≠ ']' := by
  cases spells with
  | @nat n fits =>
      cases spelled : Decimal.natText n with
      | nil => exact absurd spelled Nat.toDigits_ne_nil
      | cons c tail =>
          have digit : Text.isAsciiDigit c = Bool.true :=
            isAsciiDigit_of_mem_natText (spelled ▸ List.mem_cons_self)
          refine ⟨c, tail, rfl, isSpace_of_isAsciiDigit digit, ?_⟩
          rintro rfl
          cases digit
  | null => exact ⟨_, _, rfl, by decide, by decide⟩
  | true => exact ⟨_, _, rfl, by decide, by decide⟩
  | false => exact ⟨_, _, rfl, by decide, by decide⟩
  | str text => exact ⟨_, _, rfl, by decide, by decide⟩
  | none blank => exact ⟨_, _, rfl, by decide, by decide⟩
  | arr items => exact ⟨_, _, rfl, by decide, by decide⟩
  | empty blank => exact ⟨_, _, rfl, by decide, by decide⟩
  | obj members => exact ⟨_, _, rfl, by decide, by decide⟩

theorem Spells.head_after_gap {value : Json} {text : List Char}
    (spells : Spells value text) {gap : List Char} (blank : IsGap gap)
    (rest : List Char) :
    ∃ c tail, skipSpace (gap ++ (text ++ rest)) = c :: tail ∧ c ≠ ']' := by
  obtain ⟨c, tail, rfl, visible, opens⟩ := spells.head
  rw [skipSpace_gap blank, List.cons_append, skipSpace_cons visible]
  exact ⟨c, _, rfl, opens⟩

theorem SpellsItems.head {items : List Json} {text : List Char}
    (spells : SpellsItems items text) (rest : List Char) :
    ∃ c tail, skipSpace (text ++ rest) = c :: tail ∧ c ≠ ']' := by
  cases spells with
  | last before item after =>
      simp only [List.append_assoc]
      exact item.head_after_gap before _
  | more before item after further =>
      simp only [List.append_assoc]
      exact item.head_after_gap before _

theorem SpellsMembers.head {members : List (String × Json)} {text : List Char}
    (spells : SpellsMembers members text) (rest : List Char) :
    ∃ tail, skipSpace (text ++ rest) = '"' :: tail := by
  cases spells with
  | last before =>
      rw [List.append_assoc, skipSpace_gap before]
      exact ⟨_, rfl⟩
  | more before =>
      rw [List.append_assoc, skipSpace_gap before]
      exact ⟨_, rfl⟩

theorem valueFrom_quote (fuel : Nat) (text : String) (rest : List Char) :
    valueFrom (fuel + 1) (quote text ++ rest) = some (.str text, rest) := by
  have read := string?_quoted text rest
  rw [quote, List.cons_append, List.cons_append, List.append_assoc,
    List.cons_append, List.nil_append, valueFrom, skipSpace_cons (by decide)]
  simp only [read, String.ofList_toList]

theorem valueFrom_natText {n : Nat} (fits : n ≤ maxWord) (fuel : Nat)
    {rest : List Char} (ends : EndsNumber rest) :
    valueFrom (fuel + 1) (Decimal.natText n ++ rest) =
      some (.nat n, rest) := by
  have read := number?_natText fits ends
  have first := (Spells.nat fits).head
  obtain ⟨c, tail, spelled, visible, -⟩ := first
  have digit : Text.isAsciiDigit c = true :=
    isAsciiDigit_of_mem_natText (n := n) (spelled ▸ List.mem_cons_self)
  rw [spelled, List.cons_append] at read ⊢
  rw [valueFrom, skipSpace_cons visible]
  split
  case h_8 =>
    next same =>
    cases same
    rw [if_pos digit]
    exact read
  case h_9 => contradiction
  all_goals
    next same =>
    obtain rfl := (List.cons.inj same).1
    cases digit

mutual

/-- A layout of a value is read as the value, whatever follows. -/
theorem valueFrom_of_spells {value : Json} {text : List Char}
    (spells : Spells value text) {fuel : Nat} (enough : 2 * text.length ≤ fuel)
    {rest : List Char} (ends : EndsNumber rest) :
    valueFrom fuel (text ++ rest) = some (value, rest) := by
  have inhabited : text.length ≠ 0 := by
    obtain ⟨c, tail, rfl, -, -⟩ := spells.head
    simp
  obtain ⟨fuel, rfl⟩ : ∃ more, fuel = more + 1 := ⟨fuel - 1, by omega⟩
  cases spells with
  | null => rfl
  | true => rfl
  | false => rfl
  | nat fits => exact valueFrom_natText fits fuel ends
  | str text => exact valueFrom_quote fuel text rest
  | none blank =>
      rw [List.cons_append, valueFrom, skipSpace_bracket (by decide),
        List.append_assoc]
      simp only [skipSpace_gap blank, List.cons_append, List.nil_append,
        skipSpace_bracket (by decide : ']' ∈ marks)]
  | @arr items inner spells =>
      simp only [List.length_cons, List.length_append, List.length_nil] at enough
      have fits : 2 * inner.length + 1 ≤ fuel := by omega
      have read := itemsFrom_of_spells spells fits [] rest
      obtain ⟨c, tail, first, opens⟩ := spells.head (']' :: rest)
      rw [List.cons_append, valueFrom, skipSpace_bracket (by decide),
        List.append_assoc, List.cons_append, List.nil_append]
      rw [← itemsFrom_skipSpace, first] at read
      simp only [first]
      split
      · next closes => exact absurd (List.cons.inj closes).1 opens
      · exact read
  | empty blank =>
      rw [List.cons_append, valueFrom, skipSpace_bracket (by decide),
        List.append_assoc]
      simp only [skipSpace_gap blank, List.cons_append, List.nil_append,
        skipSpace_bracket (by decide : '\x7d' ∈ marks)]
  | @obj members inner spells =>
      simp only [List.length_cons, List.length_append, List.length_nil] at enough
      have fits : 2 * inner.length + 1 ≤ fuel := by omega
      have read := membersFrom_of_spells spells fits [] rest
      obtain ⟨tail, first⟩ := spells.head ('\x7d' :: rest)
      rw [List.cons_append, valueFrom, skipSpace_bracket (by decide),
        List.append_assoc, List.cons_append, List.nil_append]
      rw [← membersFrom_skipSpace, first] at read
      simp only [first]
      exact read

theorem itemsFrom_of_spells {items : List Json} {text : List Char}
    (spells : SpellsItems items text) {fuel : Nat}
    (enough : 2 * text.length + 1 ≤ fuel) (read : List Json)
    (rest : List Char) :
    itemsFrom fuel read (text ++ ']' :: rest) =
      some (.arr (read.reverse ++ items), rest) := by
  obtain ⟨fuel, rfl⟩ : ∃ more, fuel = more + 1 := ⟨fuel - 1, by omega⟩
  cases spells with
  | @last item before text after blank spells blank' =>
      simp only [List.length_append] at enough
      have fits : 2 * text.length ≤ fuel := by omega
      have ends : EndsNumber (after ++ ']' :: rest) :=
        endsNumber_gap blank' (endsNumber_cons (by decide) rest)
      rw [itemsFrom, List.append_assoc, valueFrom_gap blank, List.append_assoc,
        valueFrom_of_spells spells fits ends]
      dsimp only
      rw [skipSpace_gap blank', skipSpace_bracket (by decide)]
      simp
  | @more item items before text after further blank spells blank' later =>
      simp only [List.length_append, List.length_cons] at enough
      have fits : 2 * text.length ≤ fuel := by omega
      have fits' : 2 * further.length + 1 ≤ fuel := by omega
      have ends : EndsNumber (after ++ ',' :: (further ++ ']' :: rest)) :=
        endsNumber_gap blank' (endsNumber_cons (by decide) _)
      simp only [List.append_assoc, List.cons_append]
      rw [itemsFrom, valueFrom_gap blank, valueFrom_of_spells spells fits ends]
      dsimp only
      rw [skipSpace_gap blank', skipSpace_bracket (by decide)]
      simp [itemsFrom_of_spells later fits']

theorem membersFrom_of_spells {members : List (String × Json)}
    {text : List Char} (spells : SpellsMembers members text) {fuel : Nat}
    (enough : 2 * text.length + 1 ≤ fuel) (read : List (String × Json))
    (rest : List Char) :
    membersFrom fuel read (text ++ '\x7d' :: rest) =
      some (.obj (read.reverse ++ members), rest) := by
  obtain ⟨fuel, rfl⟩ : ∃ more, fuel = more + 1 := ⟨fuel - 1, by omega⟩
  cases spells with
  | @last name value before colon start text after blank gapColon gapStart
      spells gapAfter =>
      simp only [List.length_append, List.length_cons] at enough
      have fits : 2 * text.length ≤ fuel := by omega
      have ends : EndsNumber (after ++ '\x7d' :: rest) :=
        endsNumber_gap gapAfter (endsNumber_cons (by decide) rest)
      simp only [List.append_assoc, List.cons_append]
      rw [membersFrom, skipSpace_gap blank, quote]
      simp only [List.cons_append, List.append_assoc, List.nil_append,
        skipSpace_bracket (by decide : '"' ∈ marks), string?_quoted,
        skipSpace_gap gapColon, skipSpace_bracket (by decide : ':' ∈ marks),
        valueFrom_gap gapStart, valueFrom_of_spells spells fits ends,
        skipSpace_gap gapAfter, skipSpace_bracket (by decide : '\x7d' ∈ marks),
        String.ofList_toList, List.reverse_cons]
  | @more name value members before colon start text after further blank
      gapColon gapStart spells gapAfter later =>
      simp only [List.length_append, List.length_cons] at enough
      have fits : 2 * text.length ≤ fuel := by omega
      have fits' : 2 * further.length + 1 ≤ fuel := by omega
      have ends : EndsNumber (after ++ ',' :: (further ++ '\x7d' :: rest)) :=
        endsNumber_gap gapAfter (endsNumber_cons (by decide) _)
      simp only [List.append_assoc, List.cons_append]
      rw [membersFrom, skipSpace_gap blank, quote]
      simp only [List.cons_append, List.append_assoc, List.nil_append,
        skipSpace_bracket (by decide : '"' ∈ marks), string?_quoted,
        skipSpace_gap gapColon, skipSpace_bracket (by decide : ':' ∈ marks),
        valueFrom_gap gapStart, valueFrom_of_spells spells fits ends,
        skipSpace_gap gapAfter, skipSpace_bracket (by decide : ',' ∈ marks),
        String.ofList_toList, membersFrom_of_spells later fits',
        List.reverse_cons]

end

/-- A text that lays out a value stands for it. -/
theorem parseChars?_of_spells {value : Json} {text : List Char}
    (spells : Spells value text) : parseChars? text = some value := by
  have ends : EndsNumber [] := by
    intro c impossible
    cases impossible
  have read := valueFrom_of_spells spells
    (by omega : 2 * text.length ≤ 2 * text.length + 2) ends
  rw [List.append_nil] at read
  rw [parseChars?, read]
  rfl

end ArchSurvey.Json
