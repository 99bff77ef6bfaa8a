import ArchSurvey.Declaration.Note
import ArchSurvey.Proofs.Text.Split
import Mathlib.Data.List.DropRight

/-!
# Annotations and modifiers

What stands in front of a declaration is read item by item: `Reads` tells how,
and `Heading.ofText` reads so (`reads_ofText`).
-/

namespace ArchSurvey.Declaration

open Text

/-- Whether a text starts with an annotation. -/
def startsNote (text : List Char) : Bool :=
  text.head? == some '@' && !startsWith "@interface".toList text

/-- A character of a modifier. -/
def isModifierChar (c : Char) : Bool :=
  isAlphanumeric c || c == '-'

section Words

variable {p : Char → Bool} {word rest start : List Char}

/-- A word ends where a character that is none of its own follows. -/
theorem span_append (inside : ∀ c ∈ word, p c = true)
    (boundary : ∀ c ∈ rest.head?, p c = false) :
    (word ++ rest).takeWhile p = word ∧ (word ++ rest).dropWhile p = rest := by
  rw [List.takeWhile_append_of_pos inside, List.dropWhile_append_of_pos inside]
  cases rest with
  | nil => simp
  | cons c rest => simp [boundary c rfl]

theorem refuses_some {c : Char} (refused : p c = false) :
    ∀ d ∈ some c, p d = false := by
  intro d same
  rw [Option.mem_some_iff.mp same] at refused
  exact refused

theorem startsWith_append (belongs : ∀ c ∈ start, p c = true)
    (boundary : ∀ c ∈ rest.head?, p c = false) :
    startsWith start (word ++ rest) = startsWith start word := by
  rw [Bool.eq_iff_iff, startsWith_iff, startsWith_iff]
  refine ⟨fun leads => ?_, fun leads => leads.trans (List.prefix_append ..)⟩
  rcases List.prefix_or_prefix_of_prefix leads (List.prefix_append word rest)
    with inner | ⟨tail, rfl⟩
  · exact inner
  · cases tail with
    | nil => simp
    | cons c tail =>
        have first : c ∈ rest.head? := by
          obtain ⟨after, equal⟩ := List.prefix_append_right_inj word |>.mp leads
          rw [← equal]
          simp
        have member : c ∈ word ++ c :: tail := by simp
        cases (belongs c member).symm.trans (boundary c first)

end Words

section Items

variable {text rest : List Char}

theorem head?_of_startsNote (starts : startsNote text = true) :
    text.head? = some '@' := by
  rw [startsNote, Bool.and_eq_true, beq_iff_eq] at starts
  exact starts.1

theorem startsNote_cons (text : List Char) :
    startsNote ('@' :: text) = !startsWith "interface".toList text := by
  have same : startsWith "@interface".toList ('@' :: text) =
      startsWith "interface".toList text := by
    rw [Bool.eq_iff_iff, startsWith_iff, startsWith_iff]
    exact List.prefix_cons_inj '@'
  rw [startsNote, same]
  rfl

theorem takeNote_eq (text : List Char) : takeNote text =
    (⟨String.ofList (afterLast '.' (text.takeWhile isNameChar)),
        (takeArguments (trimStart (text.dropWhile isNameChar))).1⟩,
      (takeArguments (trimStart (text.dropWhile isNameChar))).2) := rfl

theorem takeModifier_eq (text : List Char) : takeModifier text =
    if modifierWords.contains (String.ofList (text.takeWhile isModifierChar))
    then some (String.ofList (text.takeWhile isModifierChar),
      text.dropWhile isModifierChar)
    else none := rfl

/-- A text that starts with no character of a modifier starts with none. -/
theorem takeModifier_eq_none
    (other : ∀ c ∈ text.head?, isModifierChar c = false) :
    takeModifier text = none := by
  have none : text.takeWhile isModifierChar = [] := by
    cases text with
    | nil => rfl
    | cons c rest => simp [other c rfl]
  rw [takeModifier_eq, none, if_neg (by decide)]

theorem spelling_of_modifier {word : String} (known : word ∈ modifierWords) :
    (∀ c ∈ word.toList, isModifierChar c = true) ∧
      ∃ first tail, word.toList = first :: tail ∧ isBlank first = false ∧
        first ≠ '@' := by
  have spelled : ∀ word ∈ modifierWords,
      word.toList.all isModifierChar = true ∧
        word.toList.head?.any (fun c => !isBlank c && c != '@') = true := by
    decide
  obtain ⟨letters, start⟩ := spelled word known
  obtain ⟨first, here, plain⟩ := (Option.any_eq_true ..).mp start
  obtain ⟨tail, equal⟩ := List.head?_eq_some_iff.mp here
  obtain ⟨solid, noMark⟩ : isBlank first = false ∧ first ≠ '@' := by
    simpa using plain
  exact ⟨List.all_eq_true.mp letters, first, tail, equal, solid, noMark⟩

theorem length_lt_of_takeModifier {word : String}
    (takes : takeModifier text = some (word, rest)) :
    rest.length < text.length := by
  rw [takeModifier_eq] at takes
  split at takes
  · rename_i known
    obtain ⟨rfl, rfl⟩ : String.ofList (text.takeWhile isModifierChar) = word ∧
        text.dropWhile isModifierChar = rest := by simpa using takes
    have filled : text.takeWhile isModifierChar ≠ [] := by
      intro empty
      rw [empty] at known
      revert known
      decide
    have whole := congrArg List.length
      (List.takeWhile_append_dropWhile (p := isModifierChar) (l := text))
    rw [List.length_append] at whole
    have some := List.length_pos_iff.mpr filled
    omega
  · cases takes

/-- The arguments in parentheses end where the rest begins, whatever the rest
is. -/
theorem exists_of_afterParenthesis {depth : Nat} {quoted : Bool}
    {previous : Char} {inside found after : List Char}
    (closes : afterParenthesis depth quoted previous inside text =
      some (found, after)) :
    ∃ read, text = read ++ ')' :: after ∧ found = inside.reverse ++ read ∧
      ∀ other, afterParenthesis depth quoted previous inside
        (read ++ ')' :: other) = some (found, other) := by
  fun_induction afterParenthesis depth quoted previous inside text
  case case1 => cases closes
  case case5 depth quoted previous inside c rest noQuote unquoted noOpen ends
      shallow =>
    obtain ⟨rfl, rfl⟩ : inside.reverse = found ∧ rest = after := by
      simpa using closes
    obtain rfl : c = ')' := by simpa using ends
    refine ⟨[], rfl, by simp, fun other => ?_⟩
    rw [List.nil_append, afterParenthesis, if_neg noQuote, if_neg unquoted,
      if_neg noOpen, if_pos ends, if_pos shallow]
  -- In the other cases the character is kept and the end found in the rest.
  all_goals
    rename_i ih
    obtain ⟨read, rfl, rfl, same⟩ := ih closes
    refine ⟨_ :: read, rfl, by simp, fun other => ?_⟩
    rw [List.cons_append, afterParenthesis, ← same other]
    simp_all

theorem takeArguments_none (other : text.head? ≠ some '(') :
    takeArguments text = (none, text) := by
  rw [takeArguments.eq_def]
  split
  · exact absurd rfl other
  · rfl

theorem length_takeArguments_le (text : List Char) :
    (takeArguments text).2.length ≤ text.length := by
  rw [takeArguments.eq_def]
  split
  · rename_i rest
    split
    · rename_i closes
      obtain ⟨read, rfl, -, -⟩ := exists_of_afterParenthesis closes
      simp
      omega
    · simp
  · simp

theorem length_trimStart_le (text : List Char) :
    (trimStart text).length ≤ text.length :=
  (List.dropWhile_sublist isBlank).length_le

theorem trimStart_trimStart (text : List Char) :
    trimStart (trimStart text) = trimStart text :=
  List.dropWhile_idempotent isBlank text

theorem length_takeNote_le (text : List Char) :
    (takeNote text).2.length ≤ text.length := by
  have name := (List.dropWhile_sublist (l := text) isNameChar).length_le
  have blank := length_trimStart_le (text.dropWhile isNameChar)
  have arguments :=
    length_takeArguments_le (trimStart (text.dropWhile isNameChar))
  simp only [takeNote]
  omega

end Items

/-- How annotations and modifiers are read from the start of a text that does
not start with white space. -/
inductive Reads : List Char → Heading → Prop where
  | note {text rest : List Char} {note : Note} {heading : Heading} :
      startsNote text = true → takeNote (text.drop 1) = (note, rest) →
      Reads (trimStart rest) heading →
      Reads text { heading with annotations := note :: heading.annotations }
  | modifier {text rest : List Char} {word : String} {heading : Heading} :
      startsNote text = false → takeModifier text = some (word, rest) →
      Reads (trimStart rest) heading →
      Reads text { heading with modifiers := word :: heading.modifiers }
  | done {text : List Char} :
      startsNote text = false → takeModifier text = none →
      Reads text { rest := text }

section Reading

variable {text : List Char} {heading : Heading}

/-- The reader finds an end before its fuel does. -/
theorem reads_readHeading {fuel : Nat} (enough : text.length < fuel) :
    Reads text (readHeading fuel text) := by
  induction fuel generalizing text with
  | zero => omega
  | succ fuel ih =>
      rw [readHeading]
      cases starts : startsNote text with
      | true =>
          have more : 0 < text.length := by
            cases text with
            | nil => cases starts
            | cons c rest => simp
          have note := length_takeNote_le (text.drop 1)
          have blank := length_trimStart_le (takeNote (text.drop 1)).2
          rw [List.length_drop] at note
          have later : Reads (trimStart (takeNote (text.drop 1)).2)
              (readHeading fuel (trimStart (takeNote (text.drop 1)).2)) :=
            ih (by omega)
          rw [startsNote] at starts
          rw [if_pos starts]
          exact .note starts rfl later
      | false =>
          have other := starts
          rw [startsNote] at other
          rw [if_neg (by rw [other]; decide)]
          cases takes : takeModifier text with
          | none => exact .done starts takes
          | some item =>
              obtain ⟨word, rest⟩ := item
              have shorter := length_lt_of_takeModifier takes
              have blank := length_trimStart_le rest
              exact .modifier starts takes (ih (by omega))

theorem Reads.unique {other : Heading} (one : Reads text heading)
    (two : Reads text other) : heading = other := by
  induction one generalizing other with
  | note starts takes _ ih =>
      cases two with
      | note _ takesToo later =>
          obtain ⟨rfl, rfl⟩ := Prod.mk.inj (takes.symm.trans takesToo)
          rw [ih later]
      | modifier plain => cases starts.symm.trans plain
      | done plain => cases starts.symm.trans plain
  | modifier plain takes _ ih =>
      cases two with
      | note starts => cases starts.symm.trans plain
      | modifier _ takesToo later =>
          obtain ⟨rfl, rfl⟩ :=
            Prod.mk.inj (Option.some.inj (takes.symm.trans takesToo))
          rw [ih later]
      | done _ takesNone => cases takes.symm.trans takesNone
  | done plain takesNone =>
      cases two with
      | note starts => cases starts.symm.trans plain
      | modifier _ takes => cases takes.symm.trans takesNone
      | done => rfl

theorem reads_ofText (text : List Char) :
    Reads (trimStart text) (Heading.ofText text) :=
  reads_readHeading (Nat.lt_succ_of_le (length_trimStart_le text))

theorem Reads.ofText_eq (reads : Reads (trimStart text) heading) :
    Heading.ofText text = heading :=
  (reads_ofText text).unique reads

end Reading

end ArchSurvey.Declaration
