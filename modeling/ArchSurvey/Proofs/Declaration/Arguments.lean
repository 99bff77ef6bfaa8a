import ArchSurvey.Proofs.Declaration.Layout
import ArchSurvey.Proofs.Declaration.Value
import ArchSurvey.Proofs.Text.Blank
import ArchSurvey.Proofs.Text.Occurrences

/-!
# Printed arguments

Arguments of an annotation as they are printed, how they are parted again, and
the strings in them.
-/

namespace ArchSurvey.Declaration

open Text

/-!
## Arguments

How arguments are printed, with any white space between their parts.  The
strings and braces of a printed argument are closed, so that the commas between
the arguments tell them apart (`forall₂_splitArguments`).
-/

/-- What an attribute can be given: a string, strings in braces, or a name. -/
inductive Value where
  | string (text : List Char)
  | strings (texts : List (List Char))
  | name (word : List Char)
  deriving DecidableEq, Repr

/-- The strings of a value. -/
def Value.literals : Value → List (List Char)
  | string text => [text]
  | strings texts => texts
  | name _ => []

/-- An argument of an annotation. -/
structure Argument where
  name : Option String
  value : Value
  deriving DecidableEq, Repr

namespace Argument

/-- The attribute that an argument is for: without a name, the `value`. -/
def key (argument : Argument) : String :=
  argument.name.getD "value"

/-- Whether an argument has a name, or else no equals sign in its strings. -/
def isLegible (argument : Argument) : Bool :=
  argument.name.isSome ||
    argument.value.literals.all fun text => !text.contains '='

end Argument

/-- A character of a name: neither white space nor a mark of its own among
arguments. -/
def isPlain (c : Char) : Bool :=
  !isBlank c && !"\"\\(),<=>\x7b\x7d".toList.contains c

/-- A character of a string that is written as it is. -/
def isVerbatim (c : Char) : Bool :=
  c != '"' && c != '\\'

def inQuotes (text : List Char) : List Char :=
  '"' :: (text ++ ['"'])

/-- How a string is printed. -/
def PrintsString (text printed : List Char) : Prop :=
  (∀ c ∈ text, isVerbatim c = true) ∧ printed = inQuotes text

/-- How items are printed with commas between them, and white space around the
commas. -/
inductive Listed {α : Type} (prints : α → List Char → Prop) :
    List α → List Char → Prop where
  | nil : Listed prints [] []
  | only {item : α} {text : List Char} :
      prints item text → Listed prints [item] text
  | cons {item next : α} {items : List α} {text before after more : List Char} :
      prints item text → (∀ c ∈ before, isBlank c = true) →
      (∀ c ∈ after, isBlank c = true) → Listed prints (next :: items) more →
      Listed prints (item :: next :: items)
        (text ++ (before ++ ',' :: (after ++ more)))

/-- How a value is printed. -/
inductive Value.Prints : Value → List Char → Prop where
  | string {text printed : List Char} :
      PrintsString text printed → Prints (.string text) printed
  | strings {texts : List (List Char)} {before inner after : List Char} :
      (∀ c ∈ before, isBlank c = true) → Listed PrintsString texts inner →
      (∀ c ∈ after, isBlank c = true) →
      Prints (.strings texts)
        ('\x7b' :: (before ++ (inner ++ (after ++ ['\x7d']))))
  | name {word : List Char} :
      word ≠ [] → (∀ c ∈ word, isPlain c = true) → Prints (.name word) word

/-- How an argument is printed. -/
inductive Argument.Prints : Argument → List Char → Prop where
  | bare {value : Value} {text : List Char} :
      value.Prints text → Prints ⟨none, value⟩ text
  | named {name : String} {value : Value} {before after text : List Char} :
      name.toList ≠ [] → (∀ c ∈ name.toList, isPlain c = true) →
      (∀ c ∈ before, isBlank c = true) → (∀ c ∈ after, isBlank c = true) →
      value.Prints text →
      Prints ⟨some name, value⟩
        (name.toList ++ (before ++ '=' :: (after ++ text)))

/-! ## Closed texts -/

/-- Texts whose strings and braces are closed, with commas in the braces or in
all of the text. -/
inductive Closed : Bool → List Char → Prop where
  | nil {commas : Bool} : Closed commas []
  | char {commas : Bool} {c : Char} {text : List Char} :
      "\"\\()<>\x7b\x7d".toList.contains c = false →
      (c = ',' → commas = true) → Closed commas text → Closed commas (c :: text)
  | string {commas : Bool} {inner text : List Char} :
      (∀ c ∈ inner, isVerbatim c = true) → Closed commas text →
      Closed commas (inQuotes inner ++ text)
  | braces {commas : Bool} {inner text : List Char} :
      Closed true inner → Closed commas text →
      Closed commas ('\x7b' :: (inner ++ '\x7d' :: text))

section Closing

variable {commas : Bool} {text more inner : List Char}

theorem Closed.append (one : Closed commas text) (two : Closed commas more) :
    Closed commas (text ++ more) := by
  induction one with
  | nil => exact two
  | char quiet comma _ ih => exact .char quiet comma (ih two)
  | string verbatim _ ih =>
      rw [List.append_assoc]
      exact .string verbatim (ih two)
  | @braces _ inner text inside _ _ ih =>
      have shape : '\x7b' :: (inner ++ '\x7d' :: text) ++ more =
          '\x7b' :: (inner ++ '\x7d' :: (text ++ more)) := by simp
      rw [shape]
      exact .braces inside (ih two)

theorem Closed.weaken (closed : Closed commas text) : Closed true text := by
  induction closed with
  | nil => exact .nil
  | char quiet _ _ ih => exact .char quiet (fun _ => rfl) ih
  | string verbatim _ ih => exact .string verbatim ih
  | braces inside _ _ ih => exact .braces inside ih

theorem closed_of_quiet
    (quiet : ∀ c ∈ text, "\"\\(),<>\x7b\x7d".toList.contains c = false) :
    Closed commas text := by
  induction text with
  | nil => exact .nil
  | cons c text ih =>
      have here := quiet c List.mem_cons_self
      refine .char ?_ ?_ (ih fun d member => quiet d (.tail c member))
      · simp_all
      · rintro rfl
        simp at here

theorem closed_of_blank (white : ∀ c ∈ text, isBlank c = true) :
    Closed commas text :=
  closed_of_quiet fun c member => by
    have marks : ∀ mark ∈ "\"\\(),<>\x7b\x7d".toList, isBlank mark = false := by
      decide
    rw [List.contains_eq_mem, decide_eq_false_iff_not]
    intro marked
    cases (marks c marked).symm.trans (white c member)

theorem closed_of_plain (plain : ∀ c ∈ text, isPlain c = true) :
    Closed commas text :=
  closed_of_quiet fun c member => by
    have here := plain c member
    simp_all [isPlain]

end Closing

/-! ## Reading closed texts -/

section Reading

variable {commas : Bool} {text rest : List Char}

theorem piecesFrom_string {depth : Int} {piece inner : List Char}
    (verbatim : ∀ c ∈ inner, isVerbatim c = true) :
    piecesFrom depth false piece (inQuotes inner ++ rest) =
      piecesFrom depth false ((inQuotes inner).reverse ++ piece) rest := by
  have inside : ∀ piece, piecesFrom depth true piece (inner ++ '"' :: rest) =
      piecesFrom depth false ('"' :: (inner.reverse ++ piece)) rest := by
    intro piece
    induction inner generalizing piece with
    | nil => simp [piecesFrom]
    | cons c inner ih =>
        have here : c ≠ '"' ∧ c ≠ '\\' := by
          simpa [isVerbatim] using verbatim c List.mem_cons_self
        rw [List.cons_append, piecesFrom, if_neg (by simp [here.1]),
          if_pos rfl, ih fun d member => verbatim d (.tail c member)]
        · simp
        · rintro d tail rfl
          exact absurd rfl here.2
  have shape : inQuotes inner ++ rest = '"' :: (inner ++ '"' :: rest) := by
    simp [inQuotes]
  rw [shape, piecesFrom, if_pos (by simp), Bool.not_false, inside]
  · simp [inQuotes]
  · simp

/-- A closed text belongs to the piece being read. -/
theorem Closed.piecesFrom_append (closed : Closed commas text) {depth : Int}
    (shut : 0 ≤ depth) (inBraces : commas = true → 0 < depth)
    (piece rest : List Char) :
    piecesFrom depth false piece (text ++ rest) =
      piecesFrom depth false (text.reverse ++ piece) rest := by
  induction closed generalizing depth piece rest with
  | nil => rfl
  | @char _ c text quiet comma _ ih =>
      have plain : c ≠ '"' ∧ c ≠ '\\' ∧ c ≠ '(' ∧ c ≠ ')' ∧ c ≠ '<' ∧ c ≠ '>' ∧
          c ≠ '\x7b' ∧ c ≠ '\x7d' := by
        simpa using quiet
      have noComma : ¬(c = ',' ∧ depth = 0) := by
        rintro ⟨same, ground⟩
        have deep := inBraces (comma same)
        omega
      rw [List.cons_append, piecesFrom, if_neg (by simp [plain]),
        if_neg (by simp), if_neg (by simp [plain]), if_neg (by simp [plain]),
        if_neg (by simpa using noComma), ih shut inBraces]
      · simp
      · rintro d tail rfl
        exact absurd rfl plain.2.1
  | string verbatim _ ih =>
      rw [List.append_assoc, piecesFrom_string verbatim, ih shut inBraces]
      simp
  | @braces _ inner text _ _ insideIh ih =>
      have deep : 0 < depth + 1 := by omega
      have shape : '\x7b' :: (inner ++ '\x7d' :: text) ++ rest =
          '\x7b' :: (inner ++ '\x7d' :: (text ++ rest)) := by simp
      rw [shape, piecesFrom, if_neg (by simp), if_neg (by simp),
        if_pos (by simp), insideIh (by omega) fun _ => deep, piecesFrom,
        if_neg (by simp), if_neg (by simp), if_neg (by simp),
        if_pos (by simp), Int.add_sub_cancel, ih shut inBraces]
      · simp
      · simp
      · simp

theorem isEnclosed_of_verbatim (verbatim : ∀ c ∈ text, isVerbatim c = true) :
    isEnclosed '"' text = true := by
  induction text with
  | nil => rfl
  | cons c text ih =>
      have here : c ≠ '"' ∧ c ≠ '\\' := by
        simpa [isVerbatim] using verbatim c List.mem_cons_self
      have later := ih fun d member => verbatim d (.tail c member)
      rw [isEnclosed]
      · simp [here.1, later]
      · rintro d tail rfl
        exact absurd rfl here.2
      · rintro rfl
        exact absurd rfl here.2

theorem getLast?_of_verbatim (verbatim : ∀ c ∈ text, isVerbatim c = true) :
    ('"' :: text).getLast? ≠ some '\\' := by
  intro last
  rcases List.mem_cons.mp (List.mem_of_getLast? last) with quote | member
  · cases quote
  · cases verbatim _ member

/-- A closed text belongs to the arguments being read. -/
theorem Closed.afterParenthesis_append (closed : Closed commas text)
    {previous : Char} (start : previous ≠ '\\') (depth : Nat)
    (inside : List Char) :
    ∃ last, last ≠ '\\' ∧ ∀ rest,
      afterParenthesis depth false previous inside (text ++ rest) =
        afterParenthesis depth false last (text.reverse ++ inside) rest := by
  induction closed generalizing previous inside with
  | nil => exact ⟨previous, start, fun _ => rfl⟩
  | @char _ c text quiet _ _ ih =>
      have plain : c ≠ '"' ∧ c ≠ '\\' ∧ c ≠ '(' ∧ c ≠ ')' ∧ c ≠ '<' ∧ c ≠ '>' ∧
          c ≠ '\x7b' ∧ c ≠ '\x7d' := by
        simpa using quiet
      obtain ⟨last, noEscape, same⟩ := ih plain.2.1 (c :: inside)
      refine ⟨last, noEscape, fun rest => ?_⟩
      rw [List.cons_append, afterParenthesis, if_neg (by simp [plain]),
        if_neg (by simp), if_neg (by simp [plain]), if_neg (by simp [plain]),
        same]
      simp
  | @string _ inner text verbatim _ ih =>
      obtain ⟨last, noEscape, same⟩ :=
        @ih '"' (by decide) ((inQuotes inner).reverse ++ inside)
      refine ⟨last, noEscape, fun rest => ?_⟩
      have shape : inQuotes inner ++ text ++ rest =
          '"' :: (inner ++ '"' :: (text ++ rest)) := by
        simp [inQuotes]
      rw [shape, afterParenthesis, if_pos (by simp [start]), Bool.not_false,
        afterParenthesis_string (isEnclosed_of_verbatim verbatim)
          (getLast?_of_verbatim verbatim)]
      simpa [inQuotes] using same rest
  | @braces _ inner text _ _ insideIh ih =>
      obtain ⟨middle, noEscapeYet, sameInside⟩ :=
        @insideIh '\x7b' (by decide) ('\x7b' :: inside)
      obtain ⟨last, noEscape, same⟩ :=
        @ih '\x7d' (by decide)
          (('\x7b' :: (inner ++ ['\x7d'])).reverse ++ inside)
      refine ⟨last, noEscape, fun rest => ?_⟩
      have shape : '\x7b' :: (inner ++ '\x7d' :: text) ++ rest =
          '\x7b' :: (inner ++ '\x7d' :: (text ++ rest)) := by simp
      rw [shape, afterParenthesis, if_neg (by simp), if_neg (by simp),
        if_neg (by simp), if_neg (by simp), sameInside, afterParenthesis,
        if_neg (by simp), if_neg (by simp), if_neg (by simp), if_neg (by simp)]
      simpa using same rest

end Reading

/-! ## Printed texts -/

section Printing

variable {value : Value} {argument : Argument} {arguments : List Argument}
  {commas : Bool} {text : List Char}

theorem PrintsString.closed {printed : List Char}
    (prints : PrintsString text printed) : Closed commas printed := by
  obtain ⟨verbatim, rfl⟩ := prints
  have closed : Closed commas (inQuotes text ++ []) := .string verbatim .nil
  rwa [List.append_nil] at closed

theorem Listed.closed {α : Type} {prints : α → List Char → Prop}
    {items : List α} (listed : Listed prints items text)
    (closes : ∀ item text, prints item text → Closed true text) :
    Closed true text := by
  induction listed with
  | nil => exact .nil
  | only printed => exact closes _ _ printed
  | cons printed before after _ ih =>
      refine (closes _ _ printed).append ((closed_of_blank before).append ?_)
      exact .char (by decide) (fun _ => rfl) ((closed_of_blank after).append ih)

theorem Value.Prints.closed (prints : value.Prints text) :
    Closed commas text := by
  cases prints with
  | string printed => exact printed.closed
  | strings before listed after =>
      have inner := listed.closed fun _ _ printed => printed.closed
      have inside := (closed_of_blank before).append
        (inner.append (closed_of_blank after))
      have braces := @Closed.braces commas _ _ inside .nil
      simpa using braces
  | name _ plain => exact closed_of_plain plain

theorem Argument.Prints.closed (prints : argument.Prints text) :
    Closed commas text := by
  cases prints with
  | bare printed => exact printed.closed
  | named _ plain before after printed =>
      refine (closed_of_plain plain).append
        ((closed_of_blank before).append (.char (by decide) (by simp) ?_))
      exact (closed_of_blank after).append printed.closed

theorem solid_of_plain (plain : ∀ c ∈ text, isPlain c = true) :
    ∀ c ∈ text, isBlank c = false := by
  intro c member
  have here := plain c member
  simp only [isPlain, Bool.and_eq_true, Bool.not_eq_true'] at here
  exact here.1

/-- A value is printed without white space around it. -/
theorem Value.Prints.bounds (prints : value.Prints text) :
    Starts text ∧ Ends text := by
  cases prints with
  | @string text printed printedString =>
      obtain ⟨-, rfl⟩ := printedString
      have ends : Ends ('"' :: text ++ ['"']) :=
        Ends.append ⟨'"', rfl, by decide⟩
      exact ⟨⟨'"', rfl, by decide⟩, ends⟩
  | @strings texts before inner after =>
      have shape : '\x7b' :: (before ++ (inner ++ (after ++ ['\x7d']))) =
          '\x7b' :: (before ++ inner ++ after) ++ ['\x7d'] := by simp
      refine ⟨⟨'\x7b', rfl, by decide⟩, ?_⟩
      rw [shape]
      exact Ends.append ⟨'\x7d', rfl, by decide⟩
  | name filled plain =>
      have solid := solid_of_plain plain
      exact ⟨starts_of_solid filled solid, ends_of_solid filled solid⟩

theorem Argument.Prints.bounds (prints : argument.Prints text) :
    Starts text ∧ Ends text := by
  cases prints with
  | bare printed => exact printed.bounds
  | @named name _ before after text filled plain _ _ printed =>
      refine ⟨(starts_of_solid filled (solid_of_plain plain)).append, ?_⟩
      have shape : name.toList ++ (before ++ '=' :: (after ++ text)) =
          name.toList ++ before ++ '=' :: after ++ text := by simp
      rw [shape]
      exact printed.bounds.2.append

theorem Listed.bounds (listed : Listed Argument.Prints arguments text)
    (filled : arguments ≠ []) : Starts text ∧ Ends text := by
  induction listed with
  | nil => exact absurd rfl filled
  | only printed => exact printed.bounds
  | @cons item next items text before after more printed _ _ _ ih =>
      refine ⟨printed.bounds.1.append, ?_⟩
      have shape : text ++ (before ++ ',' :: (after ++ more)) =
          text ++ before ++ ',' :: after ++ more := by simp
      rw [shape]
      exact (ih (by simp)).2.append

end Printing

/-! ## Splitting printed arguments -/

/-- How an argument is printed with white space around it. -/
def Padded (argument : Argument) (piece : List Char) : Prop :=
  ∃ before text after, piece = before ++ text ++ after ∧
    (∀ c ∈ before, isBlank c = true) ∧ argument.Prints text ∧
    ∀ c ∈ after, isBlank c = true

section Splitting

variable {arguments : List Argument} {text : List Char}

/-- The arguments are told apart by the commas between them. -/
theorem forall₂_pieces (listed : Listed Argument.Prints arguments text)
    {front : List Char} (white : ∀ c ∈ front, isBlank c = true) :
    List.Forall₂ Padded arguments
      ((piecesFrom 0 false front.reverse text).filter
        fun piece => !isAllBlank piece) := by
  have kept : ∀ {argument : Argument} {before text after : List Char},
      argument.Prints text →
        (!isAllBlank (before ++ text ++ after)) = true := by
    intro argument before text after printed
    rw [printed.bounds.1.isAllBlank]
    rfl
  have ground : (0 : Int) ≤ 0 := Int.le_refl 0
  induction listed generalizing front with
  | nil =>
      have blank : isAllBlank front = true := List.all_eq_true.mpr white
      simp [piecesFrom, blank]
  | @only argument text printed =>
      have closed : Closed false text := printed.closed
      have whole := closed.piecesFrom_append ground (by simp) front.reverse []
      have here : (!isAllBlank (front ++ text ++ [])) = true := kept printed
      rw [List.append_nil] at whole here
      rw [whole, piecesFrom]
      simp only [List.reverse_append, List.reverse_reverse]
      rw [List.filter_cons_of_pos (p := fun piece => !isAllBlank piece) here]
      exact .cons ⟨front, text, [], by simp, white, printed, by simp⟩ .nil
  | @cons argument next items text before after more printed blank blankToo _
      ih =>
      have closed : Closed false (text ++ before) :=
        printed.closed.append (closed_of_blank blank)
      have gapClosed : Closed false after := closed_of_blank blankToo
      have whole := closed.piecesFrom_append ground (by simp) front.reverse
        (',' :: (after ++ more))
      have gap := gapClosed.piecesFrom_append ground (by simp) [] more
      have here : (!isAllBlank (front ++ text ++ before)) = true := kept printed
      rw [← List.append_assoc, whole, piecesFrom, if_neg (by simp),
        if_neg (by simp), if_neg (by simp), if_neg (by simp),
        if_pos (by simp), gap]
      · simp only [List.reverse_append, List.reverse_reverse, List.append_nil,
          ← List.append_assoc]
        rw [List.filter_cons_of_pos (p := fun piece => !isAllBlank piece) here]
        exact .cons ⟨front, text, before, rfl, white, printed, blank⟩
          (ih blankToo)
      · simp

theorem forall₂_splitArguments
    (listed : Listed Argument.Prints arguments text) :
    List.Forall₂ Padded arguments (splitArguments text) := by
  have nothing : ∀ c ∈ ([] : List Char), isBlank c = true := by simp
  exact forall₂_pieces listed nothing

end Splitting

/-!
## Strings in a printed value

The strings that are found in a printed value are those of the value, whatever
characters stand in them.
-/

open Text.Pattern (is group many noneOf opt blanks textStart concat groupsFrom)

section Strings

variable {value : Value} {previous : Option Char} {text rest : List Char}
  {place : Pattern.Place}

theorem leads_anyString (verbatim : ∀ c ∈ text, isVerbatim c = true)
    (split : place.rest = inQuotes text ++ rest) :
    anyString.Leads place
      (((place.past ['"'] (text ++ '"' :: rest)).keep 1 text
        ('"' :: rest)).past ['"'] rest) := by
  have opens : (is '"').Leads place (place.past ['"'] (text ++ '"' :: rest)) :=
    (Pattern.readsOne_char _).reads (by simp [split, inQuotes]) (by simp)
  have noQuote : ∀ c ∈ text, (!"\"".toList.contains c) = true := by
    intro c member
    have here := verbatim c member
    simp_all [isVerbatim]
  have reads := Pattern.leads_many (Pattern.readsOne_char _)
    (Pattern.Place.past_rest place ['"'] (text ++ '"' :: rest)) noQuote
    (by simp)
  have closes : (is '"').Leads
      ((place.past ['"'] (text ++ '"' :: rest)).keep 1 text ('"' :: rest))
      (((place.past ['"'] (text ++ '"' :: rest)).keep 1 text
        ('"' :: rest)).past ['"'] rest) :=
    (Pattern.readsOne_char _).reads (Pattern.Place.keep_rest ..) (by simp)
  exact opens.seq ((Pattern.Leads.group reads).seq closes)

theorem group_anyString (verbatim : ∀ c ∈ text, isVerbatim c = true) :
    (groupsFrom anyString previous (inQuotes text ++ rest)).map (· 1) =
      text :: (groupsFrom anyString (some '"') rest).map (· 1) := by
  have leads := @leads_anyString text rest
    ⟨previous, inQuotes text ++ rest, 0, []⟩ verbatim rfl
  have ends : ('"' :: text ++ ['"']).getLast? = some '"' :=
    List.getLast?_concat
  change (inQuotes text).getLast? = some '"' at ends
  rw [Pattern.groupsFrom_of_leads (by simp [inQuotes]) leads
    (by simp [inQuotes, Pattern.Place.keep]; omega) (by simp), ends]
  simp [Pattern.Match.group, Pattern.group?_ending]

theorem groupsFrom_unquoted {gap : List Char}
    (plain : ∀ c ∈ gap, c ≠ '"') (rest : List Char) :
    groupsFrom anyString previous (gap ++ rest) =
      groupsFrom anyString (gap.getLast?.or previous) rest := by
  induction gap generalizing previous with
  | nil => rfl
  | cons c gap ih =>
      have here := plain c List.mem_cons_self
      have fails : anyString.ways ⟨previous, c :: (gap ++ rest), 0, []⟩ = [] :=
        Pattern.ways_seq_of_left (ways_is_of_ne (by simpa using here))
      rw [List.cons_append, Pattern.groupsFrom_cons fails,
        ih fun d member => plain d (.tail c member)]
      simp [List.getLast?_cons, Option.or_some]

theorem no_quote_of_blank {gap : List Char}
    (white : ∀ c ∈ gap, isBlank c = true) : ∀ c ∈ gap, c ≠ '"' := by
  rintro c member rfl
  cases white _ member

theorem no_quote_of_plain {word : List Char}
    (plain : ∀ c ∈ word, isPlain c = true) : ∀ c ∈ word, c ≠ '"' := by
  rintro c member rfl
  cases plain _ member

theorem groups_unquoted (plain : ∀ c ∈ text, c ≠ '"') :
    groupsFrom anyString previous text = [] := by
  have all := @groupsFrom_unquoted previous text plain []
  rw [List.append_nil] at all
  rw [all]
  rfl

/-- The strings of a list are found in order. -/
theorem groups_listed {texts : List (List Char)}
    (listed : Listed PrintsString texts text) (plain : ∀ c ∈ rest, c ≠ '"') :
    (groupsFrom anyString previous (text ++ rest)).map (· 1) = texts := by
  induction listed generalizing previous with
  | nil => rw [List.nil_append, groups_unquoted plain, List.map_nil]
  | only printed =>
      obtain ⟨verbatim, rfl⟩ := printed
      rw [group_anyString verbatim, groups_unquoted plain, List.map_nil]
  | @cons item next items _ before after more printed blank blankToo _ ih =>
      obtain ⟨verbatim, rfl⟩ := printed
      have gap : ∀ c ∈ before ++ ',' :: after, c ≠ '"' := by
        have one := no_quote_of_blank blank
        have two := no_quote_of_blank blankToo
        simp only [List.mem_append, List.mem_cons]
        rintro c (early | rfl | late)
        · exact one c early
        · decide
        · exact two c late
      have shape : inQuotes item ++ (before ++ ',' :: (after ++ more)) ++ rest =
          inQuotes item ++ ((before ++ ',' :: after) ++ (more ++ rest)) := by
        simp
      rw [shape, group_anyString verbatim, groupsFrom_unquoted gap, ih]

/-- The strings in a printed value are those of the value. -/
theorem Value.Prints.searchAll_anyString (prints : value.Prints text) :
    (anyString.searchAll text).map (fun found => found.group 1) =
      value.literals := by
  have groups : (anyString.searchAll text).map (fun found => found.group 1) =
      (groupsFrom anyString none text).map (· 1) := by
    rw [groupsFrom, Pattern.searchAll_eq, List.map_map]
    rfl
  rw [groups]
  cases prints with
  | string printed =>
      have listed : Listed PrintsString [_] text := .only printed
      have found := @groups_listed none text [] _ listed (by simp)
      rwa [List.append_nil] at found
  | @strings texts before inner after white listed whiteToo =>
      have front : ∀ c ∈ '\x7b' :: before, c ≠ '"' := by
        simpa using no_quote_of_blank white
      have back : ∀ c ∈ after ++ ['\x7d'], c ≠ '"' := by
        have blank := no_quote_of_blank whiteToo
        simp only [List.mem_append, List.mem_singleton]
        rintro c (early | rfl)
        · exact blank c early
        · decide
      have found := @groupsFrom_unquoted none _ front
        (inner ++ (after ++ ['\x7d']))
      rw [List.cons_append] at found
      rw [found, groups_listed listed back]
      rfl
  | name _ plain =>
      rw [groups_unquoted (no_quote_of_plain plain)]
      rfl

theorem search_firstString_eq_none (plain : ∀ c ∈ text, c ≠ '"') :
    firstString.search text = none := by
  have shape : firstString = .seq textStart
      (concat ([blanks, opt (is '\x7b'), blanks] ++
        [is '"', group 1 (many (noneOf "\"")), is '"'])) := rfl
  rw [shape]
  refine Pattern.search_textStart_eq_none ?_
  rw [Pattern.ways_concat_append, List.flatMap_eq_nil_iff]
  intro place way
  obtain ⟨front, split, -⟩ := (Pattern.follows_of_mem_ways way).reads
  have other : place.rest.head? ≠ some '"' := by
    intro first
    have whole : text = front ++ place.rest := split
    refine plain '"' ?_ rfl
    rw [whole, List.mem_append]
    exact .inr (List.mem_of_mem_head? first)
  rw [Pattern.ways_concat_cons, ways_is_of_ne other]
  rfl

theorem leads_no_blanks (solid : ∀ c ∈ place.rest.head?, isBlank c = false) :
    blanks.Leads place place := by
  have leads := @Pattern.leads_blanks place [] place.rest rfl (by simp) solid
  rwa [Pattern.Place.past_nil rfl] at leads

/-- The string that is found leads the text, in braces or not. -/
theorem group_search_firstString {inner : List Char}
    (verbatim : ∀ c ∈ inner, isVerbatim c = true)
    (shape : text = inQuotes inner ++ rest ∨ ∃ gap,
      (∀ c ∈ gap, isBlank c = true) ∧
        text = '\x7b' :: (gap ++ (inQuotes inner ++ rest))) :
    (firstString.search text).map (fun found => found.group 1) =
      some inner := by
  have start : textStart.Leads (.start [] text) (.start [] text) :=
    Pattern.leads_textStart rfl
  have settled : ∀ after, firstString.Leads (.start [] text) after →
      after.groups.head? = some (1, inner ++ '"' :: rest, inner.length) →
      (firstString.search text).map (fun found => found.group 1) =
        some inner := by
    intro after leads kept
    obtain ⟨others, groups⟩ := List.head?_eq_some_iff.mp kept
    rw [Pattern.search_of_leads_start leads, Option.map_some,
      Pattern.Match.group, Pattern.group?_ending, groups]
    simp
  have quote : ∀ c ∈ (inQuotes inner ++ rest).head?, isBlank c = false :=
    refuses_some (by decide)
  rcases shape with rfl | ⟨gap, white, rfl⟩
  · let place := Pattern.Place.start [] (inQuotes inner ++ rest)
    have gap : blanks.Leads place place := leads_no_blanks quote
    have noBrace : (opt (is '\x7b')).Leads place place :=
      Pattern.leads_opt_of_fails (ways_is_of_ne (by
        simp [place, Pattern.Place.start, inQuotes]))
    exact settled _ (start.seq (gap.seq (noBrace.seq
      (gap.seq (leads_anyString verbatim rfl))))) rfl
  · let place := Pattern.Place.start []
      ('\x7b' :: (gap ++ (inQuotes inner ++ rest)))
    let inside := place.past ['\x7b'] (gap ++ (inQuotes inner ++ rest))
    have noGap : blanks.Leads place place :=
      leads_no_blanks (refuses_some (by decide))
    have brace : (is '\x7b').Leads place inside :=
      (Pattern.readsOne_char _).reads rfl rfl
    have blank : blanks.Leads inside
        (inside.past gap (inQuotes inner ++ rest)) :=
      Pattern.leads_blanks rfl white quote
    exact settled _ (start.seq (noGap.seq (brace.opt.seq
      (blank.seq (leads_anyString verbatim rfl))))) rfl

/-- The first string in a printed value is the first one of the value. -/
theorem Value.Prints.search_firstString (prints : value.Prints text) :
    (firstString.search text).map (fun found => found.group 1) =
      value.literals.head? := by
  cases prints with
  | string printed =>
      obtain ⟨verbatim, rfl⟩ := printed
      exact group_search_firstString verbatim (.inl (List.append_nil _).symm)
  | @strings texts before inner after white listed whiteToo =>
      cases listed with
      | nil =>
          have plain : ∀ c ∈ '\x7b' :: (before ++ ([] ++ (after ++ ['\x7d']))),
              c ≠ '"' := by
            have one := no_quote_of_blank white
            have two := no_quote_of_blank whiteToo
            simp only [List.nil_append, List.mem_cons, List.mem_append,
              List.not_mem_nil, or_false]
            rintro c (rfl | early | late | rfl)
            · decide
            · exact one c early
            · exact two c late
            · decide
          rw [search_firstString_eq_none plain]
          rfl
      | only printed =>
          obtain ⟨verbatim, rfl⟩ := printed
          exact group_search_firstString verbatim (.inr ⟨before, white, rfl⟩)
      | cons printed =>
          obtain ⟨verbatim, rfl⟩ := printed
          exact group_search_firstString verbatim
            (.inr ⟨before, white, by rw [List.append_assoc]⟩)
  | name _ plain =>
      rw [search_firstString_eq_none (no_quote_of_plain plain)]
      rfl

end Strings

end ArchSurvey.Declaration
