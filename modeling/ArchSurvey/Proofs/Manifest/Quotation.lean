import ArchSurvey.Manifest.Requirement
import ArchSurvey.Proofs.Text.Blank
import ArchSurvey.Proofs.Text.Occurrences

/-!
# Quoted texts

A text in quotation marks goes up to the next mark of the same kind, and a mark
without another one behind it is passed over.  A text that leaves no mark open
does not change what is quoted behind it (`quotedTexts_append`).
-/

namespace ArchSurvey.Manifest.Requirement

open Text
open Text.Pattern (Place Leads concat oneOf group many noneOf is matchesFrom
  readsOne_char leads_many ways_seq_eq_nil)

/-- A single or double quotation mark. -/
def isQuote (c : Char) : Bool :=
  c == '"' || c == '\''

/-! ## One quoted text -/

/-- A text between two marks that does not have this mark. -/
def quotation (number : Nat) (mark : Char) (letters : String) : Pattern :=
  concat [is mark, group number (many (noneOf letters)), is mark]

theorem quoted_eq :
    quoted = .alt (quotation 1 '"' "\"") (quotation 2 '\'' "'") :=
  rfl

section Quotations

variable {number : Nat} {mark : Char} {letters : String} {place : Place}
  {text rest : List Char} (alone : letters.toList = [mark])

include alone

theorem leads_quotation (split : place.rest = mark :: (text ++ mark :: rest))
    (absent : mark ∉ text) :
    ∃ after, Leads (quotation number mark letters) place after ∧
      after.rest = rest ∧ after.read = place.read + (text.length + 2) ∧
      after.groups =
        (number, text ++ mark :: rest, text.length) :: place.groups := by
  let opened := place.past [mark] (text ++ mark :: rest)
  let kept := opened.keep number text (mark :: rest)
  have one : Leads (is mark) place opened :=
    (readsOne_char _).reads split (by simp)
  have two : Leads (many (noneOf letters)) opened
      (opened.past text (mark :: rest)) := by
    refine leads_many (readsOne_char _) rfl (fun c member => ?_)
      (by simp [alone])
    have other : c ≠ mark := fun same => absent (same ▸ member)
    simpa [alone] using other
  have three : Leads (is mark) kept (kept.past [mark] rest) :=
    (readsOne_char _).reads rfl (by simp)
  refine ⟨_, one.seq (two.group.seq three), rfl, ?_, rfl⟩
  simp [kept, opened, Place.keep]
  omega

/-- No text is quoted where no mark stands, or none behind it. -/
theorem quotation_fails
    (unclosed : ∀ rest, place.rest = mark :: rest → mark ∉ rest) :
    (quotation number mark letters).ways place = [] := by
  refine ways_seq_eq_nil.mpr fun opened first => ?_
  obtain ⟨c, rest, split, same, rfl⟩ := Pattern.eq_past_of_mem_ways_char first
  obtain rfl := beq_iff_eq.mp same
  refine ways_seq_eq_nil.mpr fun closed inGroup => ?_
  obtain ⟨inside, way, rfl⟩ := List.mem_map.mp inGroup
  obtain ⟨text, last, equal, -, rfl⟩ := Pattern.eq_past_of_mem_roundWays way
  rw [Place.past_rest] at equal
  refine (readsOne_char _).stops fun d head => ?_
  have other : d ≠ c := by
    rintro rfl
    refine unclosed rest split (equal ▸ List.mem_append_right text ?_)
    exact List.mem_of_mem_head? head
  simpa using other

end Quotations

/-! ## All quoted texts -/

/-- What is quoted behind a character. -/
def quotedFrom (previous : Option Char) (text : List Char) :
    List (List Char) :=
  (matchesFrom quoted previous text).map fun found =>
    (found.group? 1).getD (found.group 2)

section Reading

variable {previous : Option Char} {c mark : Char} {inside text rest : List Char}

theorem quotedFrom_skip
    (unclosed : ∀ mark, isQuote mark = true → mark = c → mark ∉ rest) :
    quotedFrom previous (c :: rest) = quotedFrom (some c) rest := by
  have fails (number : Nat) (mark : Char) (letters : String)
      (alone : letters.toList = [mark]) (quote : isQuote mark = true) :
      (quotation number mark letters).ways ⟨previous, c :: rest, 0, []⟩ =
        [] := by
    refine quotation_fails alone fun others split => ?_
    obtain ⟨rfl, rfl⟩ := List.cons.inj split
    exact unclosed c quote rfl
  have nothing : quoted.ways ⟨previous, c :: rest, 0, []⟩ = [] := by
    rw [quoted_eq]
    exact Pattern.ways_alt_eq_nil (fails 1 '"' _ rfl (by decide))
      (fails 2 '\'' _ rfl (by decide))
  rw [quotedFrom, quotedFrom, Pattern.matchesFrom_cons nothing]
  cases matchesFrom quoted (some c) rest <;> rfl

theorem quotedFrom_quotation (quote : isQuote mark = true)
    (absent : mark ∉ inside) :
    quotedFrom previous (mark :: (inside ++ mark :: rest)) =
      inside :: quotedFrom (some mark) rest := by
  let place : Place := ⟨previous, mark :: (inside ++ mark :: rest), 0, []⟩
  have leads : ∃ after, Leads quoted place after ∧ after.rest = rest ∧
      after.read = inside.length + 2 ∧
      ((Pattern.Match.ending [] place.rest after).group? 1).getD
        ((Pattern.Match.ending [] place.rest after).group 2) = inside := by
    rw [isQuote, Bool.or_eq_true, beq_iff_eq, beq_iff_eq] at quote
    rcases quote with rfl | rfl
    · obtain ⟨after, leads, last, read, groups⟩ :=
        @leads_quotation 1 '"' "\"" place inside rest rfl rfl absent
      refine ⟨after, ?_, last, by simpa [place] using read, ?_⟩
      · rw [quoted_eq]
        exact leads.left
      · simp [Pattern.group?_ending, groups, place]
    · obtain ⟨after, leads, last, read, groups⟩ :=
        @leads_quotation 2 '\'' "'" place inside rest rfl rfl absent
      have fails : (quotation 1 '"' "\"").ways place = [] :=
        quotation_fails rfl fun others split => by
          have impossible := (List.cons.inj split).1
          exact absurd impossible (by decide)
      refine ⟨after, ?_, last, by simpa [place] using read, ?_⟩
      · rw [quoted_eq]
        exact Leads.right fails leads
      · simp [Pattern.group?_ending, Pattern.Match.group, groups, place,
          List.lookup_cons]
  obtain ⟨after, leads, last, read, group⟩ := leads
  let text := mark :: (inside ++ [mark])
  have whole : mark :: (inside ++ mark :: rest) = text ++ rest := by
    simp [text]
  have final : text.getLast? = some mark :=
    List.getLast?_eq_some_iff.mpr ⟨mark :: inside, rfl⟩
  have found := @Pattern.matchesFrom_of_leads quoted previous text rest after
    (by simp [text]) (by simpa [← whole] using leads) (by simp [read, text])
    last
  rw [quotedFrom, whole, found, List.map_cons, final, ← whole]
  exact congrArg (· :: _) group

theorem quotedTexts_eq (text : List Char) :
    quotedTexts text = quotedFrom none text :=
  rfl

/-- The character in front of a text does not matter. -/
theorem quotedFrom_eq (previous : Option Char) (text : List Char) :
    quotedFrom previous text = quotedTexts text := by
  rw [quotedTexts_eq]
  cases text with
  | nil => rfl
  | cons c rest =>
      by_cases closed : isQuote c = true ∧ c ∈ rest
      · obtain ⟨quote, member⟩ := closed
        obtain ⟨inside, more, rfl, absent⟩ :=
          List.eq_append_cons_of_mem member
        rw [quotedFrom_quotation quote absent,
          quotedFrom_quotation quote absent]
      · have unclosed : ∀ mark, isQuote mark = true → mark = c →
            mark ∉ rest := by
          rintro mark quote rfl member
          exact closed ⟨quote, member⟩
        rw [quotedFrom_skip unclosed, quotedFrom_skip unclosed]

@[simp] theorem quotedTexts_nil : quotedTexts [] = [] :=
  rfl

theorem quotedTexts_cons (other : isQuote c = false) (rest : List Char) :
    quotedTexts (c :: rest) = quotedTexts rest := by
  rw [quotedTexts_eq, quotedFrom_skip, quotedFrom_eq]
  rintro mark quote rfl
  rw [other] at quote
  cases quote

theorem quotedTexts_unclosed (absent : mark ∉ rest) :
    quotedTexts (mark :: rest) = quotedTexts rest := by
  rw [quotedTexts_eq, quotedFrom_skip, quotedFrom_eq]
  rintro c - rfl
  exact absent

theorem quotedTexts_quotation (quote : isQuote mark = true)
    (absent : mark ∉ inside) (rest : List Char) :
    quotedTexts (mark :: (inside ++ mark :: rest)) =
      inside :: quotedTexts rest := by
  rw [quotedTexts_eq, quotedFrom_quotation quote absent, quotedFrom_eq]

/-- Nothing is quoted without a mark. -/
theorem quotedTexts_append_left
    (plain : ∀ c ∈ text, isQuote c = false) (rest : List Char) :
    quotedTexts (text ++ rest) = quotedTexts rest := by
  induction text with
  | nil => rfl
  | cons c text ih =>
      obtain ⟨here, later⟩ := List.forall_mem_cons.mp plain
      rw [List.cons_append, quotedTexts_cons here, ih later]

end Reading

/-! ## Open marks -/

/-- The mark that is open after one more character. -/
def turnMark : Option Char → Char → Option Char
  | none, c => if isQuote c then some c else none
  | some mark, c => if c = mark then none else some mark

/-- Each quotation mark of the text belongs to a quoted text. -/
def Closed (text : List Char) : Prop :=
  text.foldl turnMark none = none

instance : DecidablePred Closed := fun _ =>
  inferInstanceAs (Decidable (_ = _))

section Marks

variable {mark : Char} {before after text : List Char}

theorem foldl_turnMark_of_not_mem (absent : mark ∉ text) :
    text.foldl turnMark (some mark) = some mark := by
  induction text with
  | nil => rfl
  | cons c text ih =>
      rw [List.mem_cons, not_or] at absent
      have other : c ≠ mark := fun same => absent.1 same.symm
      rw [List.foldl_cons, turnMark, if_neg other, ih absent.2]

/-- An open mark is closed by the next one of the same kind. -/
theorem foldl_turnMark_quotation (absent : mark ∉ text) (rest : List Char) :
    (text ++ mark :: rest).foldl turnMark (some mark) =
      rest.foldl turnMark none := by
  rw [List.foldl_append, foldl_turnMark_of_not_mem absent, List.foldl_cons,
    turnMark, if_pos rfl]

theorem closed_nil : Closed [] :=
  rfl

theorem closed_cons_iff {c : Char} (other : isQuote c = false) :
    Closed (c :: text) ↔ Closed text := by
  rw [Closed, List.foldl_cons, turnMark, other]
  rfl

theorem closed_quotation_iff {inside : List Char} (quote : isQuote mark = true)
    (absent : mark ∉ inside) :
    Closed (mark :: (inside ++ mark :: text)) ↔ Closed text := by
  rw [Closed, List.foldl_cons, turnMark, quote, if_pos rfl,
    foldl_turnMark_quotation absent]
  rfl

/-- A text ends in a mark that is open or has none. -/
theorem closed_or_exists_open (text : List Char) :
    Closed text ∨ ∃ front mark rest, text = front ++ mark :: rest ∧
      Closed front ∧ isQuote mark = true ∧ mark ∉ rest := by
  induction length : text.length using Nat.strongRecOn generalizing text with
  | _ length ih =>
      subst length
      cases text with
      | nil => exact .inl closed_nil
      | cons c text =>
          cases quote : isQuote c with
          | false =>
              rcases ih text.length (by simp) text rfl with
                closed | ⟨front, mark, rest, rfl, closed, isMark, absent⟩
              · exact .inl ((closed_cons_iff quote).mpr closed)
              · exact .inr ⟨c :: front, mark, rest, rfl,
                  (closed_cons_iff quote).mpr closed, isMark, absent⟩
          | true =>
              by_cases member : c ∈ text
              · obtain ⟨inside, more, rfl, absent⟩ :=
                  List.eq_append_cons_of_mem member
                rcases ih more.length (by simp; omega) more rfl with
                  closed | ⟨front, mark, rest, rfl, closed, isMark, lacks⟩
                · exact .inl ((closed_quotation_iff quote absent).mpr closed)
                · exact .inr ⟨c :: (inside ++ c :: front), mark, rest,
                    by simp, (closed_quotation_iff quote absent).mpr closed,
                    isMark, lacks⟩
              · exact .inr ⟨[], c, text, rfl, closed_nil, quote, member⟩

theorem not_closed_of_open (closed : Closed before)
    (quote : isQuote mark = true) (absent : mark ∉ after) : ¬Closed (before ++ mark :: after) := by
  rw [Closed, List.foldl_append, show before.foldl turnMark none = none from
    closed, List.foldl_cons, turnMark, if_pos quote,
    foldl_turnMark_of_not_mem absent]
  simp

theorem closed_of_plain (plain : ∀ c ∈ text, isQuote c = false) :
    Closed text := by
  induction text with
  | nil => exact closed_nil
  | cons c text ih =>
      obtain ⟨here, later⟩ := List.forall_mem_cons.mp plain
      exact (closed_cons_iff here).mpr (ih later)

theorem Closed.append (first : Closed before) (second : Closed after) :
    Closed (before ++ after) := by
  rw [Closed, List.foldl_append, show before.foldl turnMark none = none from
    first]
  exact second

/-- What is quoted in a closed text does not depend on what stands behind. -/
theorem quotedTexts_append (closed : Closed before) (after : List Char) :
    quotedTexts (before ++ after) =
      quotedTexts before ++ quotedTexts after := by
  induction length : before.length using Nat.strongRecOn
      generalizing before with
  | _ length ih =>
      subst length
      cases before with
      | nil => rfl
      | cons c text =>
          cases quote : isQuote c with
          | false =>
              rw [List.cons_append, quotedTexts_cons quote,
                quotedTexts_cons quote]
              exact ih text.length (by simp) ((closed_cons_iff quote).mp closed)
                rfl
          | true =>
              have member : c ∈ text := by
                by_contra absent
                rw [Closed, List.foldl_cons, turnMark, if_pos quote,
                  foldl_turnMark_of_not_mem absent] at closed
                cases closed
              obtain ⟨inside, more, rfl, absent⟩ :=
                List.eq_append_cons_of_mem member
              have later := ih more.length (by simp; omega)
                ((closed_quotation_iff quote absent).mp closed) rfl
              rw [quotedTexts_quotation quote absent, List.cons_append,
                List.append_assoc, List.cons_append,
                quotedTexts_quotation quote absent, later, List.cons_append]

theorem quotedTexts_of_plain (plain : ∀ c ∈ text, isQuote c = false) :
    quotedTexts text = [] := by
  have skips := quotedTexts_append_left plain []
  rwa [List.append_nil] at skips

theorem isQuote_of_isBlank {c : Char} (white : isBlank c = true) :
    isQuote c = false :=
  forall_blank (isQuote · = false) (by decide) white

/-- Trimming takes nothing away from what is quoted in a closed text. -/
theorem Closed.trim (closed : Closed text) :
    Closed (trim text) ∧ quotedTexts (trim text) = quotedTexts text := by
  obtain ⟨front, back, white, whiteToo, split⟩ := exists_trim text
  have plain : ∀ c ∈ front, isQuote c = false := fun c member =>
    isQuote_of_isBlank (white c member)
  have plainToo : ∀ c ∈ back, isQuote c = false := fun c member =>
    isQuote_of_isBlank (whiteToo c member)
  have rest : Closed (Text.trim text ++ back) := by
    rw [split, Closed, List.foldl_append, show front.foldl turnMark none = none
      from closed_of_plain plain] at closed
    exact closed
  have left : Closed (Text.trim text) := by
    rcases closed_or_exists_open (Text.trim text) with
      closed | ⟨first, mark, last, open_, begun, quote, absent⟩
    · exact closed
    · have lacks : mark ∉ last ++ back := by
        refine List.not_mem_append absent fun member => ?_
        rw [plainToo mark member] at quote
        cases quote
      rw [open_, List.append_assoc, List.cons_append] at rest
      exact absurd rest (not_closed_of_open begun quote lacks)
  refine ⟨left, ?_⟩
  calc quotedTexts (Text.trim text)
      = quotedTexts (Text.trim text) ++ quotedTexts back := by
        rw [quotedTexts_of_plain plainToo, List.append_nil]
    _ = quotedTexts (front ++ (Text.trim text ++ back)) := by
        rw [quotedTexts_append_left plain, quotedTexts_append left]
    _ = quotedTexts text := by rw [← split]

end Marks

end ArchSurvey.Manifest.Requirement
