import ArchSurvey.Proofs.Schema.Clauses

/-!
# Types of columns

The text of a type falls apart into the texts of its parts, none of which is a
keyword of columns or has a space outside its parentheses.
-/

namespace ArchSurvey.Schema

open Text
open Text.Pattern (Spells sameLetter)

section Cases

variable {letters text : List Char}

theorem Cased.exists_append {before after : List Char}
    (cased : Cased (before ++ after) text) :
    ∃ front back, text = front ++ back ∧ Cased before front ∧
      Cased after back := by
  induction before generalizing text with
  | nil => exact ⟨[], text, rfl, .nil, cased⟩
  | cons letter before ih =>
      obtain ⟨c, rest, same, others, rfl⟩ := List.forall₂_cons_left_iff.mp cased
      obtain ⟨front, back, rfl, one, two⟩ := ih others
      exact ⟨c :: front, back, rfl, .cons same one, two⟩

/-- A mark without case stands for itself. -/
theorem Cased.exists_cons {mark : Char} (caseless : mark.toUpper = mark)
    (cased : Cased (mark :: letters) text) :
    ∃ rest, text = mark :: rest ∧ Cased letters rest := by
  obtain ⟨c, rest, same, others, rfl⟩ := List.forall₂_cons_left_iff.mp cased
  rw [caseless, or_self] at same
  exact ⟨rest, by rw [same], others⟩

theorem Cased.exists_join {parts : List (List Char)}
    (cased : Cased (joinWith [' '] parts) text) (filled : parts ≠ []) :
    ∃ texts, text = joinWith [' '] texts ∧
      List.Forall₂ Cased parts texts := by
  induction parts generalizing text with
  | nil => exact absurd rfl filled
  | cons part parts ih =>
      by_cases last : parts = []
      · subst last
        rw [joinWith_singleton] at cased
        exact ⟨[text], (joinWith_singleton text).symm, .cons cased .nil⟩
      · rw [joinWith_cons last, List.append_assoc] at cased
        obtain ⟨front, back, rfl, one, others⟩ := cased.exists_append
        obtain ⟨rest, rfl, later⟩ := Cased.exists_cons (by decide) others
        obtain ⟨texts, rfl, each⟩ := ih later last
        have more : texts ≠ [] := by
          rintro rfl
          exact last (List.forall₂_nil_right_iff.mp each)
        exact ⟨front :: texts, by simp [joinWith_cons more], .cons one each⟩

theorem toLower_of_mem : ∀ letter ∈ typeLetters,
    letter.toLower = letter ∧ letter.toUpper.toLower = letter := by
  decide

theorem isWordChar_toLower_of_mem : ∀ letter ∈ typeLetters,
    isWordChar letter.toLower = isWordChar letter ∧
      isWordChar letter.toUpper.toLower = isWordChar letter.toUpper := by
  decide

theorem eq_space_of_mem : ∀ letter ∈ typeLetters,
    (isBlank letter = true → letter = ' ') ∧
      (isBlank letter.toUpper = true → letter.toUpper = ' ') := by
  decide

theorem sameLetter_toLower {letter c : Char} (plain : letter ∈ nameLetters)
    (same : sameLetter letter c = true) :
    sameLetter letter c.toLower = true := by
  simp only [sameLetter, Bool.or_eq_true, Bool.and_eq_true, beq_iff_eq]
    at same
  have own : sameLetter letter letter = true :=
    (sameLetter_of_mem letter plain).1
  have lower := toLower_of_mem letter (mem_typeLetters plain)
  rcases same with ((rfl | rfl) | ⟨rfl, rfl⟩) | ⟨rfl, rfl⟩
  · rwa [lower.1]
  · rwa [lower.2]
  · decide
  · decide

theorem Spells.map_toLower {word run : List Char}
    (plain : ∀ c ∈ word, c ∈ nameLetters) (spelled : Spells word run) :
    Spells word (run.map Char.toLower) := by
  induction spelled with
  | nil => exact .nil
  | cons same _ ih =>
      exact .cons (sameLetter_toLower (plain _ List.mem_cons_self) same)
        (ih fun c member => plain c (List.mem_cons_of_mem _ member))

theorem splitFrom_map {p : Char → Bool} {image : Char → Char}
    (stable : ∀ c ∈ text, p (image c) = p c) (piece : List Char) :
    splitFrom p (piece.map image) (text.map image) =
      (splitFrom p piece text).map (List.map image) := by
  induction text generalizing piece with
  | nil => simp [splitFrom]
  | cons c text ih =>
      have later : ∀ d ∈ text, p (image d) = p d := fun d member =>
        stable d (List.mem_cons_of_mem c member)
      rw [List.map_cons, splitFrom, splitFrom, stable c List.mem_cons_self]
      split
      · have rest := ih later []
        rw [List.map_nil] at rest
        rw [rest]
        simp
      · exact ih later (c :: piece)

variable (plain : ∀ c ∈ letters, c ∈ typeLetters)

include plain

theorem Cased.map_toLower (cased : Cased letters text) :
    text.map Char.toLower = letters := by
  induction cased with
  | nil => rfl
  | cons same _ ih =>
      have forms := toLower_of_mem _ (plain _ List.mem_cons_self)
      rw [List.map_cons,
        ih fun c member => plain c (List.mem_cons_of_mem _ member)]
      rcases same with rfl | rfl
      · rw [forms.1]
      · rw [forms.2]

/-- Letter case does not matter for what a text mentions. -/
theorem Cased.mentions {word : String} (keyword : Keyword word)
    (cased : Cased letters text) (mentions : Mentions word text) :
    Mentions word letters := by
  obtain ⟨run, member, spelled⟩ := mentions
  refine ⟨run.map Char.toLower, ?_, Spells.map_toLower keyword.2 spelled⟩
  have stable : ∀ c ∈ text, isWordChar c.toLower = isWordChar c :=
    cased.forall_mem fun letter inside =>
      isWordChar_toLower_of_mem letter (plain letter inside)
  have mapped : splitWhen (fun c => !isWordChar c) letters =
      (splitWhen (fun c => !isWordChar c) text).map
        (List.map Char.toLower) := by
    rw [← cased.map_toLower plain]
    exact splitFrom_map (fun c inside => by simp [stable c inside]) []
  rw [mapped]
  exact List.mem_map_of_mem member

theorem Cased.spaces (cased : Cased letters text) :
    ∀ c ∈ text, isBlank c = true → c = ' ' :=
  cased.forall_mem fun letter member =>
    eq_space_of_mem letter (plain letter member)

theorem Cased.single (cased : Cased letters text)
    (single : ¬[' ', ' '] <:+: letters) : ¬[' ', ' '] <:+: text := by
  intro within
  apply single
  rw [← cased.map_toLower plain]
  exact within.map Char.toLower

end Cases

namespace TypePart

variable (part : TypePart)

theorem letters_mem : ∀ c ∈ part.text, c ∈ typeLetters := by
  intro c member
  rw [text, typePartText, List.mem_append] at member
  rcases member with inside | inside
  · exact mem_typeLetters (part.plain c inside)
  · cases given : part.arguments with
    | none => simp [given] at inside
    | some inner =>
        simp only [given, Option.elim_some, List.cons_append, List.mem_cons,
          List.mem_append, List.not_mem_nil, or_false] at inside
        rcases inside with rfl | within | rfl
        · decide
        · have here := part.inner inner given c within
          simp only [List.mem_cons] at here
          rcases here with rfl | rfl | letter
          · decide
          · decide
          · exact mem_typeLetters letter
        · decide

/-- The two shapes of a part. -/
theorem cases_text : (part.text = part.word ∧ part.word ≠ []) ∨
    ∃ inner ∈ part.arguments,
      part.text = part.word ++ '(' :: (inner ++ [')']) := by
  cases given : part.arguments with
  | none =>
      refine .inl ⟨by simp [text, typePartText, given], ?_⟩
      intro empty
      exact part.filled empty given
  | some inner => exact .inr ⟨inner, rfl, by simp [text, typePartText, given]⟩

theorem single_text : ¬[' ', ' '] <:+: part.text := by
  have noSpace : ¬[' ', ' '] <:+: part.word := by
    intro within
    have member : ' ' ∈ part.word := within.subset (by simp)
    have letter := part.plain ' ' member
    revert letter
    decide
  rcases part.cases_text with ⟨equal, -⟩ | ⟨inner, given, equal⟩
  · rwa [equal]
  · rw [equal]
    simp [infix_append_cons_iff, noSpace, part.single inner given]

/-- A part is the text of no keyword. -/
theorem text_ne {keyword : String} (member : keyword ∈ columnKeywords) :
    part.text.map Char.toUpper ≠ keyword.toList := by
  have facts : ∀ keyword ∈ columnKeywords,
      keyword.toList.map Char.toLower = (lowerString keyword).toList ∧
        ∀ c ∈ (lowerString keyword).toList, c ∈ nameLetters := by decide
  obtain ⟨lowered, plain⟩ := facts keyword member
  intro equal
  have back : (part.text.map Char.toUpper).map Char.toLower = part.text := by
    rw [List.map_map]
    conv_rhs => rw [← List.map_id part.text]
    exact List.map_congr_left fun c inside =>
      (toLower_of_mem c (part.letters_mem c inside)).2
  have letters : part.text = (lowerString keyword).toList := by
    rw [← back, equal, lowered]
  have wordly : ∀ c ∈ part.text, isWordChar c = true := fun c inside =>
    (isWordChar_of_mem c (plain c (letters ▸ inside))).1
  apply part.free keyword member
  change Mentions _ part.text
  rw [mentions_iff_spells wordly, ← letters]
  have self : Cased part.text part.text :=
    List.forall₂_same.mpr fun c _ => .inl rfl
  exact self.spells fun c inside => plain c (letters ▸ inside)

variable {part} {text : List Char} (cased : Cased part.text text)

include cased

theorem cases_cased : (Cased part.word text ∧ part.word ≠ []) ∨
    ∃ front inner, text = front ++ '(' :: (inner ++ [')']) ∧
      Cased part.word front ∧
      ∀ c ∈ inner, c ∉ ['\'', '(', ')', '-', '/'] := by
  rcases part.cases_text with ⟨equal, filled⟩ | ⟨inner, given, equal⟩
  · exact .inl ⟨equal ▸ cased, filled⟩
  · rw [equal] at cased
    obtain ⟨front, back, rfl, word, others⟩ := cased.exists_append
    obtain ⟨rest, rfl, later⟩ := Cased.exists_cons (by decide) others
    obtain ⟨within, last, rfl, body, close⟩ := later.exists_append
    obtain ⟨none, rfl, empty⟩ := Cased.exists_cons (by decide) close
    obtain rfl := List.forall₂_nil_left_iff.mp empty
    refine .inr ⟨front, within, rfl, word, ?_⟩
    have each : ∀ letter ∈ ',' :: ' ' :: nameLetters,
        letter ∉ ['\'', '(', ')', '-', '/'] ∧
          letter.toUpper ∉ ['\'', '(', ')', '-', '/'] := by decide
    exact body.forall_mem fun letter inside =>
      each letter (part.inner inner given letter inside)

/-- The text of a part has no separators outside its parentheses. -/
theorem segment : Segment (fun c => Inline c ∧ c ≠ ' ') text := by
  rcases cases_cased cased with ⟨here, -⟩ | ⟨front, inner, rfl, here, plain⟩
  · exact segment_wordChars (here.wordChars part.plain)
  · have body : Segment (fun _ => True) inner := .ofPlain (by simp) plain
    exact (segment_wordChars (here.wordChars part.plain)).append
      body.parenthesized

theorem starts : Starts text := by
  rcases cases_cased cased with ⟨here, filled⟩ | ⟨front, inner, rfl, here, -⟩
  · exact here.starts filled part.plain
  · by_cases empty : front = []
    · subst empty
      exact ⟨'(', rfl, by decide⟩
    · exact (starts_of_solid empty (here.solid part.plain)).append

theorem ends : Ends text := by
  rcases cases_cased cased with ⟨here, filled⟩ | ⟨front, inner, rfl, -, -⟩
  · exact here.ends filled part.plain
  · have closed : Ends (front ++ '(' :: inner ++ [')']) :=
      ends_of_mark (by decide) _
    simpa using closed

theorem joinWith_words : joinWith [' '] (words text) = text :=
  Text.joinWith_words (cased.spaces part.letters_mem)
    (cased.single part.letters_mem part.single_text) (starts cased)
    (ends cased)

theorem isKeyword_eq_false : isKeyword columnKeywords text = false := by
  rw [isKeyword, cased.upper part.letters_mem, Bool.eq_false_iff]
  intro found
  rw [List.contains_iff_mem] at found
  exact part.text_ne found String.toList_ofList.symm

theorem not_mentions {word : String} (looked : word ∈ clauseWords) :
    ¬Mentions word text := by
  have facts : ∀ word ∈ clauseWords, Keyword word ∧
      ∃ keyword ∈ columnKeywords, lowerString keyword = word := by decide
  obtain ⟨keyword, given, member, rfl⟩ := facts word looked
  intro mentions
  exact part.free given member (cased.mentions part.letters_mem keyword mentions)

end TypePart

end ArchSurvey.Schema
