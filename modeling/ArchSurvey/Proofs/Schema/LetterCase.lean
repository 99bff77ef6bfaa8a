import ArchSurvey.Proofs.Schema.Comments
import ArchSurvey.Proofs.Schema.Notation
import ArchSurvey.Proofs.Text.Blank
import ArchSurvey.Proofs.Text.Image
import ArchSurvey.Proofs.Text.Split

/-!
# Letter case of scripts

What a text says in letters of either case: which characters it has, what it
becomes in lower and upper case, and which words it mentions.

No test of the reader of scripts tells a letter from its capital, and what it
keeps of a text it writes in one case.  So a script in capitals is read as the
script itself.
-/

namespace ArchSurvey.Schema

open Text
open Text.Pattern

/-! ## Letters of names and keywords -/

/-- The characters that mean something between names. -/
def marks : List Char :=
  ['\'', '(', ')', ',', ';', '.', '-', '/', '"', '\x60', '[', ']']

/-- The letters of types, in lower case. -/
def typeLetters : List Char :=
  '(' :: ')' :: ',' :: ' ' :: nameLetters

theorem mem_typeLetters {c : Char} (plain : c ∈ nameLetters) :
    c ∈ typeLetters := by
  simp [typeLetters, plain]

section Forms

theorem isWordChar_of_mem : ∀ letter ∈ nameLetters,
    isWordChar letter = true ∧ isWordChar letter.toUpper = true := by
  decide

theorem isBlank_of_mem : ∀ letter ∈ nameLetters,
    isBlank letter = false ∧ isBlank letter.toUpper = false := by
  decide

theorem not_mem_marks_of_mem : ∀ letter ∈ nameLetters,
    letter ∉ marks ∧ letter.toUpper ∉ marks := by
  decide

theorem lowerChar_of_mem : ∀ letter ∈ nameLetters,
    (letter ≠ 'Σ' ∧ lowerChar letter = [letter]) ∧
      letter.toUpper ≠ 'Σ' ∧ lowerChar letter.toUpper = [letter] := by
  decide

theorem upperChar_of_mem : ∀ letter ∈ typeLetters,
    upperChar letter = [letter.toUpper] ∧
      upperChar letter.toUpper = [letter.toUpper] := by
  decide

theorem sameLetter_of_mem : ∀ letter ∈ nameLetters,
    sameLetter letter letter = true ∧
      sameLetter letter letter.toUpper = true := by
  decide

theorem eq_of_sameLetter : ∀ letter ∈ nameLetters, ∀ other ∈ nameLetters,
    (sameLetter other letter = true → other = letter) ∧
      (sameLetter other letter.toUpper = true → other = letter) := by
  decide +kernel

/-- Only word characters are forms of a letter. -/
theorem isWordChar_of_sameLetter {letter c : Char}
    (plain : letter ∈ nameLetters) (same : sameLetter letter c = true) :
    isWordChar c = true := by
  simp only [sameLetter, Bool.or_eq_true, Bool.and_eq_true, beq_iff_eq]
    at same
  rcases same with ((rfl | rfl) | ⟨-, rfl⟩) | ⟨-, rfl⟩
  · exact (isWordChar_of_mem c plain).1
  · exact (isWordChar_of_mem letter plain).2
  · decide +kernel
  · decide +kernel

end Forms

namespace Cased

variable {letters text : List Char}

theorem forall_mem {property : Char → Prop} (cased : Cased letters text)
    (each : ∀ letter ∈ letters, property letter ∧ property letter.toUpper) :
    ∀ c ∈ text, property c := by
  induction cased with
  | nil => simp
  | cons same others ih =>
      have here := each _ List.mem_cons_self
      intro c member
      rcases List.mem_cons.mp member with rfl | later
      · rcases same with rfl | rfl
        · exact here.1
        · exact here.2
      · exact ih (fun letter inside =>
          each letter (List.mem_cons_of_mem _ inside)) c later

theorem length_eq (cased : Cased letters text) :
    letters.length = text.length :=
  List.Forall₂.length_eq cased

theorem filled (cased : Cased letters text) (filled : letters ≠ []) :
    text ≠ [] := by
  rintro rfl
  exact filled (List.forall₂_nil_right_iff.mp cased)

theorem upper (cased : Cased letters text)
    (plain : ∀ c ∈ letters, c ∈ typeLetters) :
    Text.upper text = letters.map Char.toUpper := by
  induction cased with
  | nil => rfl
  | @cons letter c letters text same others ih =>
      have forms := upperChar_of_mem letter (plain letter List.mem_cons_self)
      have here : upperChar c = [letter.toUpper] := by
        rcases same with rfl | rfl
        · exact forms.1
        · exact forms.2
      have later := ih fun d member => plain d (List.mem_cons_of_mem _ member)
      rw [Text.upper] at later ⊢
      rw [List.flatMap_cons, here, later]
      rfl

variable (plain : ∀ c ∈ letters, c ∈ nameLetters)

include plain

theorem wordChars (cased : Cased letters text) :
    ∀ c ∈ text, isWordChar c = true :=
  cased.forall_mem fun letter member =>
    isWordChar_of_mem letter (plain letter member)

theorem solid (cased : Cased letters text) :
    ∀ c ∈ text, isBlank c = false :=
  cased.forall_mem fun letter member =>
    isBlank_of_mem letter (plain letter member)

theorem unmarked (cased : Cased letters text) : ∀ c ∈ text, c ∉ marks :=
  cased.forall_mem fun letter member =>
    not_mem_marks_of_mem letter (plain letter member)

theorem lower (cased : Cased letters text) : Text.lower text = letters := by
  have from_ (before : List Char) : lowerFrom before text = letters := by
    induction cased generalizing before with
    | nil => rfl
    | @cons letter c letters text same others ih =>
        have forms :=
          lowerChar_of_mem letter (plain letter List.mem_cons_self)
        have here : c ≠ 'Σ' ∧ lowerChar c = [letter] := by
          rcases same with rfl | rfl
          · exact forms.1
          · exact forms.2
        have later := ih fun d member =>
          plain d (List.mem_cons_of_mem _ member)
        simp [lowerFrom, here.1, here.2, later]
  exact from_ []

theorem spells (cased : Cased letters text) : Spells letters text := by
  induction cased with
  | nil => exact .nil
  | @cons letter c letters text same others ih =>
      have forms := sameLetter_of_mem letter (plain letter List.mem_cons_self)
      refine .cons ?_ (ih fun d member =>
        plain d (List.mem_cons_of_mem _ member))
      rcases same with rfl | rfl
      · exact forms.1
      · exact forms.2

/-- A text spells no other word than its own. -/
theorem eq_of_spells {others : List Char} (cased : Cased letters text)
    (plainToo : ∀ c ∈ others, c ∈ nameLetters)
    (spelled : Spells others text) : others = letters := by
  induction cased generalizing others with
  | nil => exact List.forall₂_nil_right_iff.mp spelled
  | @cons letter c letters text same tail ih =>
      obtain ⟨other, others, sameToo, tailToo, rfl⟩ :=
        List.forall₂_cons_right_iff.mp spelled
      have forms := eq_of_sameLetter letter
        (plain letter List.mem_cons_self) other
        (plainToo other List.mem_cons_self)
      have here : other = letter := by
        rcases same with rfl | rfl
        · exact forms.1 sameToo
        · exact forms.2 sameToo
      rw [here, ih (fun d member => plain d (List.mem_cons_of_mem _ member))
        (fun d member => plainToo d (List.mem_cons_of_mem _ member)) tailToo]

end Cased

section Keywords

/-- A word in lower-case letters. -/
def Keyword (word : String) : Prop :=
  word.toList ≠ [] ∧ ∀ c ∈ word.toList, c ∈ nameLetters

instance (word : String) : Decidable (Keyword word) :=
  inferInstanceAs (Decidable (_ ∧ _))

theorem isWordChar_of_spells {letters text : List Char}
    (plain : ∀ c ∈ letters, c ∈ nameLetters) (spelled : Spells letters text) :
    ∀ c ∈ text, isWordChar c = true := by
  induction spelled with
  | nil => simp
  | @cons letter c letters text same _ ih =>
      intro d member
      rcases List.mem_cons.mp member with rfl | later
      · exact isWordChar_of_sameLetter (plain letter List.mem_cons_self) same
      · exact ih (fun e inside => plain e (List.mem_cons_of_mem _ inside)) d
          later

theorem Spells.exists_form {letters text : List Char}
    (spelled : Spells letters text) {letter : Char}
    (member : letter ∈ letters) : ∃ c ∈ text, sameLetter letter c = true := by
  induction spelled with
  | nil => simp at member
  | @cons other c letters text same _ ih =>
      rcases List.mem_cons.mp member with rfl | later
      · exact ⟨c, List.mem_cons_self, same⟩
      · obtain ⟨d, inside, sameToo⟩ := ih later
        exact ⟨d, List.mem_cons_of_mem c inside, sameToo⟩

theorem Spells.filled {letters text : List Char} (spelled : Spells letters text)
    (filled : letters ≠ []) : text ≠ [] := by
  rintro rfl
  exact filled (List.forall₂_nil_right_iff.mp spelled)

end Keywords

section Mentions

variable {word : String} {before after text : List Char}

theorem mentions_append_cons {c : Char} (edge : isWordChar c = false) :
    Mentions word (before ++ c :: after) ↔
      Mentions word before ∨ Mentions word after := by
  have separates : (!isWordChar c) = true := by simp [edge]
  rw [Mentions, splitWhen_append_cons separates]
  simp only [List.mem_append, or_and_right, exists_or]
  rfl

theorem mentions_iff_spells (whole : ∀ c ∈ text, isWordChar c = true) :
    Mentions word text ↔ Spells word.toList text := by
  have single : splitWhen (fun c => !isWordChar c) text = [text] :=
    splitWhen_eq_singleton fun c member => by simp [whole c member]
  rw [Mentions, single]
  simp

theorem not_mentions_nil {word : String} (keyword : Keyword word) :
    ¬Mentions word [] := by
  rw [mentions_iff_spells (by simp)]
  exact fun spelled => Spells.filled spelled keyword.1 rfl

theorem mentions_gap_append (keyword : Keyword word) {gap : List Char}
    (white : Gap gap) :
    Mentions word (gap ++ text) ↔ Mentions word text := by
  induction gap with
  | nil => rfl
  | cons c gap ih =>
      have edge := isWordChar_of_isBlank (white c List.mem_cons_self)
      have parted : Mentions word ([] ++ c :: (gap ++ text)) ↔
          Mentions word [] ∨ Mentions word (gap ++ text) :=
        mentions_append_cons edge
      rw [List.nil_append, or_iff_right (not_mentions_nil keyword)] at parted
      rw [List.cons_append, parted]
      exact ih fun d inside => white d (List.mem_cons_of_mem c inside)

/-- White space parts the words of a text. -/
theorem mentions_append_space (keyword : Keyword word) {gap : List Char}
    (space : Space gap) :
    Mentions word (before ++ gap ++ after) ↔
      Mentions word before ∨ Mentions word after := by
  obtain ⟨filled, white⟩ := space
  obtain ⟨c, gap, rfl⟩ := List.exists_cons_of_ne_nil filled
  have later : Gap gap := fun d member => white d (List.mem_cons_of_mem c member)
  rw [List.append_assoc, List.cons_append, mentions_append_cons
    (isWordChar_of_isBlank (white c List.mem_cons_self)),
    mentions_gap_append keyword later]

theorem mentions_append_gap (keyword : Keyword word) {gap : List Char}
    (white : Gap gap) : Mentions word (text ++ gap) ↔ Mentions word text := by
  by_cases filled : gap = []
  · rw [filled, List.append_nil]
  · rw [← List.append_nil (text ++ gap),
      mentions_append_space keyword ⟨filled, white⟩,
      or_iff_left (not_mentions_nil keyword)]

theorem mem_of_mem_splitFrom {p : Char → Bool} {piece run : List Char}
    (member : run ∈ splitFrom p piece text) :
    ∀ c ∈ run, c ∈ piece ∨ c ∈ text := by
  induction text generalizing piece with
  | nil =>
      rw [splitFrom, List.mem_singleton] at member
      simp [member]
  | cons d text ih =>
      rw [splitFrom] at member
      intro c inside
      split at member
      · rcases List.mem_cons.mp member with rfl | later
        · exact .inl (List.mem_reverse.mp inside)
        · have found := ih later c inside
          simp only [List.not_mem_nil, false_or] at found
          exact .inr (List.mem_cons_of_mem d found)
      · rcases ih member c inside with begun | later
        · rcases List.mem_cons.mp begun with rfl | before
          · exact .inr List.mem_cons_self
          · exact .inl before
        · exact .inr (List.mem_cons_of_mem d later)

/-- A text without any form of a letter mentions no word that has it. -/
theorem not_mentions_of_absent {letter : Char} (member : letter ∈ word.toList)
    (absent : ∀ c ∈ text, sameLetter letter c = false) :
    ¬Mentions word text := by
  rintro ⟨run, found, spelled⟩
  obtain ⟨c, inside, same⟩ := Spells.exists_form spelled member
  have whole : c ∈ text := by
    simpa using mem_of_mem_splitFrom found c inside
  rw [absent c whole] at same
  cases same

end Mentions

/-! ## Scripts in capitals -/

section Letters

/-- The letters that have a capital in ASCII. -/
def smallLetters : List Char :=
  "abcdefghijklmnopqrstuvwxyz".toList

theorem mem_smallLetters {c : Char}
    (small : 97 ≤ c.toNat ∧ c.toNat ≤ 122) : c ∈ smallLetters := by
  have each : ∀ code ∈ List.range' 97 26, Char.ofNat code ∈ smallLetters := by
    decide
  have here := each c.toNat (by simp [List.mem_range'_1]; omega)
  rwa [Char.ofNat_toNat] at here

/-- What holds of each character and itself, and of each small letter and its
capital, holds of all characters and their capitals. -/
theorem forall_toUpper (property : Char → Char → Prop)
    (self : ∀ c, property c c)
    (capital : ∀ letter ∈ smallLetters, property letter letter.toUpper)
    (c : Char) : property c c.toUpper := by
  by_cases small : 97 ≤ c.toNat ∧ c.toNat ≤ 122
  · exact capital c (mem_smallLetters small)
  · have fixed : c.toUpper = c := by
      refine dif_neg fun within => small ⟨?_, ?_⟩
      · simpa [UInt32.le_iff_toNat_le] using within.1
      · simpa [UInt32.le_iff_toNat_le] using within.2
    rw [fixed]
    exact self c

theorem isBlank_toUpper (c : Char) : isBlank c.toUpper = isBlank c :=
  forall_toUpper (fun c capital => isBlank capital = isBlank c)
    (fun _ => rfl) (by decide) c

theorem isWordChar_toUpper (c : Char) :
    isWordChar c.toUpper = isWordChar c :=
  forall_toUpper (fun c capital => isWordChar capital = isWordChar c)
    (fun _ => rfl) (by decide) c

theorem sameLetter_toUpper {letter : Char} (small : letter ∈ smallLetters)
    (c : Char) : sameLetter letter c.toUpper = sameLetter letter c :=
  forall_toUpper
    (fun c capital => sameLetter letter capital = sameLetter letter c)
    (fun _ => rfl) (by revert letter; decide) c

theorem upperChar_toUpper (c : Char) : upperChar c.toUpper = upperChar c :=
  forall_toUpper (fun c capital => upperChar capital = upperChar c)
    (fun _ => rfl) (by decide) c

theorem lowerChar_toUpper (c : Char) : lowerChar c.toUpper = lowerChar c :=
  forall_toUpper (fun c capital => lowerChar capital = lowerChar c)
    (fun _ => rfl) (by decide) c

theorem isCased_toUpper (c : Char) : isCased c.toUpper = isCased c :=
  forall_toUpper (fun c capital => isCased capital = isCased c)
    (fun _ => rfl) (by decide) c

theorem isCaseIgnorable_toUpper (c : Char) :
    isCaseIgnorable c.toUpper = isCaseIgnorable c :=
  forall_toUpper (fun c capital => isCaseIgnorable capital = isCaseIgnorable c)
    (fun _ => rfl) (by decide) c

/-- A mark that is no letter is the capital of no other character. -/
theorem toUpper_beq {mark : Char} (plain : ∀ letter ∈ smallLetters,
    (letter.toUpper == mark) = (letter == mark)) (c : Char) :
    (c.toUpper == mark) = (c == mark) :=
  forall_toUpper (fun c capital => (capital == mark) = (c == mark))
    (fun _ => rfl) plain c

theorem toUpper_eq_iff {mark : Char} (plain : ∀ letter ∈ smallLetters,
    (letter.toUpper == mark) = (letter == mark)) {c : Char} :
    c.toUpper = mark ↔ c = mark := by
  simpa using Bool.eq_iff_iff.mp (toUpper_beq plain c)

end Letters

section Names

variable (text : List Char)

theorem upper_toUpper : upper (text.map Char.toUpper) = upper text := by
  rw [upper, upper, List.flatMap_map]
  exact List.flatMap_congr fun c _ => upperChar_toUpper c

theorem startsCased_toUpper :
    startsCased (text.map Char.toUpper) = startsCased text := by
  rw [startsCased, startsCased, dropWhile_image isCaseIgnorable_toUpper]
  cases text.dropWhile isCaseIgnorable with
  | nil => rfl
  | cons c rest => exact isCased_toUpper c

theorem lowerFrom_toUpper (before : List Char) :
    lowerFrom (before.map Char.toUpper) (text.map Char.toUpper) =
      lowerFrom before text := by
  induction text generalizing before with
  | nil => rfl
  | cons c rest ih =>
      have sigma : (c.toUpper == 'Σ') = (c == 'Σ') :=
        toUpper_beq (by decide) c
      have later := ih (c :: before)
      rw [List.map_cons] at later
      rw [List.map_cons, lowerFrom, lowerFrom, later, sigma,
        startsCased_toUpper, startsCased_toUpper, lowerChar_toUpper]

theorem lower_toUpper : lower (text.map Char.toUpper) = lower text :=
  lowerFrom_toUpper text []

theorem isQuote_toUpper (c : Char) : isQuote c.toUpper = isQuote c :=
  forall_toUpper (fun c capital => isQuote capital = isQuote c)
    (fun _ => rfl) (by decide) c

theorem identifier_toUpper :
    identifier (text.map Char.toUpper) = identifier text := by
  rw [identifier, identifier, trim_image isBlank_toUpper,
    afterLast_image (toUpper_beq (by decide)), trimWhile_image isQuote_toUpper,
    lower_toUpper]

theorem identifiers_toUpper :
    identifiers (text.map Char.toUpper) = identifiers text := by
  have same : identifier ∘ List.map Char.toUpper = identifier :=
    funext identifier_toUpper
  rw [identifiers, identifiers, splitOn_image (toUpper_beq (by decide)),
    List.map_map, same]

theorem isKeyword_toUpper (keywords : List String) :
    isKeyword keywords (text.map Char.toUpper) = isKeyword keywords text := by
  rw [isKeyword, isKeyword, upper_toUpper]

end Names

section Patterns

variable {mark : Char}

@[simp] theorem overlooks_is (plain : ∀ letter ∈ smallLetters,
    (letter.toUpper == mark) = (letter == mark)) :
    (is mark).Overlooks Char.toUpper :=
  toUpper_beq plain

@[simp] theorem overlooks_noneOf {marks : String}
    (plain : ∀ letter ∈ smallLetters, marks.toList.contains letter.toUpper =
      marks.toList.contains letter) :
    (noneOf marks).Overlooks Char.toUpper := fun c =>
  congrArg (!·) (forall_toUpper
    (fun c capital =>
      marks.toList.contains capital = marks.toList.contains c)
    (fun _ => rfl) plain c)

@[simp] theorem overlooks_word {letters : String}
    (small : ∀ letter ∈ letters.toList, letter ∈ smallLetters) :
    (word letters).Overlooks Char.toUpper := by
  rw [word, overlooks_concat]
  intro pattern member
  obtain ⟨letter, inside, rfl⟩ := List.mem_map.mp member
  exact sameLetter_toUpper (small letter inside)

@[simp] theorem overlooks_wordChar : wordChar.Overlooks Char.toUpper :=
  isWordChar_toUpper

@[simp] theorem overlooks_wordEdge : wordEdge.Overlooks Char.toUpper :=
  isWordChar_toUpper

@[simp] theorem overlooks_quote : (char isQuote).Overlooks Char.toUpper :=
  isQuote_toUpper

@[simp] theorem overlooks_blank : blank.Overlooks Char.toUpper :=
  isBlank_toUpper

theorem overlooks_blanks : blanks.Overlooks Char.toUpper :=
  isBlank_toUpper

theorem overlooks_blanks1 : blanks1.Overlooks Char.toUpper :=
  ⟨isBlank_toUpper, isBlank_toUpper⟩

theorem overlooks_phrase {words : List String}
    (small : ∀ letters ∈ words, ∀ letter ∈ letters.toList,
      letter ∈ smallLetters) : (phrase words).Overlooks Char.toUpper := by
  rw [phrase, overlooks_concat]
  intro pattern member
  obtain ⟨letters, inside, rfl⟩ := List.mem_map.mp member
  exact ⟨overlooks_word (small letters inside), overlooks_blanks1⟩

theorem overlooks_namePattern : namePattern.Overlooks Char.toUpper := by
  simp (disch := decide) [namePattern]

theorem overlooks_createTable : createTable.Overlooks Char.toUpper := by
  simp (disch := decide) [createTable, overlooks_blanks, overlooks_blanks1,
    overlooks_phrase, overlooks_namePattern]

theorem overlooks_alterTable : alterTable.Overlooks Char.toUpper := by
  simp (disch := decide) [alterTable, overlooks_blanks, overlooks_blanks1,
    overlooks_phrase, overlooks_namePattern]

theorem overlooks_dropTable : dropTable.Overlooks Char.toUpper := by
  simp (disch := decide) [dropTable, overlooks_blanks, overlooks_blanks1,
    overlooks_phrase]

theorem overlooks_addAction : addAction.Overlooks Char.toUpper := by
  simp (disch := decide) [addAction, overlooks_blanks, overlooks_phrase]

theorem overlooks_dropColumn : dropColumn.Overlooks Char.toUpper := by
  simp (disch := decide) [dropColumn, plainNamePattern, overlooks_blanks,
    overlooks_phrase]

theorem overlooks_primaryKey : primaryKey.Overlooks Char.toUpper := by
  simp (disch := decide) [primaryKey, parenthesized, overlooks_blanks,
    overlooks_phrase]

theorem overlooks_foreignKey : foreignKey.Overlooks Char.toUpper := by
  simp (disch := decide) [foreignKey, parenthesized, overlooks_blanks,
    overlooks_phrase, overlooks_namePattern]

theorem overlooks_inlineReferences :
    inlineReferences.Overlooks Char.toUpper := by
  simp (disch := decide) [inlineReferences, overlooks_phrase,
    overlooks_namePattern]

theorem overlooks_notNull : notNull.Overlooks Char.toUpper := by
  simp (disch := decide) [notNull, overlooks_phrase]

theorem overlooks_inlinePrimaryKey :
    inlinePrimaryKey.Overlooks Char.toUpper := by
  simp (disch := decide) [inlinePrimaryKey, overlooks_phrase]

end Patterns

section Nesting

variable {separator : Char} (text : List Char)

theorem step_toUpper (nesting : Nesting) (c : Char) :
    nesting.step c.toUpper = nesting.step c := by
  rw [Nesting.step, Nesting.step, toUpper_beq (by decide),
    toUpper_beq (by decide), toUpper_beq (by decide)]

theorem piecesFrom_toUpper (plain : ∀ letter ∈ smallLetters,
    (letter.toUpper == separator) = (letter == separator))
    (nesting : Nesting) (piece : List Char) :
    piecesFrom separator nesting (piece.map Char.toUpper)
        (text.map Char.toUpper) =
      (piecesFrom separator nesting piece text).map
        (List.map Char.toUpper) := by
  induction text generalizing nesting piece with
  | nil => simp [piecesFrom]
  | cons c rest ih =>
      rw [List.map_cons, piecesFrom, piecesFrom, toUpper_beq plain,
        step_toUpper, ← List.map_cons, ih]
      split
      · simpa using ih nesting []
      · rfl

theorem splitOutside_toUpper (plain : ∀ letter ∈ smallLetters,
    (letter.toUpper == separator) = (letter == separator)) :
    splitOutside separator (text.map Char.toUpper) =
      (splitOutside separator text).map (List.map Char.toUpper) := by
  have solid : (fun piece => !isAllBlank piece) ∘ List.map Char.toUpper =
      fun piece => !isAllBlank piece :=
    funext fun piece => congrArg (!·) (isAllBlank_image isBlank_toUpper piece)
  have pieces := piecesFrom_toUpper text plain {} []
  rw [List.map_nil] at pieces
  rw [splitOutside, splitOutside, pieces, List.filter_map, solid]

theorem untilClose_toUpper (nesting : Nesting) :
    untilClose nesting (text.map Char.toUpper) =
      (untilClose nesting text).map (List.map Char.toUpper) := by
  induction text generalizing nesting with
  | nil => rfl
  | cons c rest ih =>
      rw [List.map_cons, untilClose, untilClose, step_toUpper,
        toUpper_beq (by decide), ih]
      split
      · rfl
      · simp [Function.comp_def]

theorem insideParentheses_toUpper :
    insideParentheses (text.map Char.toUpper) =
      (insideParentheses text).map (List.map Char.toUpper) :=
  untilClose_toUpper text _

end Nesting

section Comments

variable (text : List Char)

/-- A text in capitals starts with two marks only if the text does. -/
theorem not_starts_toUpper {first second c : Char} {rest : List Char}
    (plain : ∀ letter ∈ smallLetters, ∀ mark ∈ [first, second],
      (letter.toUpper == mark) = (letter == mark))
    (other : ∀ tail, c = first → rest = second :: tail → False) :
    ∀ tail, c.toUpper = first → rest.map Char.toUpper = second :: tail →
      False := by
  intro tail starts follows
  have plainFirst : ∀ letter ∈ smallLetters,
      (letter.toUpper == first) = (letter == first) :=
    fun letter small => plain letter small first (by simp)
  have plainSecond : ∀ letter ∈ smallLetters,
      (letter.toUpper == second) = (letter == second) :=
    fun letter small => plain letter small second (by simp)
  rw [toUpper_eq_iff plainFirst] at starts
  cases rest with
  | nil => cases follows
  | cons d rest =>
      obtain ⟨same, -⟩ := List.cons.inj follows
      rw [toUpper_eq_iff plainSecond] at same
      exact other rest starts (by rw [same])

theorem afterBlock?_toUpper :
    afterBlock? (text.map Char.toUpper) =
      (afterBlock? text).map (List.map Char.toUpper) := by
  fun_induction afterBlock? text with
  | case1 rest => rfl
  | case2 c rest other ih =>
      rw [List.map_cons, afterBlock?, ih]
      exact not_starts_toUpper (by decide) other
  | case3 => rfl

theorem opensBlock_cons_cons (c d : Char) (rest : List Char) :
    opensBlock (c :: d :: rest) =
      (c == '/' && d == '*' && (afterBlock? rest).isSome) := by
  rw [opensBlock.eq_def]
  split
  · rename_i shape
    simp only [List.cons.injEq] at shape
    simp [shape]
  · rename_i other
    by_cases slash : c = '/' <;> simp_all

theorem opensBlock_toUpper :
    opensBlock (text.map Char.toUpper) = opensBlock text := by
  match text with
  | [] => rfl
  | [c] => simp [opensBlock]
  | c :: d :: rest =>
      have slash : (c.toUpper == '/') = (c == '/') := toUpper_beq (by decide) c
      have star : (d.toUpper == '*') = (d == '*') := toUpper_beq (by decide) d
      simp [opensBlock_cons_cons, afterBlock?_toUpper, slash, star]

theorem withoutBlocks_toUpper :
    withoutBlocks (text.map Char.toUpper) =
      (withoutBlocks text).map Char.toUpper := by
  induction text using blocksInduction with
  | nil => simp [withoutBlocks]
  | block rest after ended ih =>
      have endedToo : afterBlock? (rest.map Char.toUpper) =
          some (after.map Char.toUpper) := by
        rw [afterBlock?_toUpper, ended, Option.map_some]
      rw [withoutBlocks_block ended, List.map_cons (a := ' '), ← ih]
      exact withoutBlocks_block endedToo
  | cons c rest unopened ih =>
      have unopenedToo :
          opensBlock (c.toUpper :: rest.map Char.toUpper) = false := by
        rw [← List.map_cons, opensBlock_toUpper, unopened]
      rw [withoutBlocks_cons unopened, List.map_cons, List.map_cons,
        withoutBlocks_cons unopenedToo, ih]

theorem withoutLines_toUpper (inComment : Bool) :
    withoutLines inComment (text.map Char.toUpper) =
      (withoutLines inComment text).map Char.toUpper := by
  fun_induction withoutLines inComment text with
  | case1 => simp [withoutLines]
  | case2 inComment rest ih => exact ih
  | case3 c rest other newline ih =>
      have ends : (c.toUpper == '\n') = true :=
        (toUpper_beq (by decide) c).trans newline
      rw [List.map_cons, withoutLines, if_pos rfl, if_pos ends, ih,
        List.map_cons]
      exact not_starts_toUpper (by decide) other
  | case4 c rest other inside ih =>
      have goesOn : ¬(c.toUpper == '\n') = true := by
        rwa [toUpper_beq (by decide)]
      rw [List.map_cons, withoutLines, if_pos rfl, if_neg goesOn, ih]
      exact not_starts_toUpper (by decide) other
  | case5 inComment c rest other outside ih =>
      rw [List.map_cons, withoutLines, if_neg outside, ih, List.map_cons]
      exact not_starts_toUpper (by decide) other

theorem withoutComments_toUpper :
    withoutComments (text.map Char.toUpper) =
      (withoutComments text).map Char.toUpper := by
  rw [withoutComments, withoutBlocks_toUpper, withoutLines_toUpper,
    withoutComments]

end Comments

section Declarations

variable (text : List Char)

theorem joinWith_toUpper (pieces : List (List Char)) :
    joinWith [' '] (pieces.map (List.map Char.toUpper)) =
      (joinWith [' '] pieces).map Char.toUpper := by
  induction pieces with
  | nil => rfl
  | cons piece pieces ih =>
      cases pieces with
      | nil => simp [joinWith_singleton]
      | cons next pieces =>
          rw [List.map_cons, joinWith_cons (by simp), joinWith_cons (by simp),
            ih]
          simp

theorem columnWords_toUpper :
    columnWords (text.map Char.toUpper) =
      (columnWords text).map (List.map Char.toUpper) := by
  have trimmed : trim ∘ List.map Char.toUpper =
      List.map Char.toUpper ∘ trim :=
    funext fun piece => trim_image isBlank_toUpper piece
  have solid : (fun text : List Char => !text.isEmpty) ∘
      List.map Char.toUpper = fun text => !text.isEmpty :=
    funext fun text => by simp
  rw [columnWords, columnWords, words_image isBlank_toUpper, joinWith_toUpper,
    splitOutside_toUpper _ (by decide), List.map_map, trimmed, ← List.map_map,
    List.filter_map, solid]

theorem isConstraint_toUpper :
    isConstraint (text.map Char.toUpper) = isConstraint text := by
  rw [isConstraint, isConstraint, words_image isBlank_toUpper]
  cases words text with
  | nil => rfl
  | cons first rest => exact isKeyword_toUpper first constraintKeywords

theorem readColumn_toUpper :
    readColumn (text.map Char.toUpper) = readColumn text := by
  have keyword : (fun text => !isKeyword columnKeywords text) ∘
      List.map Char.toUpper = fun text => !isKeyword columnKeywords text :=
    funext fun text => congrArg (!·) (isKeyword_toUpper text columnKeywords)
  rw [readColumn, readColumn, columnWords_toUpper]
  cases columnWords text with
  | nil => rfl
  | cons name rest =>
      have references : (inlineReferences.search text).map (fun found =>
          identifier ((found.image Char.toUpper).group 1)) =
            (inlineReferences.search text).map fun found =>
              identifier (found.group 1) := by
        simp only [group_image, identifier_toUpper]
      simp only [List.map_cons, identifier_toUpper, List.takeWhile_map, keyword,
        List.isEmpty_map, joinWith_toUpper, upper_toUpper,
        occurs_image overlooks_inlinePrimaryKey, occurs_image overlooks_notNull,
        search_image overlooks_inlineReferences, Option.map_map,
        Function.comp_def, references]

variable (texts : List (List Char))

/-- A pattern is found in the same ones of some texts in capitals. -/
theorem filterMap_search_toUpper {pattern : Pattern}
    (overlooks : pattern.Overlooks Char.toUpper) :
    (texts.map (List.map Char.toUpper)).filterMap pattern.search =
      (texts.filterMap pattern.search).map (Match.image Char.toUpper) := by
  rw [List.filterMap_map, List.map_filterMap]
  exact congrArg (texts.filterMap ·) (funext (search_image overlooks))

theorem declaredKey_toUpper :
    declaredKey (texts.map (List.map Char.toUpper)) = declaredKey texts := by
  rw [declaredKey, declaredKey, filterMap_search_toUpper texts
    overlooks_primaryKey, List.getLast?_map]
  simp only [Option.map_map, Function.comp_def, group_image,
    identifiers_toUpper]

theorem foreignKeys_toUpper :
    foreignKeys (texts.map (List.map Char.toUpper)) = foreignKeys texts := by
  rw [foreignKeys, foreignKeys, filterMap_search_toUpper texts
    overlooks_foreignKey, List.flatMap_map]
  simp only [group_image, identifier_toUpper, identifiers_toUpper]

theorem readTable_toUpper (name : String) :
    readTable name (text.map Char.toUpper) = readTable name text := by
  have constrains : isConstraint ∘ List.map Char.toUpper = isConstraint :=
    funext isConstraint_toUpper
  have declares : (fun item => !isConstraint item) ∘ List.map Char.toUpper =
      fun item => !isConstraint item :=
    funext fun item => congrArg (!·) (isConstraint_toUpper item)
  have column : readColumn ∘ List.map Char.toUpper = readColumn :=
    funext readColumn_toUpper
  have items : splitOutside ',' (text.map Char.toUpper) =
      (splitOutside ',' text).map (List.map Char.toUpper) :=
    splitOutside_toUpper text (by decide)
  simp only [readTable, items, List.filter_map, constrains, declares,
    List.filterMap_map, column, declaredKey_toUpper, foreignKeys_toUpper]

end Declarations

section Statements

variable (table : String) (text : List Char)

theorem readAddition_toUpper :
    readAddition table (text.map Char.toUpper) = readAddition table text := by
  rw [readAddition, readAddition, isConstraint_toUpper, readColumn_toUpper,
    search_image overlooks_foreignKey, search_image overlooks_primaryKey]
  cases foreignKey.search text <;> cases primaryKey.search text <;>
    simp [identifier_toUpper, identifiers_toUpper]

theorem dropsOther_toUpper :
    dropsOther (text.map Char.toUpper) = dropsOther text := by
  rw [dropsOther, dropsOther, trimStart_image isBlank_toUpper, upper_toUpper]

theorem readAction_toUpper :
    readAction table (text.map Char.toUpper) = readAction table text := by
  rw [readAction, readAction, search_image overlooks_addAction,
    search_image overlooks_dropColumn, dropsOther_toUpper]
  cases addAction.search text with
  | some found =>
      simp [trim_image isBlank_toUpper, readAddition_toUpper]
  | none =>
      cases dropColumn.search text <;> simp [identifier_toUpper]

theorem readStatement_toUpper :
    readStatement (text.map Char.toUpper) = readStatement text := by
  rw [readStatement, readStatement, search_image overlooks_createTable,
    search_image overlooks_alterTable, search_image overlooks_dropTable]
  cases createTable.search text with
  | some found =>
      simp only [Option.map_some, group_image, identifier_toUpper, after_image,
        insideParentheses_toUpper, group?_image, Option.isSome_map]
      cases insideParentheses found.after <;> simp [readTable_toUpper]
  | none =>
      cases alterTable.search text with
      | some found =>
          have actions : splitOutside ',' ((found.group 2).map Char.toUpper) =
              (splitOutside ',' (found.group 2)).map (List.map Char.toUpper) :=
            splitOutside_toUpper (found.group 2) (by decide)
          simp [identifier_toUpper, readAction_toUpper, List.flatMap_map,
            actions]
      | none =>
          cases dropTable.search text <;> simp [identifiers_toUpper]

/-- A script in capitals is read as the script itself. -/
theorem readScript_toUpper :
    readScript (text.map Char.toUpper) = readScript text := by
  have statement : readStatement ∘ List.map Char.toUpper = readStatement :=
    funext readStatement_toUpper
  rw [readScript, readScript, withoutComments_toUpper,
    splitOutside_toUpper _ (by decide), List.mapM_map, statement]

end Statements

end ArchSurvey.Schema
