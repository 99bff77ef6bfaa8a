import ArchSurvey.Proofs.Schema.Columns

/-!
# Reading constraints

The pattern of a key finds the key in the text of a constraint and nothing in
the text of the other kind.  These patterns do not start at the edge of a word,
so a name could end like their first keyword; what keeps them from matching is
that nothing which begins like `KEY` follows it.
-/

namespace ArchSurvey.Schema

open Text
open Text.Pattern (Spells Leads Place concat seq word wordEdge group blanks
  sameLetter Match)

section Adjoining

/-- White space stands between forms of two letters. -/
def Adjoins (last first : Char) (text : List Char) : Prop :=
  ∃ c gap d, sameLetter last c = true ∧ Space gap ∧
    sameLetter first d = true ∧ c :: (gap ++ [d]) <:+: text

/-- The mark is neither blank nor a form of the letters. -/
def Parts (last first mark : Char) : Prop :=
  isBlank mark = false ∧ sameLetter last mark = false ∧
    sameLetter first mark = false

instance (last first mark : Char) : Decidable (Parts last first mark) :=
  inferInstanceAs (Decidable (_ ∧ _))

variable {last first mark : Char} {before after text : List Char}

theorem Parts.absent (parts : Parts last first mark) {c d : Char}
    {gap : List Char} (one : sameLetter last c = true) (white : Gap gap)
    (two : sameLetter first d = true) : mark ∉ c :: (gap ++ [d]) := by
  obtain ⟨solid, notLast, notFirst⟩ := parts
  intro member
  simp only [List.mem_cons, List.mem_append, List.not_mem_nil, or_false]
    at member
  rcases member with rfl | inside | rfl
  · rw [one] at notLast
    cases notLast
  · rw [white mark inside] at solid
    cases solid
  · rw [two] at notFirst
    cases notFirst

theorem not_adjoins_append_cons (parts : Parts last first mark)
    (one : ¬Adjoins last first before) (two : ¬Adjoins last first after) :
    ¬Adjoins last first (before ++ mark :: after) := by
  rintro ⟨c, gap, d, final, space, initial, within⟩
  have absent := parts.absent final space.2 initial
  rw [infix_append_cons_iff absent (by simp)] at within
  rcases within with here | there
  · exact one ⟨c, gap, d, final, space, initial, here⟩
  · exact two ⟨c, gap, d, final, space, initial, there⟩

theorem blank_of_wordsFrom_eq_nil {word : List Char}
    (none : wordsFrom word text = []) : word = [] ∧ Gap text := by
  induction text generalizing word with
  | nil =>
      rw [wordsFrom] at none
      split at none
      · rename_i empty
        exact ⟨List.isEmpty_iff.mp empty, by simp [Gap]⟩
      · cases none
  | cons c text ih =>
      rw [wordsFrom] at none
      split at none
      · rename_i white
        split at none
        · rename_i empty
          obtain ⟨-, later⟩ := ih none
          refine ⟨List.isEmpty_iff.mp empty, fun d member => ?_⟩
          rcases List.mem_cons.mp member with rfl | inside
          · exact white
          · exact later d inside
        · cases none
      · exact absurd (ih none).1 (by simp)

theorem words_ne_nil {c : Char} (member : c ∈ text)
    (solid : isBlank c = false) : words text ≠ [] := by
  intro none
  have white := (blank_of_wordsFrom_eq_nil none).2 c member
  rw [solid] at white
  cases white

/-- Two letters with white space between them are letters of two words. -/
theorem not_adjoins_of_words (lastPlain : last ∈ nameLetters)
    (firstPlain : first ∈ nameLetters) (few : (words text).length ≤ 1) :
    ¬Adjoins last first text := by
  rintro ⟨c, gap, d, final, space, initial, front, back, rfl⟩
  have one : words (front ++ [c]) ≠ [] :=
    words_ne_nil (by simp)
      (isBlank_of_isWordChar (isWordChar_of_sameLetter lastPlain final))
  have two : words (d :: back) ≠ [] :=
    words_ne_nil List.mem_cons_self
      (isBlank_of_isWordChar (isWordChar_of_sameLetter firstPlain initial))
  have whole : front ++ c :: (gap ++ [d]) ++ back =
      front ++ [c] ++ gap ++ d :: back := by simp
  rw [whole, words_append_space space.1 space.2, List.length_append] at few
  have left := List.length_pos_of_ne_nil one
  have right := List.length_pos_of_ne_nil two
  omega

theorem not_adjoins_solid (lastPlain : last ∈ nameLetters)
    (firstPlain : first ∈ nameLetters) (front : Gap before)
    (solid : ∀ c ∈ text, isBlank c = false) (back : Gap after) :
    ¬Adjoins last first (before ++ text ++ after) := by
  apply not_adjoins_of_words lastPlain firstPlain
  rw [words_append_gap back, words_gap_append front]
  by_cases filled : text = []
  · simp [filled, words, wordsFrom]
  · simp [words_solid filled solid]

/-- A form of another letter parts forms of two letters. -/
theorem parts_of_form {letter c : Char} (plain : letter ∈ nameLetters)
    (form : c = letter ∨ c = letter.toUpper) (lastPlain : last ∈ nameLetters)
    (firstPlain : first ∈ nameLetters) (notLast : last ≠ letter)
    (notFirst : first ≠ letter) : Parts last first c := by
  have other {mark : Char} (markPlain : mark ∈ nameLetters)
      (different : mark ≠ letter) : sameLetter mark c = false := by
    have same := eq_of_sameLetter letter plain mark markPlain
    rw [Bool.eq_false_iff]
    intro equal
    rcases form with rfl | rfl
    · exact different (same.1 equal)
    · exact different (same.2 equal)
  have blank := isBlank_of_mem letter plain
  refine ⟨?_, other lastPlain notLast, other firstPlain notFirst⟩
  rcases form with rfl | rfl
  · exact blank.1
  · exact blank.2

end Adjoining

section Pairs

variable {one two : String} {front back rest : List Char}
  {initial : List Char} {last first mark : Char} {final : List Char}

theorem exists_of_pair_way {pattern : Pattern} {place after : Place}
    (oneLetters : one.toList = initial ++ [last])
    (twoLetters : two.toList = first :: final) (keyword : Keyword one)
    (way : after ∈ (seq (phrase [one]) (seq (word two) pattern)).ways place) :
    ∃ passed c gap d tail, place.rest = passed ++ (c :: (gap ++ [d]) ++ tail) ∧
      (∀ e ∈ passed, isBlank e = false) ∧ sameLetter last c = true ∧
        Space gap ∧ sameLetter first d = true := by
  obtain ⟨middle, phraseWay, others⟩ := List.mem_flatMap.mp way
  obtain ⟨end_, wordWay, gapWay⟩ := List.mem_flatMap.mp phraseWay
  obtain ⟨text, tail, split, spelled, rfl⟩ :=
    Pattern.spells_of_mem_ways_word wordWay
  obtain ⟨gap, later, parted, filled, white, rfl⟩ :=
    Pattern.blank_of_mem_ways_blanks1 gapWay
  obtain ⟨second, nextWay, -⟩ := List.mem_flatMap.mp others
  obtain ⟨more, remaining, splitToo, spelledToo, -⟩ :=
    Pattern.spells_of_mem_ways_word nextWay
  rw [Place.past_rest] at parted splitToo
  have wordly := isWordChar_of_spells keyword.2 spelled
  rw [oneLetters] at spelled
  rw [twoLetters] at spelledToo
  obtain ⟨d, more, same, -, rfl⟩ := List.forall₂_cons_left_iff.mp spelledToo
  rcases List.eq_nil_or_concat text with rfl | ⟨passed, c, rfl⟩
  · exact absurd (List.forall₂_nil_right_iff.mp spelled) (by simp)
  · have reversed := List.rel_reverse spelled
    rw [List.concat_eq_append, List.reverse_append, List.reverse_append]
      at reversed
    obtain ⟨sameToo, -⟩ := List.forall₂_cons.mp reversed
    refine ⟨passed, c, gap, d, more ++ remaining, ?_, ?_, sameToo,
      ⟨filled, white⟩, same⟩
    · simp [split, parted, splitToo]
    · exact fun e member => isBlank_of_isWordChar (wordly e (by simp [member]))

variable (oneLetters : one.toList = initial ++ [last])
  (twoLetters : two.toList = first :: final) (keyword : Keyword one)

include oneLetters twoLetters keyword

theorem pair_fails {pattern : Pattern}
    (free : ¬Adjoins last first (front ++ back)) :
    (seq (phrase [one]) (seq (word two) pattern)).ways
      (.start front back) = [] := by
  rw [List.eq_nil_iff_forall_not_mem]
  intro after way
  obtain ⟨passed, c, gap, d, tail, split, -, same, space, sameToo⟩ :=
    exists_of_pair_way oneLetters twoLetters keyword way
  have split : back = passed ++ (c :: (gap ++ [d]) ++ tail) := split
  exact free ⟨c, gap, d, same, space, sameToo, front ++ passed, tail,
    by simp [split]⟩

/-- Nor does a pair of keywords begin before white space that a mark
follows. -/
theorem pair_fails_before {pattern : Pattern}
    (free : ¬Adjoins last first (front ++ back))
    (parts : Parts last first mark)
    (ended : ∃ c ∈ back.getLast?, isBlank c = true) :
    (seq (phrase [one]) (seq (word two) pattern)).ways
      (.start front (back ++ mark :: rest)) = [] := by
  rw [List.eq_nil_iff_forall_not_mem]
  intro after way
  obtain ⟨passed, c, gap, d, tail, split, solid, same, space, sameToo⟩ :=
    exists_of_pair_way oneLetters twoLetters keyword way
  have split : passed ++ (c :: (gap ++ [d]) ++ tail) = back ++ mark :: rest :=
    split.symm
  obtain ⟨e, final, white⟩ := ended
  rcases window_cases (parts.absent same space.2 sameToo) split with
    ⟨others, rfl⟩ | ⟨others, rfl⟩
  · exact free ⟨c, gap, d, same, space, sameToo, front ++ passed, others,
      by simp⟩
  · have blank := solid e (List.mem_append_left others
      (List.mem_of_getLast? final))
    rw [white] at blank
    cases blank

end Pairs

section Parting

variable {last : Char} {before after text : List Char}

theorem parts_of_mem : ∀ last ∈ ['y', 'n'], ∀ mark ∈ [',', '(', ')'],
    Parts last 'k' mark := by
  decide

theorem plain_of_mem : ∀ last ∈ ['y', 'n'], last ∈ nameLetters := by
  decide

/-- The word begins and ends with letters other than `last` and `k`. -/
def Fences (last : Char) (word : String) : Prop :=
  ∃ start middle stop, word.toList = start :: (middle ++ [stop]) ∧
    start ∈ nameLetters ∧ stop ∈ nameLetters ∧
      (last ≠ start ∧ 'k' ≠ start) ∧ last ≠ stop ∧ 'k' ≠ stop

/-- A keyword that is fenced off parts a text. -/
theorem Cased.not_adjoins {word : String} (cased : Cased word.toList text)
    (keyword : Keyword word) (fences : Fences last word)
    (looked : last ∈ ['y', 'n']) (one : ¬Adjoins last 'k' before)
    (two : ¬Adjoins last 'k' after) :
    ¬Adjoins last 'k' (before ++ (text ++ after)) := by
  have plain := plain_of_mem last looked
  have kPlain : 'k' ∈ nameLetters := by decide
  obtain ⟨start, middle, stop, letters, startPlain, stopPlain, apart,
    apartToo⟩ := fences
  have solid := cased.solid keyword.2
  rw [letters] at cased
  obtain ⟨c, rest, form, others, rfl⟩ := List.forall₂_cons_left_iff.mp cased
  obtain ⟨inner, final, rfl, -, ending⟩ := Cased.exists_append others
  obtain ⟨d, none, formToo, nothing, rfl⟩ :=
    List.forall₂_cons_left_iff.mp ending
  obtain rfl := List.forall₂_nil_left_iff.mp nothing
  have within : ¬Adjoins last 'k' inner := by
    have free : ¬Adjoins last 'k' ([] ++ inner ++ []) :=
      not_adjoins_solid plain kPlain (by simp [Gap])
        (fun e member => solid e (by simp [member])) (by simp [Gap])
    simpa using free
  have whole : before ++ (c :: (inner ++ [d]) ++ after) =
      before ++ c :: (inner ++ d :: after) := by simp
  rw [whole]
  refine not_adjoins_append_cons
    (parts_of_form startPlain form plain kPlain apart.1 apart.2) one ?_
  exact not_adjoins_append_cons
    (parts_of_form stopPlain formToo plain kPlain apartToo.1 apartToo.2)
    within two

variable (looked : last ∈ ['y', 'n'])

include looked

theorem not_adjoins_gap (white : Gap text) : ¬Adjoins last 'k' text := by
  have free : ¬Adjoins last 'k' (text ++ [] ++ []) :=
    not_adjoins_solid (plain_of_mem last looked) (by decide) white (by simp)
      (by simp [Gap])
  simpa using free

theorem QualifiedText.not_adjoins {name : Name} (front : Gap before)
    (spelled : QualifiedText name text) (back : Gap after) :
    ¬Adjoins last 'k' (before ++ text ++ after) :=
  not_adjoins_solid (plain_of_mem last looked) (by decide) front spelled.solid
    back

theorem ColumnsText.not_adjoins {columns : List Name}
    (list : ColumnsText columns text) : ¬Adjoins last 'k' text := by
  have free {name : Name} {text : List Char}
      (padded : Padded (NameText name) text) : ¬Adjoins last 'k' text := by
    obtain ⟨front, named, back⟩ := padded
    exact (QualifiedText.bare named).not_adjoins looked front back
  have whole : Separated ',' (fun name => Padded (NameText name)) columns text :=
    list
  induction whole with
  | one padded => exact free padded
  | more padded rest ih =>
      exact not_adjoins_append_cons (parts_of_mem last looked ',' (by simp))
        (free padded) (ih rest)

theorem not_adjoins_parenthesized {columns : List Name} {list : List Char}
    (spelled : ColumnsText columns list) (one : ¬Adjoins last 'k' before)
    (two : ¬Adjoins last 'k' after) :
    ¬Adjoins last 'k' (before ++ '(' :: (list ++ ')' :: after)) :=
  not_adjoins_append_cons (parts_of_mem last looked '(' (by simp)) one
    (not_adjoins_append_cons (parts_of_mem last looked ')' (by simp))
      (spelled.not_adjoins looked) two)

theorem TargetText.not_adjoins {table : Name} (front : Gap before)
    (spelled : TargetText table text) (back : Gap after) :
    ¬Adjoins last 'k' (before ++ text ++ after) := by
  cases spelled with
  | bare named => exact named.not_adjoins looked front back
  | @columns columns name gap list named white columnsText =>
      have whole : before ++ (name ++ gap ++ '(' :: list ++ [')']) ++ after =
          (before ++ name ++ gap) ++ '(' :: (list ++ ')' :: after) := by simp
      rw [whole]
      exact not_adjoins_parenthesized looked columnsText
        (named.not_adjoins looked front white) (not_adjoins_gap looked back)

end Parting

section Keys

variable {one : String} {text rest : List Char} {place after : Place}
  {pattern : Pattern}

theorem Words.exists_single {word : String} (spelled : Words [word] text) :
    ∃ letters space, text = letters ++ space ∧
      Cased word.toList letters ∧ Space space := by
  cases spelled with
  | cons cased space none =>
      cases none
      exact ⟨_, _, List.append_nil _, cased, space⟩

theorem ColumnsText.noClose {columns : List Name}
    (list : ColumnsText columns text) : ')' ∉ text := by
  have absent {name : Name} {text : List Char}
      (padded : Padded (NameText name) text) : ')' ∉ text := by
    obtain ⟨front, named, back⟩ := padded
    intro member
    rcases List.mem_append.mp member with inside | behind
    · rcases List.mem_append.mp inside with before | within
      · exact absurd (front _ before) (by decide)
      · exact absurd (named.chars _ within) (by decide)
    · exact absurd (back _ behind) (by decide)
  have whole : Separated ',' (fun name => Padded (NameText name)) columns text :=
    list
  induction whole with
  | one padded => exact absent padded
  | more padded rest ih =>
      simp only [List.mem_append, List.mem_cons, not_or]
      exact ⟨absent padded, by decide, ih rest⟩

theorem leads_is {c : Char} (split : place.rest = c :: rest) :
    Leads (Pattern.is c) place (place.past [c] rest) :=
  (Pattern.readsOne_char _).reads split (by simp)

/-- Columns in parentheses lead past them and are kept. -/
theorem leads_parenthesized {columns : List Name}
    (list : ColumnsText columns text) (number : Nat)
    (split : place.rest = '(' :: (text ++ ')' :: rest)) :
    Leads (parenthesized number) place
      (((place.past ['('] (text ++ ')' :: rest)).keep number text
        (')' :: rest)).past [')'] rest) := by
  have within : ∀ c ∈ text, (!")".toList.contains c) = true := by
    intro c member
    have different : c ≠ ')' := fun equal => list.noClose (equal ▸ member)
    simpa using different
  have inner : Leads (Pattern.many (Pattern.noneOf ")"))
      (place.past ['('] (text ++ ')' :: rest))
      ((place.past ['('] (text ++ ')' :: rest)).past text (')' :: rest)) :=
    Pattern.leads_many (Pattern.readsOne_char _) rfl within (by simp)
  exact (leads_is split).seq (inner.group.seq (leads_is rfl))

/-- The keywords of a key lead past them and the white space after them. -/
theorem leads_key {words key gap : List Char} (spelled : Words [one] words)
    (cased : Cased "key".toList key) (keyword : Keyword one) (white : Gap gap)
    (solid : ∀ c ∈ rest.head?, isBlank c = false)
    (split : place.rest = words ++ (key ++ (gap ++ rest)))
    (others : Leads pattern (place.past (words ++ (key ++ gap)) rest) after) :
    Leads (seq (phrase [one]) (seq (word "key") (seq blanks pattern))) place
      after := by
  have first : Leads (phrase [one]) place
      (place.past words (key ++ (gap ++ rest))) :=
    leads_phrase (by simpa using keyword) (by simp) spelled
      (cased.starts (by decide) (by decide)).append.head split
  have second : Leads (word "key") (place.past words (key ++ (gap ++ rest)))
      ((place.past words (key ++ (gap ++ rest))).past key (gap ++ rest)) :=
    Pattern.leads_word (cased.spells (by decide)) rfl
  have third : Leads blanks
      ((place.past words (key ++ (gap ++ rest))).past key (gap ++ rest))
      (((place.past words (key ++ (gap ++ rest))).past key (gap ++ rest)).past
        gap rest) :=
    Pattern.leads_blanks rfl white solid
  rw [Place.past_past, Place.past_past, List.append_assoc] at third
  rw [Place.past_past] at second
  exact first.seq (second.seq (third.seq others))

end Keys

section Constraints

variable {constraint : Constraint} {columns : List Name} {table : Name}
  {text : List Char}

/-- The keyword that a key begins with. -/
def Constraint.word : Constraint → String
  | .primaryKey _ => "primary"
  | .foreignKey _ _ => "foreign"

theorem Constraint.keyword (constraint : Constraint) :
    Keyword constraint.word := by
  cases constraint <;> rw [Constraint.word] <;> decide

theorem KeyText.exists_keyword (spelled : KeyText constraint text) :
    ∃ letters space rest, text = letters ++ space ++ rest ∧
      Cased constraint.word.toList letters ∧ Space space := by
  cases spelled with
  | primaryKey words _ _ _ =>
      obtain ⟨letters, space, rfl, cased, spaced⟩ := words.exists_single
      exact ⟨letters, space, _, by simp only [List.append_assoc]; rfl, cased,
        spaced⟩
  | foreignKey words _ _ _ _ _ _ =>
      obtain ⟨letters, space, rfl, cased, spaced⟩ := words.exists_single
      exact ⟨letters, space, _, by simp only [List.append_assoc]; rfl, cased,
        spaced⟩

theorem KeyText.segment (spelled : KeyText constraint text) :
    Segment Inline text := by
  cases spelled with
  | primaryKey words key gap list =>
      rw [List.append_assoc]
      exact (((words.segment (by decide)).append (key.segment (by decide))).append
        (segment_gap gap)).append list.segment.parenthesized
  | @foreignKey columns table text key gap list space references target words
      cased white columnsText whiteToo following aim =>
      have whole : text ++ key ++ gap ++ '(' :: list ++
          ')' :: space ++ references ++ target =
            text ++ key ++ gap ++ ('(' :: list ++ [')']) ++
              (space ++ references ++ target) := by simp
      rw [whole]
      exact ((((words.segment (by decide)).append
        (cased.segment (by decide))).append (segment_gap white)).append
          columnsText.segment.parenthesized).append
            (((segment_gap whiteToo).append
              (following.segment (by decide))).append aim.segment)

theorem KeyText.ends (spelled : KeyText constraint text) : Ends text := by
  cases spelled with
  | primaryKey _ _ _ _ => exact ends_of_mark (by decide) _
  | foreignKey _ _ _ _ _ _ aim => exact aim.ends.append

theorem KeyText.starts (spelled : KeyText constraint text) : Starts text := by
  obtain ⟨letters, space, rest, rfl, cased, -⟩ := spelled.exists_keyword
  rw [List.append_assoc]
  exact (cased.starts constraint.keyword.1 constraint.keyword.2).append

theorem ConstraintText.segment (spelled : ConstraintText constraint text) :
    Segment Inline text := by
  cases spelled with
  | anonymous key => exact key.segment
  | named words label space key =>
      exact (((words.segment (by decide)).append label.inline).append
        (segment_gap space.2)).append key.segment

theorem ConstraintText.ends (spelled : ConstraintText constraint text) :
    Ends text := by
  cases spelled with
  | anonymous key => exact key.ends
  | named _ _ _ key => exact key.ends.append

theorem ConstraintText.starts (spelled : ConstraintText constraint text) :
    Starts text := by
  cases spelled with
  | anonymous key => exact key.starts
  | named words _ _ _ =>
      rw [List.append_assoc, List.append_assoc]
      exact (words.starts (by decide)).append

/-- A constraint with white space around it is known by its first word. -/
theorem isConstraint_constraint
    (padded : Padded (ConstraintText constraint) text) :
    isConstraint text = true := by
  have listed {word : String} {letters space rest : List Char}
      (cased : Cased word.toList letters) (keyword : Keyword word)
      (spaced : Space space)
      (known : constraintKeywords.contains
        (String.ofList (word.toList.map Char.toUpper)) = true) :
      isKeyword constraintKeywords
        ((words (letters ++ space ++ rest)).headD []) = true := by
    rw [words_append_space spaced.1 spaced.2,
      words_solid (cased.filled keyword.1) (cased.solid keyword.2)]
    change isKeyword constraintKeywords letters = true
    rw [isKeyword, cased.upper fun c member =>
      mem_typeLetters (keyword.2 c member)]
    exact known
  obtain ⟨front, spelled, back⟩ := padded
  rw [isConstraint, words_append_gap back, words_gap_append front]
  cases spelled with
  | anonymous key =>
      obtain ⟨letters, space, rest, rfl, cased, spaced⟩ := key.exists_keyword
      refine listed cased constraint.keyword spaced ?_
      cases constraint <;> rw [Constraint.word] <;> decide
  | named words _ _ _ =>
      obtain ⟨letters, space, rfl, cased, spaced⟩ := words.exists_single
      rw [List.append_assoc, List.append_assoc]
      exact listed cased (by decide) spaced (by decide)

/-- What may stand before a key: white space, perhaps after a name. -/
structure Label (text : List Char) : Prop where
  ended : ∀ c ∈ text.getLast?, isBlank c = true
  free : ∀ last ∈ ['y', 'n'], ¬Adjoins last 'k' text

/-- A constraint is its key after a label. -/
theorem exists_label (padded : Padded (ConstraintText constraint) text) :
    ∃ label key after, text = label ++ (key ++ after) ∧ Label label ∧
      KeyText constraint key ∧ Gap after := by
  obtain ⟨front, spelled, back⟩ := padded
  rename_i before item after
  cases spelled with
  | anonymous key =>
      refine ⟨before, item, after, by simp, ⟨?_, ?_⟩, key, back⟩
      · exact fun c member => front c (List.mem_of_getLast? member)
      · exact fun last looked => not_adjoins_gap looked front
  | @named label words name space key spelled named spaced keyText =>
      obtain ⟨letters, gap, rfl, cased, white⟩ := spelled.exists_single
      refine ⟨before ++ (letters ++ (gap ++ name ++ space)), key, after,
        by simp, ⟨?_, ?_⟩, keyText, back⟩
      · intro c member
        obtain ⟨d, final, blank⟩ :=
          getLast?_append_space (before ++ (letters ++ (gap ++ name))) spaced
        have whole : before ++ (letters ++ (gap ++ name ++ space)) =
            before ++ (letters ++ (gap ++ name)) ++ space := by simp
        rw [whole, final] at member
        exact Option.some.inj member ▸ blank
      · intro last looked
        refine cased.not_adjoins (by decide) ?_ looked
          (not_adjoins_gap looked front)
          ((QualifiedText.bare named).not_adjoins looked white.2 spaced.2)
        exact ⟨'c', "onstrain".toList, 't', by
          revert last
          decide⟩

/-- The search for a key goes past its label. -/
theorem search_key {one : String} {start last : Char} {middle : List Char}
    {pattern : Pattern} {label words rest : List Char} {after : Place}
    (letters : one.toList = start :: (middle ++ [last]))
    (plain : start ∈ nameLetters) (apart : last ≠ start ∧ 'k' ≠ start)
    (keyword : Keyword one) (looked : last ∈ ['y', 'n'])
    (labelled : Label label) (spelled : Words [one] words)
    (leads : Leads (seq (phrase [one]) (seq (word "key") pattern))
      (.start label (words ++ rest)) after) :
    (seq (phrase [one]) (seq (word "key") pattern)).search
      (label ++ (words ++ rest)) =
        some (Match.ending label.reverse (words ++ rest) after) := by
  refine Pattern.search_of_leads (fun front back split filled => ?_) leads
  obtain ⟨text, space, rfl, cased, -⟩ := spelled.exists_single
  rw [letters] at cased
  obtain ⟨c, more, form, -, rfl⟩ := List.forall₂_cons_left_iff.mp cased
  have parts : Parts last 'k' c :=
    parts_of_form plain form (plain_of_mem last looked) (by decide) apart.1
      apart.2
  have oneLetters : one.toList = (start :: middle) ++ [last] := letters
  have twoLetters : "key".toList = 'k' :: "ey".toList := by decide
  have free : ¬Adjoins last 'k' (front ++ back) :=
    split ▸ labelled.free last looked
  have ended := labelled.ended
  rw [split, List.getLast?_append_of_ne_nil _ filled] at ended
  rw [List.append_assoc, List.cons_append]
  exact pair_fails_before oneLetters twoLetters keyword free parts
    ⟨back.getLast filled, List.getLast?_eq_some_getLast filled,
      ended _ (List.getLast?_eq_some_getLast filled)⟩

theorem key_not_adjoins {last : Char} {one : String}
    {label words key gap list rest : List Char} (looked : last ∈ ['y', 'n'])
    (labelled : Label label) (spelled : Words [one] words)
    (keyword : Keyword one) (fences : Fences last one)
    (cased : Cased "key".toList key) (white : Gap gap)
    (columnsText : ColumnsText columns list) (free : ¬Adjoins last 'k' rest) :
    ¬Adjoins last 'k'
      (label ++ (words ++ (key ++ (gap ++ '(' :: (list ++ ')' :: rest))))) := by
  obtain ⟨letters, space, rfl, one, spaced⟩ := spelled.exists_single
  have whole : label ++ (letters ++ space ++ (key ++ (gap ++
      '(' :: (list ++ ')' :: rest)))) = label ++ (letters ++
        (space ++ key ++ gap ++ '(' :: (list ++ ')' :: rest))) := by simp
  rw [whole]
  refine one.not_adjoins keyword fences looked (labelled.free last looked) ?_
  exact not_adjoins_parenthesized looked columnsText
    (not_adjoins_solid (plain_of_mem last looked) (by decide) spaced.2
      (cased.solid (by decide)) white) free

/-- The columns of a primary key are found in the text of its constraint. -/
theorem search_primaryKey
    (padded : Padded (ConstraintText (.primaryKey columns)) text) :
    ∃ found, primaryKey.search text = some found ∧
      identifiers (found.group 1) = columns.map Name.text := by
  obtain ⟨label, key, after, rfl, labelled, spelled, white⟩ :=
    exists_label padded
  cases spelled with
  | @primaryKey columns words name gap list spelled cased whiteToo listed =>
      have leads : Leads primaryKey
          (.start label (words ++ (name ++ (gap ++ '(' ::
            (list ++ ')' :: after))))) _ :=
        leads_key spelled cased (by decide) whiteToo (by simp; decide) rfl
          (leads_parenthesized listed 1 rfl)
      have found : primaryKey.search (label ++ (words ++ (name ++ (gap ++
          '(' :: (list ++ ')' :: after))))) = some _ :=
        search_key (by decide : "primary".toList =
          'p' :: ("rimar".toList ++ ['y'])) (by decide) (by decide)
            (by decide) (by decide) labelled spelled leads
      refine ⟨_, by simpa using found, ?_⟩
      simp [Match.group, Pattern.group?_ending, identifiers_columns listed]

/-- No foreign key is found in the text of a primary key. -/
theorem search_foreignKey_eq_none
    (padded : Padded (ConstraintText (.primaryKey columns)) text) :
    foreignKey.search text = none := by
  obtain ⟨label, key, after, rfl, labelled, spelled, white⟩ :=
    exists_label padded
  cases spelled with
  | @primaryKey columns words name gap list spelled cased whiteToo listed =>
      have fences : Fences 'n' "primary" :=
        ⟨'p', "rimar".toList, 'y', by decide⟩
      have free : ¬Adjoins 'n' 'k' (label ++ (words ++ (name ++ (gap ++
          '(' :: (list ++ ')' :: after))))) :=
        key_not_adjoins (by decide) labelled spelled (by decide) fences cased
          whiteToo listed (not_adjoins_gap (by decide) white)
      have whole : label ++ (words ++ name ++ gap ++ '(' :: list ++ [')'] ++
          after) = label ++ (words ++ (name ++ (gap ++
            '(' :: (list ++ ')' :: after)))) := by simp
      rw [whole]
      refine Pattern.search_eq_none fun front back split => ?_
      exact pair_fails (by decide : "foreign".toList = "foreig".toList ++ ['n'])
        (by decide : "key".toList = 'k' :: "ey".toList) (by decide)
          (split ▸ free)

/-- The columns and the table of a foreign key are found in the text of its
constraint. -/
theorem search_foreignKey
    (padded : Padded (ConstraintText (.foreignKey columns table)) text) :
    ∃ found, foreignKey.search text = some found ∧
      identifiers (found.group 1) = columns.map Name.text ∧
        identifier (found.group 2) = table.text := by
  obtain ⟨label, key, after, rfl, labelled, spelled, white⟩ :=
    exists_label padded
  cases spelled with
  | @foreignKey columns table words name gap list space references target
      spelled cased whiteToo listed spaced following aimed =>
      have edge : ∀ c ∈ after.head?, isNameChar c = false := fun c member =>
        isNameChar_of_isBlank (white c (List.mem_of_mem_head? member))
      obtain ⟨title, tail, rfl, named, edgeToo⟩ := aimed.exists_name edge
      have starts : ∀ c ∈ (references ++ (title ++ (tail ++ after))).head?,
          isBlank c = false := (following.starts (by decide)).append.head
      have startsToo : ∀ c ∈ (title ++ (tail ++ after)).head?,
          isBlank c = false := named.starts.append.head
      have leads : Leads foreignKey
          (.start label (words ++ (name ++ (gap ++ '(' :: (list ++ ')' ::
            (space ++ (references ++ (title ++ (tail ++ after))))))))) _ :=
        leads_key spelled cased (by decide) whiteToo (by simp; decide) rfl
          ((leads_parenthesized listed 1 rfl).seq
            ((Pattern.leads_blanks rfl spaced starts).seq
              ((leads_phrase (by decide) (by simp) following startsToo rfl).seq
                (named.leads (by simpa using edgeToo) rfl).group)))
      have found : foreignKey.search (label ++ (words ++ (name ++ (gap ++
          '(' :: (list ++ ')' :: (space ++ (references ++
            (title ++ (tail ++ after))))))))) = some _ :=
        search_key (by decide : "foreign".toList =
          'f' :: ("oreig".toList ++ ['n'])) (by decide) (by decide)
            (by decide) (by decide) labelled spelled leads
      refine ⟨_, by simpa using found, ?_⟩
      simp [Match.group, Pattern.group?_ending, identifiers_columns listed,
        named.identifier_self, List.lookup_cons]

/-- No primary key is found in the text of a foreign key. -/
theorem search_primaryKey_eq_none
    (padded : Padded (ConstraintText (.foreignKey columns table)) text) :
    primaryKey.search text = none := by
  obtain ⟨label, key, after, rfl, labelled, spelled, white⟩ :=
    exists_label padded
  cases spelled with
  | @foreignKey columns table words name gap list space references target
      spelled cased whiteToo listed spaced following aimed =>
      have fences : Fences 'y' "foreign" :=
        ⟨'f', "oreig".toList, 'n', by decide⟩
      have fencesToo : Fences 'y' "references" :=
        ⟨'r', "eference".toList, 's', by decide⟩
      obtain ⟨letters, break_, rfl, casedToo, broken⟩ :=
        following.exists_single
      have rest : ¬Adjoins 'y' 'k' (space ++ (letters ++
          (break_ ++ target ++ after))) :=
        casedToo.not_adjoins (by decide) fencesToo (by decide)
          (not_adjoins_gap (by decide) spaced)
          (aimed.not_adjoins (by decide) broken.2 white)
      have free : ¬Adjoins 'y' 'k' (label ++ (words ++ (name ++ (gap ++
          '(' :: (list ++ ')' :: (space ++ (letters ++
            (break_ ++ target ++ after)))))))) :=
        key_not_adjoins (by decide) labelled spelled (by decide) fences cased
          whiteToo listed rest
      have whole : label ++ (words ++ name ++ gap ++ '(' :: list ++
          ')' :: space ++ (letters ++ break_) ++ target ++ after) =
            label ++ (words ++ (name ++ (gap ++ '(' :: (list ++ ')' ::
              (space ++ (letters ++ (break_ ++ target ++ after))))))) := by
        simp
      rw [whole]
      refine Pattern.search_eq_none fun front back split => ?_
      exact pair_fails (by decide : "primary".toList = "primar".toList ++ ['y'])
        (by decide : "key".toList = 'k' :: "ey".toList) (by decide)
          (split ▸ free)

end Constraints

end ArchSurvey.Schema
