import ArchSurvey.Proofs.Schema.Tokens

/-!
# Clauses of columns

The texts of what is said about a column: they are segments without commas and
semicolons outside, they mention no keyword but their own, and the pattern of
a clause leads past its text.
-/

namespace ArchSurvey.Schema

open Text
open Text.Pattern (Spells Leads Place sameLetter)

/-- The characters outside the nested parts of an item. -/
def Inline (c : Char) : Prop :=
  c ≠ ',' ∧ c ≠ ';'

instance (c : Char) : Decidable (Inline c) :=
  inferInstanceAs (Decidable (_ ∧ _))

section Segments

theorem segment_of_chars {text : List Char}
    (safe : ∀ c ∈ text, c ∉ ['\'', '(', ')', '-', '/', ',', ';']) :
    Segment Inline text := by
  refine .ofPlain (fun c member => ?_) fun c member mark => ?_
  · have here := safe c member
    simp only [List.mem_cons, not_or] at here
    exact ⟨here.2.2.2.2.2.1, here.2.2.2.2.2.2.1⟩
  · apply safe c member
    simp only [List.mem_cons] at mark ⊢
    tauto

theorem segment_gap {text : List Char} (gap : Gap text) :
    Segment Inline text :=
  segment_of_chars fun c member mark => by
    have solid : ∀ c ∈ ['\'', '(', ')', '-', '/', ',', ';'],
        isBlank c = false := by decide
    have white := gap c member
    rw [solid c mark] at white
    cases white

theorem segment_wordChars {text : List Char}
    (wordly : ∀ c ∈ text, isWordChar c = true) :
    Segment (fun c => Inline c ∧ c ≠ ' ') text := by
  have unlike {c mark : Char} (member : c ∈ text)
      (outside : isWordChar mark = false) : c ≠ mark := by
    rintro rfl
    rw [wordly c member] at outside
    cases outside
  refine .ofPlain (fun c member => ?_) fun c member mark => ?_
  · exact ⟨⟨unlike member (by decide), unlike member (by decide)⟩,
      unlike member (by decide)⟩
  · have marks : ∀ c ∈ ['\'', '(', ')', '-', '/'], isWordChar c = false := by
      decide
    exact unlike member (marks c mark) rfl

theorem Cased.segment {word : String} {text : List Char}
    (cased : Cased word.toList text) (keyword : Keyword word) :
    Segment Inline text :=
  (segment_wordChars (cased.wordChars keyword.2)).mono fun _ passes => passes.1

theorem Words.segment {words : List String} {text : List Char}
    (spelled : Words words text) (keywords : ∀ word ∈ words, Keyword word) :
    Segment Inline text := by
  induction spelled with
  | nil => exact .nil
  | cons cased space _ ih =>
      have keyword := keywords _ List.mem_cons_self
      exact ((cased.segment keyword).append (segment_gap space.2)).append
        (ih fun word member => keywords word (List.mem_cons_of_mem _ member))

theorem QualifiedText.inline {name : Name} {text : List Char}
    (spelled : QualifiedText name text) : Segment Inline text :=
  spelled.segment.mono fun c named => by
    constructor <;> rintro rfl <;> revert named <;> decide

theorem NameText.inline {name : Name} {text : List Char}
    (spelled : NameText name text) : Segment Inline text :=
  (QualifiedText.bare spelled).inline

theorem Padded.segment {spelled : List Char → Prop} {text : List Char}
    (padded : Padded spelled text)
    (inner : ∀ text, spelled text → Segment Inline text) :
    Segment Inline text := by
  obtain ⟨front, here, back⟩ := padded
  exact ((segment_gap front).append (inner _ here)).append (segment_gap back)

theorem Separated.segment {α : Type} {spelled : α → List Char → Prop}
    {outside : Char → Prop} (comma : outside ',')
    (each : ∀ item text, spelled item text → Segment outside text)
    {items : List α} {text : List Char}
    (separated : Separated ',' spelled items text) : Segment outside text := by
  induction separated with
  | one here => exact each _ _ here
  | more here _ ih =>
      exact (each _ _ here).append (.plain comma (by decide) ih)

theorem ColumnsText.segment {columns : List Name} {text : List Char}
    (list : ColumnsText columns text) : Segment (· ≠ ';') text :=
  Separated.segment (by decide)
    (fun _ _ padded => (padded.segment fun _ => NameText.inline).mono
      fun _ inline => inline.2) list

theorem TargetText.segment {table : Name} {text : List Char}
    (target : TargetText table text) : Segment Inline text := by
  cases target with
  | bare named => exact named.inline
  | columns named gap list =>
      rw [List.append_assoc, List.append_assoc]
      exact named.inline.append ((segment_gap gap).append
        list.segment.parenthesized)

theorem not_mem_of_digits {text : List Char} (digits : Digits text) :
    ∀ c ∈ text, c ∉ ['\'', '(', ')', '-', '/', ',', ';'] := by
  intro c member
  have each : ∀ c ∈ "0123456789".toList,
      c ∉ ['\'', '(', ')', '-', '/', ',', ';'] := by decide
  exact each c (digits.2 c member)

theorem segment_signed {sign digits : List Char} (signed : SignText sign)
    (numeric : Digits digits) : Segment Inline (sign ++ digits) := by
  have plain := segment_of_chars (not_mem_of_digits numeric)
  obtain ⟨c, rest, rfl⟩ := List.exists_cons_of_ne_nil numeric.1
  simp only [SignText, List.mem_cons, List.not_mem_nil, or_false] at signed
  rcases signed with rfl | rfl | rfl
  · exact plain
  · exact .plain (by decide) (by decide) plain
  · refine .minus (by decide) ?_ plain
    rintro rfl
    exact not_mem_of_digits numeric '-' List.mem_cons_self (by decide)

theorem NumberText.segment {text : List Char} (number : NumberText text) :
    Segment Inline text := by
  obtain ⟨signed, whole, fraction, exponent⟩ := number
  refine ((segment_signed signed whole).append ?_).append ?_
  · cases fraction with
    | none => exact .nil
    | some digits =>
        exact .plain (by decide) (by decide)
          (segment_of_chars (not_mem_of_digits digits))
  · cases exponent with
    | none => exact .nil
    | some letter signed digits =>
        simp only [List.mem_cons, List.not_mem_nil, or_false] at letter
        rcases letter with rfl | rfl <;>
          exact .plain (by decide) (by decide) (segment_signed signed digits)

theorem StringText.segment {outside : Char → Prop} {content : List Char}
    (string : StringText content) :
    Segment outside ('\'' :: content ++ ['\'']) :=
  .quoted string.noQuote string.noBlock string.noLine .nil

theorem ClauseText.segment {clause : Clause} {text : List Char}
    (spelled : ClauseText clause text) : Segment Inline text := by
  cases spelled with
  | notNull words last =>
      exact (words.segment (by decide)).append (last.segment (by decide))
  | primaryKey words last =>
      exact (words.segment (by decide)).append (last.segment (by decide))
  | references words target =>
      exact (words.segment (by decide)).append target.segment
  | number words number =>
      exact (words.segment (by decide)).append number.segment
  | string words content =>
      rw [List.append_assoc]
      exact (words.segment (by decide)).append content.segment

theorem ClausesText.segment {clauses : List Clause} {text : List Char}
    (spelled : ClausesText clauses text) : Segment Inline text := by
  induction spelled with
  | nil => exact .nil
  | cons space clause _ ih =>
      exact ((segment_gap space.2).append clause.segment).append ih

end Segments

section Bounds

theorem ends_of_digits {before digits : List Char} (numeric : Digits digits) :
    Ends (before ++ digits) :=
  (ends_of_solid numeric.1 fun c member => by
    have each : ∀ c ∈ "0123456789".toList, isBlank c = false := by decide
    exact each c (numeric.2 c member)).append

theorem NumberText.ends {text : List Char} (number : NumberText text) :
    Ends text := by
  obtain ⟨signed, whole, fraction, exponent⟩ := number
  cases exponent with
  | some letter signed digits => exact (ends_of_digits digits).append
  | none =>
      rw [List.append_nil]
      cases fraction with
      | none =>
          rw [List.append_nil]
          exact ends_of_digits whole
      | some digits =>
          rw [List.append_cons]
          exact ends_of_digits digits

theorem ends_of_mark {c : Char} (solid : isBlank c = false)
    (text : List Char) : Ends (text ++ [c]) :=
  ⟨c, by simp, solid⟩

theorem TargetText.ends {table : Name} {text : List Char}
    (target : TargetText table text) : Ends text := by
  cases target with
  | bare named => exact named.ends
  | columns named gap list => exact ends_of_mark (by decide) _

theorem TargetText.starts {table : Name} {text : List Char}
    (target : TargetText table text) : Starts text := by
  cases target with
  | bare named => exact named.starts
  | columns named gap list =>
      rw [List.append_assoc, List.append_assoc]
      exact named.starts.append

theorem ClauseText.ends {clause : Clause} {text : List Char}
    (spelled : ClauseText clause text) : Ends text := by
  cases spelled with
  | notNull words last =>
      exact (last.ends (by decide) (by decide)).append
  | primaryKey words last =>
      exact (last.ends (by decide) (by decide)).append
  | references words target => exact target.ends.append
  | number words number => exact number.ends.append
  | string words content => exact ends_of_mark (by decide) _

/-- The keyword that a clause begins with. -/
def Clause.word : Clause → String
  | .notNull => "not"
  | .primaryKey => "primary"
  | .references _ => "references"
  | .default => "default"

theorem Clause.keyword (clause : Clause) : Keyword clause.word := by
  cases clause <;> rw [Clause.word] <;> decide

/-- A clause is its keyword, white space and more. -/
theorem ClauseText.exists_keyword {clause : Clause} {text : List Char}
    (spelled : ClauseText clause text) :
    ∃ first space rest, text = first ++ space ++ rest ∧
      Cased clause.word.toList first ∧ Space space := by
  have split {word : String} {text rest : List Char}
      (words : Words [word] text) :
      ∃ first space tail, text ++ rest = first ++ space ++ tail ∧
        Cased word.toList first ∧ Space space := by
    cases words with
    | cons cased space _ => exact ⟨_, _, _, List.append_assoc _ _ _, cased, space⟩
  cases spelled with
  | notNull words last => exact split words
  | primaryKey words last => exact split words
  | references words target => exact split words
  | number words number => exact split words
  | string words content =>
      rw [List.append_assoc]
      exact split words

theorem ClauseText.starts {clause : Clause} {text : List Char}
    (spelled : ClauseText clause text) : Starts text := by
  obtain ⟨first, space, rest, rfl, cased, -⟩ := spelled.exists_keyword
  rw [List.append_assoc]
  exact (cased.starts clause.keyword.1 clause.keyword.2).append

end Bounds

section Mentions

variable {word : String}

theorem Cased.not_mentions {other : String} {text : List Char}
    (cased : Cased other.toList text) (keyword : Keyword word)
    (keywordToo : Keyword other) (different : word ≠ other) :
    ¬Mentions word text := by
  rw [mentions_iff_spells (cased.wordChars keywordToo.2)]
  intro spelled
  exact different (String.toList_inj.mp
    (cased.eq_of_spells keywordToo.2 keyword.2 spelled))

theorem Words.not_mentions {words : List String} {text rest : List Char}
    (spelled : Words words text) (keyword : Keyword word)
    (others : ∀ other ∈ words, Keyword other ∧ word ≠ other)
    (free : ¬Mentions word rest) : ¬Mentions word (text ++ rest) := by
  induction spelled with
  | nil => exact free
  | @cons first words text space tail cased white _ ih =>
      obtain ⟨keywordToo, different⟩ := others _ List.mem_cons_self
      have whole : text ++ space ++ tail ++ rest =
          text ++ space ++ (tail ++ rest) := by simp
      rw [whole, mentions_append_space keyword white, not_or]
      exact ⟨cased.not_mentions keyword keywordToo different,
        ih fun other member => others other (List.mem_cons_of_mem _ member)⟩

theorem Padded.not_mentions {spelled : List Char → Prop} {text : List Char}
    (padded : Padded spelled text) (keyword : Keyword word)
    (free : ∀ text, spelled text → ¬Mentions word text) :
    ¬Mentions word text := by
  obtain ⟨front, here, back⟩ := padded
  rw [mentions_append_gap keyword back, mentions_gap_append keyword front]
  exact free _ here

theorem Separated.not_mentions {α : Type} {spelled : α → List Char → Prop}
    (free : ∀ item text, spelled item text → ¬Mentions word text)
    {items : List α} {text : List Char}
    (separated : Separated ',' spelled items text) : ¬Mentions word text := by
  induction separated with
  | one here => exact free _ _ here
  | more here _ ih =>
      rw [mentions_append_cons (by decide), not_or]
      exact ⟨free _ _ here, ih⟩

theorem ColumnsText.not_mentions {columns : List Name} {text : List Char}
    (list : ColumnsText columns text) (keyword : Keyword word)
    (taken : word ∈ reserved) : ¬Mentions word text :=
  Separated.not_mentions (fun _ _ padded => padded.not_mentions keyword
    fun _ named => named.not_mentions keyword taken) list

theorem not_mentions_between {start stop : Char} {text : List Char}
    (keyword : Keyword word) (open_ : isWordChar start = false)
    (close : isWordChar stop = false) (free : ¬Mentions word text) :
    ¬Mentions word (start :: text ++ [stop]) := by
  have whole : start :: text ++ [stop] = [] ++ start :: (text ++ stop :: []) :=
    rfl
  rw [whole, mentions_append_cons open_, mentions_append_cons close]
  simp [free, not_mentions_nil keyword]

theorem TargetText.not_mentions {table : Name} {text : List Char}
    (target : TargetText table text) (keyword : Keyword word)
    (taken : word ∈ reserved) : ¬Mentions word text := by
  cases target with
  | bare named => exact named.not_mentions keyword taken
  | @columns columns name gap list named white columnsText =>
      have whole : name ++ gap ++ '(' :: list ++ [')'] =
          (name ++ gap) ++ '(' :: (list ++ ')' :: []) := by simp
      rw [whole, mentions_append_cons (by decide),
        mentions_append_cons (by decide), mentions_append_gap keyword white]
      simp [not_mentions_nil keyword, named.not_mentions keyword taken,
        columnsText.not_mentions keyword taken]

theorem NumberText.not_mentions {text : List Char} (number : NumberText text)
    {letter : Char} (member : letter ∈ word.toList)
    (absent : ∀ c ∈ "0123456789+-.eE".toList, sameLetter letter c = false) :
    ¬Mentions word text := by
  refine not_mentions_of_absent member fun c inside => absent c ?_
  have numeric {digits : List Char} (here : Digits digits) :
      ∀ c ∈ digits, c ∈ "0123456789+-.eE".toList := fun c inside => by
    have each : ∀ c ∈ "0123456789".toList, c ∈ "0123456789+-.eE".toList := by
      decide
    exact each c (here.2 c inside)
  have signs {sign : List Char} (here : SignText sign) :
      ∀ c ∈ sign, c ∈ "0123456789+-.eE".toList := by
    simp only [SignText, List.mem_cons, List.not_mem_nil, or_false] at here
    rcases here with rfl | rfl | rfl <;> decide
  obtain ⟨signed, whole, fraction, exponent⟩ := number
  simp only [List.mem_append] at inside
  rcases inside with ((inside | inside) | inside) | inside
  · exact signs signed c inside
  · exact numeric whole c inside
  · cases fraction with
    | none => cases inside
    | some digits =>
        rcases List.mem_cons.mp inside with rfl | later
        · decide
        · exact numeric digits c later
  · cases exponent with
    | none => cases inside
    | some letter signed digits =>
        simp only [List.cons_append, List.mem_cons, List.mem_append] at inside
        rcases inside with rfl | later | later
        · simp only [List.mem_cons, List.not_mem_nil, or_false] at letter
          rcases letter with rfl | rfl <;> decide
        · exact signs signed c later
        · exact numeric digits c later

/-- The keywords that patterns look for in the text of a column. -/
def clauseWords : List String :=
  ["not", "primary", "references"]

/-- A clause mentions none of the words that other clauses begin with. -/
theorem ClauseText.not_mentions {clause : Clause} {text : List Char}
    (spelled : ClauseText clause text) (looked : word ∈ clauseWords)
    (different : word ≠ clause.word) : ¬Mentions word text := by
  have facts : ∀ word ∈ clauseWords, Keyword word ∧ word ∈ reserved ∧
      (Keyword "null" ∧ word ≠ "null") ∧ (Keyword "key" ∧ word ≠ "key") ∧
      word ∈ ["not", "null", "primary", "key", "references"] ∧
      ∃ letter ∈ word.toList, ∀ c ∈ "0123456789+-.eE".toList,
        sameLetter letter c = false := by decide
  obtain ⟨keyword, taken, null, key, banned, letter, member, absent⟩ :=
    facts word looked
  have first : ∀ other ∈ [clause.word], Keyword other ∧ word ≠ other := by
    simp [clause.keyword, different]
  cases spelled with
  | notNull words last =>
      exact words.not_mentions keyword first
        (last.not_mentions keyword null.1 null.2)
  | primaryKey words last =>
      exact words.not_mentions keyword first
        (last.not_mentions keyword key.1 key.2)
  | references words target =>
      exact words.not_mentions keyword first
        (target.not_mentions keyword taken)
  | number words number =>
      exact words.not_mentions keyword first
        (number.not_mentions member absent)
  | string words content =>
      rw [List.append_assoc]
      exact words.not_mentions keyword first
        (not_mentions_between keyword (by decide) (by decide)
          (content.free word banned))

theorem ClausesText.not_mentions {clauses : List Clause} {text : List Char}
    (spelled : ClausesText clauses text) (looked : word ∈ clauseWords)
    (different : ∀ clause ∈ clauses, word ≠ clause.word) :
    ¬Mentions word text := by
  have keyword : Keyword word := by
    have each : ∀ word ∈ clauseWords, Keyword word := by decide
    exact each word looked
  induction spelled with
  | nil => exact not_mentions_nil keyword
  | @cons clause clauses space text rest white here others ih =>
      have one := here.not_mentions looked
        (different clause List.mem_cons_self)
      have two := ih fun other member =>
        different other (List.mem_cons_of_mem _ member)
      cases others with
      | nil =>
          rwa [List.append_nil, mentions_gap_append keyword white.2]
      | @cons next clauses gap later rest whiteToo _ _ =>
          have whole : space ++ text ++ (gap ++ later ++ rest) =
              space ++ (text ++ gap ++ (later ++ rest)) := by simp
          rw [List.append_assoc, mentions_gap_append keyword whiteToo.2] at two
          rw [whole, mentions_gap_append keyword white.2,
            mentions_append_space keyword whiteToo, not_or]
          exact ⟨one, two⟩

end Mentions

end ArchSurvey.Schema
