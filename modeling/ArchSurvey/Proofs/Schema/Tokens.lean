import ArchSurvey.Proofs.Schema.LetterCase
import ArchSurvey.Proofs.Schema.Nesting

/-!
# Keywords and names as the reader finds them

How the patterns of keywords and names lead past the texts that spell them,
where they fail, and what is left of the text of a name.
-/

namespace ArchSurvey.Schema

open Text
open Text.Pattern (Spells Leads Place ReadsOne concat blanks blanks1 word opt
  seq wordChar)

section Keywords

theorem Cased.starts {letters text : List Char} (cased : Cased letters text)
    (filled : letters ≠ []) (plain : ∀ c ∈ letters, c ∈ nameLetters) :
    Starts text :=
  starts_of_solid (cased.filled filled) (cased.solid plain)

theorem Cased.ends {letters text : List Char} (cased : Cased letters text)
    (filled : letters ≠ []) (plain : ∀ c ∈ letters, c ∈ nameLetters) :
    Ends text :=
  ends_of_solid (cased.filled filled) (cased.solid plain)

theorem Words.starts {word : String} {words : List String} {text : List Char}
    (keyword : Keyword word) (spelled : Words (word :: words) text) :
    Starts text := by
  cases spelled with
  | cons cased _ _ =>
      rw [List.append_assoc]
      exact (cased.starts keyword.1 keyword.2).append

theorem phrase_cons_cons (first second : String) (words : List String) :
    phrase (first :: second :: words) =
      seq (seq (word first) blanks1) (phrase (second :: words)) := rfl

theorem phrase_singleton (only : String) :
    phrase [only] = seq (word only) blanks1 := rfl

/-- Keywords in the text lead past the white space after the last one. -/
theorem leads_phrase {words : List String} {text rest : List Char}
    (keywords : ∀ word ∈ words, Keyword word) (filled : words ≠ [])
    (spelled : Words words text) (solid : ∀ c ∈ rest.head?, isBlank c = false)
    {place : Place} (split : place.rest = text ++ rest) :
    Leads (phrase words) place (place.past text rest) := by
  induction spelled generalizing place with
  | nil => exact absurd rfl filled
  | @cons first words text space tail cased white others ih =>
      have keyword := keywords first List.mem_cons_self
      have plain := keyword.2
      have here : Leads (word first) place
          (place.past text (space ++ (tail ++ rest))) :=
        Pattern.leads_word (cased.spells plain) (by simpa using split)
      cases words with
      | nil =>
          cases others
          have gap : Leads blanks1 (place.past text (space ++ ([] ++ rest)))
              ((place.past text (space ++ ([] ++ rest))).past space rest) :=
            Pattern.leads_blanks1 white.1 rfl white.2 solid
          rw [Place.past_past] at gap
          rw [phrase_singleton, List.append_nil]
          exact here.seq gap
      | cons second words =>
          have next := keywords second (by simp)
          have begun : ∀ c ∈ (tail ++ rest).head?, isBlank c = false :=
            (others.starts next).append.head
          have gap : Leads blanks1 (place.past text (space ++ (tail ++ rest)))
              ((place.past text (space ++ (tail ++ rest))).past space
                (tail ++ rest)) :=
            Pattern.leads_blanks1 white.1 rfl white.2 begun
          have later : Leads (phrase (second :: words))
              (place.past (text ++ space) (tail ++ rest))
              ((place.past (text ++ space) (tail ++ rest)).past tail rest) :=
            ih (fun word member => keywords word (List.mem_cons_of_mem _ member))
              (by simp) rfl
          rw [Place.past_past] at gap later
          rw [phrase_cons_cons]
          exact (here.seq gap).seq later

/-- Keywords fail unless the text begins with the first and a blank after
it. -/
theorem phrase_fails {first : String} {words : List String} {place : Place}
    (clash : ∀ text c rest, place.rest = text ++ c :: rest →
      Spells first.toList text → isBlank c = false) :
    (phrase (first :: words)).ways place = [] := by
  have one : (seq (word first) blanks1).ways place = [] := by
    rw [Pattern.ways_seq_eq_nil]
    intro after way
    obtain ⟨text, rest, split, spelled, rfl⟩ :=
      Pattern.spells_of_mem_ways_word way
    rw [List.eq_nil_iff_forall_not_mem]
    intro last gapWay
    obtain ⟨gap, tail, parted, filled, white, -⟩ :=
      Pattern.blank_of_mem_ways_blanks1 gapWay
    obtain ⟨c, gap, rfl⟩ := List.exists_cons_of_ne_nil filled
    rw [Place.past_rest] at parted
    have solid := clash text c (gap ++ tail) (by simp [split, parted]) spelled
    rw [white c List.mem_cons_self] at solid
    cases solid
  cases words with
  | nil => exact one
  | cons second words =>
      rw [phrase_cons_cons]
      exact Pattern.ways_seq_of_left one

/-- A text without blanks that is another word refuses keywords. -/
theorem phrase_fails_at_token {first : String} {words : List String}
    {place : Place} {token rest : List Char} (keyword : Keyword first)
    (solid : ∀ c ∈ token, isBlank c = false)
    (other : ¬Spells first.toList token)
    (edge : ∀ c ∈ rest.head?, isWordChar c = false)
    (split : place.rest = token ++ rest) :
    (phrase (first :: words)).ways place = [] := by
  apply phrase_fails
  intro text c tail parted spelled
  rw [split] at parted
  rcases List.append_eq_append_iff.mp parted with
    ⟨inside, equal, tailEqual⟩ | ⟨inside, equal, tailEqual⟩
  · cases inside with
    | nil =>
        rw [List.append_nil] at equal
        exact absurd (equal ▸ spelled) other
    | cons d inside =>
        have member : d ∈ text := by simp [equal]
        have wordly := isWordChar_of_spells keyword.2 spelled d member
        rw [edge d (by simp [tailEqual])] at wordly
        cases wordly
  · cases inside with
    | nil =>
        rw [List.append_nil] at equal
        exact absurd (equal ▸ spelled) other
    | cons d inside =>
        obtain ⟨rfl, -⟩ := List.cons.inj tailEqual
        exact solid c (by simp [equal])

theorem phrase_fails_at_keyword {first other : String} {words : List String}
    {place : Place} {text rest : List Char} (keyword : Keyword first)
    (keywordToo : Keyword other) (different : first ≠ other)
    (cased : Cased other.toList text)
    (edge : ∀ c ∈ rest.head?, isWordChar c = false)
    (split : place.rest = text ++ rest) :
    (phrase (first :: words)).ways place = [] := by
  refine phrase_fails_at_token keyword (cased.solid keywordToo.2) ?_ edge split
  intro spelled
  exact different (String.toList_inj.mp
    (cased.eq_of_spells keywordToo.2 keyword.2 spelled))

/-- Keywords do not begin with a blank. -/
theorem phrase_fails_at_blank {first : String} {words : List String}
    {place : Place} {c : Char} {rest : List Char} (keyword : Keyword first)
    (white : isBlank c = true) (split : place.rest = c :: rest) :
    (phrase (first :: words)).ways place = [] := by
  apply phrase_fails
  intro text d tail parted spelled
  obtain ⟨e, text, rfl⟩ :=
    List.exists_cons_of_ne_nil (Spells.filled spelled keyword.1)
  rw [split, List.cons_append] at parted
  obtain ⟨rfl, -⟩ := List.cons.inj parted
  have wordly := isWordChar_of_spells keyword.2 spelled c List.mem_cons_self
  rw [isWordChar_of_isBlank white] at wordly
  cases wordly

/-- Keywords after white space are looked for where the white space ends. -/
theorem blanks_phrase_fails {first : String} {words : List String}
    {pattern : Pattern} {place : Place} {gap rest : List Char}
    (keyword : Keyword first) (white : Gap gap)
    (solid : ∀ c ∈ rest.head?, isBlank c = false)
    (split : place.rest = gap ++ rest)
    (fails : (phrase (first :: words)).ways (place.past gap rest) = []) :
    (seq blanks (seq (phrase (first :: words)) pattern)).ways place = [] := by
  rw [Pattern.ways_seq_eq_nil]
  intro after way
  obtain ⟨taken, remaining, parted, blank, rfl⟩ :=
    Pattern.blank_of_mem_ways_blanks way
  apply Pattern.ways_seq_of_left
  rw [split] at parted
  rcases List.append_eq_append_iff.mp parted with
    ⟨inside, rfl, rfl⟩ | ⟨inside, rfl, rfl⟩
  · cases inside with
    | nil => simpa using fails
    | cons c inside =>
        have one := solid c (by simp)
        rw [blank c (by simp)] at one
        cases one
  · cases inside with
    | nil => simpa using fails
    | cons c inside =>
        exact phrase_fails_at_blank keyword (white c (by simp)) rfl

end Keywords

section Names

/-- The characters of the texts of names. -/
def isNameChar (c : Char) : Bool :=
  isWordChar c || (c == '.' || isQuote c)

theorem isNameChar_of_mem_marks :
    ∀ c ∈ ['\'', '(', ')', ',', ';', '-', '/', ' '], isNameChar c = false := by
  decide

theorem isBlank_of_isNameChar {c : Char} (named : isNameChar c = true) :
    isBlank c = false := by
  simp only [isNameChar, isQuote, Bool.or_eq_true, beq_iff_eq,
    List.contains_iff_mem, List.mem_cons, List.not_mem_nil, or_false] at named
  rcases named with wordly | rfl | rfl | rfl | rfl | rfl
  · exact isBlank_of_isWordChar wordly
  all_goals decide

theorem isNameChar_of_isBlank {c : Char} (white : isBlank c = true) :
    isNameChar c = false := by
  cases named : isNameChar c with
  | false => rfl
  | true =>
      rw [isBlank_of_isNameChar named] at white
      cases white

theorem isWordChar_of_isNameChar_eq_false {c : Char}
    (outside : isNameChar c = false) : isWordChar c = false := by
  rw [isNameChar, Bool.or_eq_false_iff] at outside
  exact outside.1

/-- White space ends a name. -/
theorem Space.edge {space rest : List Char} (spaced : Space space) :
    ∀ c ∈ (space ++ rest).head?, isNameChar c = false := by
  obtain ⟨d, space, rfl⟩ := List.exists_cons_of_ne_nil spaced.1
  intro c member
  obtain rfl : d = c := by simpa using member
  exact isNameChar_of_isBlank (spaced.2 d List.mem_cons_self)

/-- A parenthesis ends a name, with white space before it or without. -/
theorem Gap.edge {gap rest : List Char} (white : Gap gap) :
    ∀ c ∈ (gap ++ '(' :: rest).head?, isNameChar c = false := by
  cases gap with
  | nil =>
      intro c member
      obtain rfl : '(' = c := by simpa using member
      decide
  | cons d gap => exact Space.edge ⟨by simp, white⟩

theorem mem_quotes_iff {start stop : Char} :
    (start, stop) ∈ quotes ↔ start = '"' ∧ stop = '"' ∨
      start = '\x60' ∧ stop = '\x60' ∨ start = '[' ∧ stop = ']' := by
  simp [quotes]

theorem quote_facts {start stop : Char} (pair : (start, stop) ∈ quotes) :
    (isQuote start = true ∧ isWordChar start = false ∧ start ≠ '.') ∧
      isQuote stop = true ∧ isWordChar stop = false ∧ stop ≠ '.' := by
  rw [mem_quotes_iff] at pair
  rcases pair with ⟨rfl, rfl⟩ | ⟨rfl, rfl⟩ | ⟨rfl, rfl⟩ <;> decide

theorem isQuote_of_mem_marks {c : Char} (unmarked : c ∉ marks) :
    isQuote c = false ∧ c ≠ '.' := by
  simp only [marks, List.mem_cons, List.not_mem_nil, or_false, not_or]
    at unmarked
  simp [isQuote, unmarked]

namespace NameText

variable {name : Name} {text : List Char}

theorem filled (spelled : NameText name text) : text ≠ [] := by
  cases spelled with
  | plain cased => exact cased.filled name.filled
  | quoted _ _ => simp

/-- Names are made of word characters and quotes. -/
theorem chars (spelled : NameText name text) :
    ∀ c ∈ text, isWordChar c = true ∨ isQuote c = true := by
  cases spelled with
  | plain cased => exact fun c member => .inl (cased.wordChars name.plain c member)
  | @quoted inner start stop cased pair =>
      intro c member
      have facts := quote_facts pair
      simp only [List.cons_append, List.mem_cons, List.mem_append,
        List.not_mem_nil, or_false] at member
      rcases member with rfl | inside | rfl
      · exact .inr facts.1.1
      · exact .inl (cased.wordChars name.plain c inside)
      · exact .inr facts.2.1

theorem noDot (spelled : NameText name text) : '.' ∉ text := by
  intro member
  have wordly := spelled.chars '.' member
  revert wordly
  decide

theorem trimmed (spelled : NameText name text) :
    lower (trimWhile isQuote text) = name.letters := by
  cases spelled with
  | plain cased =>
      have unquoted : ∀ c ∈ text, isQuote c = false := fun c member =>
        (isQuote_of_mem_marks (cased.unmarked name.plain c member)).1
      have filled := cased.filled name.filled
      have kept : trimWhile isQuote ([] ++ text ++ []) = text :=
        trimWhile_append (by simp) (by simp)
          ⟨text.head filled, by simp [List.head?_eq_some_head filled],
            unquoted _ (List.head_mem filled)⟩
          ⟨text.getLast filled, by simp [List.getLast?_eq_some_getLast filled],
            unquoted _ (List.getLast_mem filled)⟩
      rw [List.nil_append, List.append_nil] at kept
      rw [kept, cased.lower name.plain]
  | @quoted inner start stop cased pair =>
      have facts := quote_facts pair
      have unquoted : ∀ c ∈ inner, isQuote c = false := fun c member =>
        (isQuote_of_mem_marks (cased.unmarked name.plain c member)).1
      have filled := cased.filled name.filled
      have kept : trimWhile isQuote ([start] ++ inner ++ [stop]) = inner :=
        trimWhile_append (by simp [facts.1.1]) (by simp [facts.2.1])
          ⟨inner.head filled, by simp [List.head?_eq_some_head filled],
            unquoted _ (List.head_mem filled)⟩
          ⟨inner.getLast filled,
            by simp [List.getLast?_eq_some_getLast filled],
            unquoted _ (List.getLast_mem filled)⟩
      rw [List.singleton_append] at kept
      rw [kept, cased.lower name.plain]

end NameText

/-- A name is no reserved word. -/
theorem NameText.not_mentions {name : Name} {text : List Char} {word : String}
    (spelled : NameText name text) (keyword : Keyword word)
    (taken : word ∈ reserved) : ¬Mentions word text := by
  have free {letters : List Char} (cased : Cased name.letters letters) :
      ¬Mentions word letters := by
    rw [mentions_iff_spells (cased.wordChars name.plain)]
    intro same
    have equal := cased.eq_of_spells name.plain keyword.2 same
    apply name.free
    rw [← equal, String.ofList_toList]
    exact taken
  cases spelled with
  | plain cased => exact free cased
  | @quoted inner start stop cased pair =>
      have facts := quote_facts pair
      have whole : start :: inner ++ [stop] = [] ++ start :: (inner ++ stop :: []) :=
        rfl
      rw [whole, mentions_append_cons facts.1.2.1,
        mentions_append_cons facts.2.2.1]
      rintro (none | here | none)
      · exact not_mentions_nil keyword none
      · exact free cased here
      · exact not_mentions_nil keyword none

namespace QualifiedText

variable {name : Name} {text : List Char}

theorem filled (spelled : QualifiedText name text) : text ≠ [] := by
  cases spelled with
  | bare named => exact named.filled
  | qualified _ _ => simp

theorem chars (spelled : QualifiedText name text) :
    ∀ c ∈ text, isNameChar c = true := by
  have simple {name : Name} {text : List Char} (named : NameText name text) :
      ∀ c ∈ text, isNameChar c = true := by
    intro c member
    rcases named.chars c member with wordly | quote
    · simp [isNameChar, wordly]
    · simp [isNameChar, quote]
  cases spelled with
  | bare named => exact simple named
  | qualified front named =>
      intro c member
      rcases List.mem_append.mp member with before | after
      · exact simple front c before
      · rcases List.mem_cons.mp after with rfl | inside
        · decide
        · exact simple named c inside

theorem solid (spelled : QualifiedText name text) :
    ∀ c ∈ text, isBlank c = false :=
  fun c member => isBlank_of_isNameChar (spelled.chars c member)

theorem starts (spelled : QualifiedText name text) : Starts text :=
  starts_of_solid spelled.filled spelled.solid

theorem ends (spelled : QualifiedText name text) : Ends text :=
  ends_of_solid spelled.filled spelled.solid

theorem segment (spelled : QualifiedText name text) :
    Segment (fun c => isNameChar c = true) text := by
  refine .ofPlain spelled.chars fun c member mark => ?_
  have named := spelled.chars c member
  rw [isNameChar_of_mem_marks c
    (by simp only [List.mem_cons] at mark ⊢; tauto)] at named
  cases named

theorem not_mentions {word : String} (spelled : QualifiedText name text)
    (keyword : Keyword word) (taken : word ∈ reserved) :
    ¬Mentions word text := by
  cases spelled with
  | bare named => exact named.not_mentions keyword taken
  | qualified front named =>
      rw [mentions_append_cons (by decide)]
      rintro (before | after)
      · exact front.not_mentions keyword taken before
      · exact named.not_mentions keyword taken after

theorem not_spells {word : String} (spelled : QualifiedText name text)
    (keyword : Keyword word) (taken : word ∈ reserved) :
    ¬Spells word.toList text := by
  intro same
  apply spelled.not_mentions keyword taken
  rwa [mentions_iff_spells (isWordChar_of_spells keyword.2 same)]

/-- What is left of a name without white space, qualification and quotes. -/
theorem identifier (spelled : QualifiedText name text) {before after : List Char}
    (front : Gap before) (back : Gap after) :
    identifier (before ++ text ++ after) = name.text := by
  rw [Schema.identifier, trim_append front back spelled.starts spelled.ends]
  cases spelled with
  | bare named =>
      rw [afterLast_eq_self named.noDot, named.trimmed]
      rfl
  | qualified front named =>
      rw [afterLast_append_cons named.noDot, named.trimmed]
      rfl

theorem identifier_self (spelled : QualifiedText name text) :
    Schema.identifier text = name.text := by
  have padded : Schema.identifier ([] ++ text ++ []) = name.text :=
    spelled.identifier (by simp [Gap]) (by simp [Gap])
  simpa using padded

/-- A name that is not reserved refuses keywords. -/
theorem phrase_fails (spelled : QualifiedText name text) {first : String}
    {words : List String} {place : Place} {rest : List Char}
    (keyword : Keyword first) (taken : first ∈ reserved)
    (edge : ∀ c ∈ rest.head?, isWordChar c = false)
    (split : place.rest = text ++ rest) :
    (phrase (first :: words)).ways place = [] :=
  phrase_fails_at_token keyword spelled.solid (spelled.not_spells keyword taken)
    edge split

end QualifiedText

theorem Name.text_ne_empty (name : Name) : name.text ≠ "" := by
  intro empty
  apply name.filled
  simpa [Name.text] using congrArg String.toList empty

/-- The names in a list between commas, with white space around them. -/
theorem identifiers_separated {names : List Name} {text : List Char}
    (separated : Separated ',' (fun name => Padded (QualifiedText name)) names
      text) : identifiers text = names.map Name.text := by
  have noComma {name : Name} {text : List Char}
      (padded : Padded (QualifiedText name) text) :
      ∀ c ∈ text, (c == ',') = false := by
    obtain ⟨front, spelled, back⟩ := padded
    intro c member
    have different : c ≠ ',' := by
      rcases List.mem_append.mp member with member | behind
      · rcases List.mem_append.mp member with before | inside
        · exact ne_of_isBlank (front c before) (by decide)
        · rintro rfl
          have named := spelled.chars ',' inside
          revert named
          decide
      · exact ne_of_isBlank (back c behind) (by decide)
    simpa using different
  have read {name : Name} {text : List Char}
      (padded : Padded (QualifiedText name) text) :
      identifier text = name.text := by
    obtain ⟨front, spelled, back⟩ := padded
    exact spelled.identifier front back
  have mapped : (splitOn ',' text).map identifier = names.map Name.text := by
    induction separated with
    | one padded =>
        rw [splitOn, splitWhen_eq_singleton (noComma padded)]
        simp [read padded]
    | @more name names piece rest padded _ ih =>
        have here : splitWhen (· == ',') piece = [piece] :=
          splitWhen_eq_singleton (noComma padded)
        rw [splitOn] at ih ⊢
        rw [splitWhen_append_cons (by decide), here]
        simp [read padded, ih]
  rw [identifiers, mapped, List.filter_eq_self]
  intro name member
  obtain ⟨source, -, rfl⟩ := List.mem_map.mp member
  simpa using source.text_ne_empty

theorem Separated.imp {α : Type} {separator : Char}
    {spelled weaker : α → List Char → Prop}
    (implies : ∀ item text, spelled item text → weaker item text)
    {items : List α} {text : List Char}
    (separated : Separated separator spelled items text) :
    Separated separator weaker items text := by
  induction separated with
  | one here => exact .one (implies _ _ here)
  | more here _ ih => exact .more (implies _ _ here) ih

theorem Padded.imp {spelled weaker : List Char → Prop}
    (implies : ∀ text, spelled text → weaker text) {text : List Char}
    (padded : Padded spelled text) : Padded weaker text := by
  obtain ⟨front, here, back⟩ := padded
  exact ⟨front, implies _ here, back⟩

theorem identifiers_columns {columns : List Name} {text : List Char}
    (list : ColumnsText columns text) :
    identifiers text = columns.map Name.text :=
  identifiers_separated
    (list.imp fun _ _ padded => padded.imp fun _ => QualifiedText.bare)

theorem readsOne_name : ReadsOne
    (Pattern.oneOf [wordChar, Pattern.is '.', .char isQuote]) isNameChar :=
  (Pattern.readsOne_char _).alt
    ((Pattern.readsOne_char _).alt (Pattern.readsOne_char _))

/-- The characters of a name lead past it. -/
theorem leads_name {text rest : List Char} (filled : text ≠ [])
    (chars : ∀ c ∈ text, isNameChar c = true)
    (edge : ∀ c ∈ rest.head?, isNameChar c = false) {place : Place}
    (split : place.rest = text ++ rest) :
    Leads namePattern place (place.past text rest) :=
  Pattern.leads_some1 readsOne_name filled split chars edge

theorem QualifiedText.leads {name : Name} {text rest : List Char}
    (spelled : QualifiedText name text)
    (edge : ∀ c ∈ rest.head?, isNameChar c = false) {place : Place}
    (split : place.rest = text ++ rest) :
    Leads namePattern place (place.past text rest) :=
  leads_name spelled.filled spelled.chars edge split

theorem NameText.leads {name : Name} {text rest : List Char}
    (spelled : NameText name text)
    (edge : ∀ c ∈ rest.head?, isNameChar c = false) {place : Place}
    (split : place.rest = text ++ rest) :
    Leads plainNamePattern place (place.past text rest) := by
  have one : ReadsOne (Pattern.oneOf [wordChar, .char isQuote])
      fun c => isWordChar c || isQuote c :=
    (Pattern.readsOne_char _).alt (Pattern.readsOne_char _)
  refine Pattern.leads_some1 one spelled.filled split
    (fun c member => by simpa using spelled.chars c member) ?_
  intro c member
  have here := edge c member
  simp only [isNameChar, Bool.or_eq_false_iff] at here
  simp [here]

end Names

end ArchSurvey.Schema
