import ArchSurvey.Manifest.Pom
import ArchSurvey.Proofs.Text.Occurrences

/-!
# Tokens of project object models

A document is text, comments, tags and other markup.  A search for the tags of
sections or for comments finds exactly the tokens that are such, if the tags of
sections are written with their names only and no other markup holds the text
of one.
-/

namespace ArchSurvey.Manifest.Pom

open Text
open Text.Pattern (Free ReadsWords readsWords_literal free_cons free_of_not_mem
  free_of_lacks)

/-- The names of the sections that are left out. -/
def sectionNames : List (List Char) :=
  ["build".toList, "reporting".toList, "profiles".toList]

def sectionOpenings : List (List Char) :=
  sectionNames.map fun name => '<' :: (name ++ ['>'])

def sectionClosings : List (List Char) :=
  sectionNames.map fun name => '<' :: '/' :: (name ++ ['>'])

/-! ## Tokens -/

/-- A character of the name of an element. -/
def IsNameChar (c : Char) : Prop :=
  isBlank c = false ∧ c ∉ ['<', '>', '/', '!']

instance : DecidablePred IsNameChar := fun _ =>
  inferInstanceAs (Decidable (_ ∧ _))

/-- A token of a document. -/
inductive Token where
  | text (characters : List Char)
  | comment (body : List Char)
  /-- Any other markup, such as an instruction, a section of character data or
  the tag of an empty element, without its angle brackets. -/
  | markup (inside : List Char)
  | opening (name attributes : List Char)
  | closing (name gap : List Char)
  deriving DecidableEq, Repr

namespace Token

def spell : Token → List Char
  | text characters => characters
  | comment body => "<!--".toList ++ (body ++ "-->".toList)
  | markup inside => '<' :: (inside ++ ['>'])
  | opening name attributes => '<' :: (name ++ (attributes ++ ['>']))
  | closing name gap => '<' :: '/' :: (name ++ (gap ++ ['>']))

def isComment : Token → Bool
  | comment _ => true
  | _ => false

def opensSection : Token → Bool
  | opening name _ => sectionNames.contains name
  | _ => false

def closesSection : Token → Bool
  | closing name _ => sectionNames.contains name
  | _ => false

/-- The rules for a token: text and attributes hold no angle bracket that opens
markup, a comment ends with its first end mark, names are names, and what
follows a name in a tag starts with a blank. -/
def WellFormed : Token → Prop
  | text characters => '<' ∉ characters
  | comment body => ¬ "-->".toList <:+: body
  | markup _ => True
  | opening name attributes =>
      (name ≠ [] ∧ ∀ c ∈ name, IsNameChar c) ∧ '<' ∉ attributes ∧
        attributes.head?.all isBlank = true
  | closing name gap =>
      (name ≠ [] ∧ ∀ c ∈ name, IsNameChar c) ∧ ∀ c ∈ gap, isBlank c = true

/-- The tags of sections are written with their names only, and no other markup
holds the text of such a tag or of the start of a comment. -/
def Plain : Token → Prop
  | markup inside =>
      ∀ word ∈ "<!--".toList :: (sectionOpenings ++ sectionClosings),
        ¬ word <:+: '<' :: (inside ++ ['>'])
  | opening name attributes => name ∈ sectionNames → attributes = []
  | closing name gap => name ∈ sectionNames → gap = []
  | _ => True

instance : DecidablePred WellFormed
  | text _ => inferInstanceAs (Decidable (¬ _))
  | comment _ => inferInstanceAs (Decidable (¬ _))
  | markup _ => inferInstanceAs (Decidable True)
  | opening _ _ => inferInstanceAs (Decidable (_ ∧ _ ∧ _))
  | closing _ _ => inferInstanceAs (Decidable (_ ∧ _))

instance : DecidablePred Plain
  | text _ => inferInstanceAs (Decidable True)
  | comment _ => inferInstanceAs (Decidable True)
  | markup _ => inferInstanceAs (Decidable (∀ _ ∈ _, ¬ _))
  | opening _ _ => inferInstanceAs (Decidable (_ → _))
  | closing _ _ => inferInstanceAs (Decidable (_ → _))

end Token

/-- A name in a tag is read to its end. -/
theorem name_eq_of_starts {word name after rest : List Char}
    (spelled : ∀ c ∈ word, IsNameChar c) (named : ∀ c ∈ name, IsNameChar c)
    (follows : after.head?.all isBlank = true)
    (starts : word ++ ['>'] <+: name ++ (after ++ '>' :: rest)) :
    name = word ∧ after = [] := by
  induction name generalizing word with
  | nil =>
      cases after with
      | nil =>
          cases word with
          | nil => exact ⟨rfl, rfl⟩
          | cons w word =>
              obtain ⟨rfl, -⟩ := List.cons_prefix_cons.mp starts
              exact absurd (spelled '>' List.mem_cons_self) (by decide)
      | cons c after =>
          have blank : isBlank c = true := follows
          cases word with
          | nil =>
              obtain ⟨rfl, -⟩ := List.cons_prefix_cons.mp starts
              exact absurd blank (by decide)
          | cons w word =>
              obtain ⟨rfl, -⟩ := List.cons_prefix_cons.mp starts
              have plain := (spelled w List.mem_cons_self).1
              rw [blank] at plain
              cases plain
  | cons n name ih =>
      cases word with
      | nil =>
          obtain ⟨rfl, -⟩ := List.cons_prefix_cons.mp starts
          exact absurd (named '>' List.mem_cons_self) (by decide)
      | cons w word =>
          obtain ⟨rfl, later⟩ := List.cons_prefix_cons.mp starts
          obtain ⟨rfl, rfl⟩ := ih
            (fun c member => spelled c (List.mem_cons_of_mem _ member))
            (fun c member => named c (List.mem_cons_of_mem _ member)) later
          exact ⟨rfl, rfl⟩

section Words

theorem isNameChar_of_mem_sectionNames :
    ∀ name ∈ sectionNames, ∀ c ∈ name, IsNameChar c := by
  decide

theorem sectionOpenings_start :
    ∀ word ∈ sectionOpenings, ∃ rest, word = '<' :: rest := by
  simp [sectionOpenings]

theorem sectionClosings_start :
    ∀ word ∈ sectionClosings, ∃ rest, word = '<' :: rest := by
  simp [sectionClosings]

theorem readsWords_openings :
    ReadsWords (Pattern.oneOf (["build", "reporting", "profiles"].map opening))
      sectionOpenings := by
  have later := (readsWords_literal "<reporting>").alt
    (readsWords_literal "<profiles>") (by decide)
  exact (readsWords_literal "<build>").alt later (by decide)

theorem readsWords_closings :
    ReadsWords (Pattern.oneOf (["build", "reporting", "profiles"].map closing))
      sectionClosings := by
  have later := (readsWords_literal "</reporting>").alt
    (readsWords_literal "</profiles>") (by decide)
  exact (readsWords_literal "</build>").alt later (by decide)

end Words

section Tags

variable {name attributes gap rest : List Char}

/-- A tag that no name in the words stands for is free of them. -/
theorem free_opening {words : List (List Char)}
    (starts : ∀ word ∈ words, ∃ rest, word = '<' :: rest)
    (wellFormed : (Token.opening name attributes).WellFormed)
    (refused : ∀ rest, ∀ word ∈ words,
      ¬ word <+: '<' :: (name ++ (attributes ++ '>' :: rest))) :
    Free words (Token.opening name attributes).spell := by
  obtain ⟨⟨-, named⟩, clean, -⟩ := wellFormed
  refine free_cons starts ?_ fun rest word member => ?_
  · have plain : '<' ∉ name := fun member =>
      absurd (named '<' member) (by decide)
    simp [plain, clean]
  · simpa using refused rest word member

theorem free_closing {words : List (List Char)}
    (starts : ∀ word ∈ words, ∃ rest, word = '<' :: rest)
    (wellFormed : (Token.closing name gap).WellFormed)
    (refused : ∀ rest, ∀ word ∈ words,
      ¬ word <+: '<' :: '/' :: (name ++ (gap ++ '>' :: rest))) :
    Free words (Token.closing name gap).spell := by
  obtain ⟨⟨-, named⟩, blank⟩ := wellFormed
  refine free_cons starts ?_ fun rest word member => ?_
  · have plain : '<' ∉ name := fun member =>
      absurd (named '<' member) (by decide)
    have clean : '<' ∉ gap := fun member =>
      absurd (blank '<' member) (by decide)
    simp [plain, clean]
  · simpa using refused rest word member

/-- The name of an element is not read as a mark. -/
theorem not_prefix_name {mark : Char} {tail : List Char}
    (named : name ≠ [] ∧ ∀ c ∈ name, IsNameChar c) (odd : ¬ IsNameChar mark) :
    ¬ mark :: tail <+: name ++ rest := by
  intro starts
  obtain ⟨c, name, rfl⟩ := List.exists_cons_of_ne_nil named.1
  obtain ⟨rfl, -⟩ := List.cons_prefix_cons.mp starts
  exact odd (named.2 mark List.mem_cons_self)

/-- Text and other markup is free of marks and tags. -/
theorem free_spell_of_plain {words : List (List Char)} {token : Token}
    (known : words ⊆ "<!--".toList :: (sectionOpenings ++ sectionClosings))
    (wellFormed : token.WellFormed) (plain : token.Plain)
    (other : (∃ characters, token = .text characters) ∨
      ∃ inside, token = .markup inside) : Free words token.spell := by
  rcases other with ⟨characters, rfl⟩ | ⟨inside, rfl⟩
  · have starts : ∀ word ∈ "<!--".toList :: (sectionOpenings ++
        sectionClosings), ∃ rest, word = '<' :: rest := by
      simp [sectionOpenings, sectionClosings, sectionNames]
    exact free_of_not_mem (fun word member => starts word (known member))
      wellFormed
  · have ends : ∀ word ∈ "<!--".toList :: (sectionOpenings ++
        sectionClosings), '>' ∉ word.dropLast := by
      decide
    exact @free_of_lacks words ('<' :: inside) '>'
      (fun word member => ends word (known member))
      (fun word member => plain word (known member))

end Tags

section Spelling

variable {token : Token}

theorem spell_mem_openings (plain : token.Plain)
    (opens : token.opensSection = true) : token.spell ∈ sectionOpenings := by
  cases token with
  | opening name attributes =>
      have named : name ∈ sectionNames := by
        simpa [Token.opensSection] using opens
      refine List.mem_map.mpr ⟨name, named, ?_⟩
      rw [plain named]
      rfl
  | _ => cases opens

theorem spell_mem_closings (plain : token.Plain)
    (closes : token.closesSection = true) : token.spell ∈ sectionClosings := by
  cases token with
  | closing name gap =>
      have named : name ∈ sectionNames := by
        simpa [Token.closesSection] using closes
      refine List.mem_map.mpr ⟨name, named, ?_⟩
      rw [plain named]
      rfl
  | _ => cases closes

theorem free_openings (wellFormed : token.WellFormed) (plain : token.Plain)
    (kept : token.isComment = false) (opens : token.opensSection = false) :
    Free sectionOpenings token.spell := by
  have known : sectionOpenings ⊆
      "<!--".toList :: (sectionOpenings ++ sectionClosings) :=
    fun word member => List.mem_cons_of_mem _ (List.mem_append_left _ member)
  cases token with
  | text characters =>
      exact free_spell_of_plain known wellFormed plain (.inl ⟨_, rfl⟩)
  | comment body => cases kept
  | markup inside =>
      exact free_spell_of_plain known wellFormed plain (.inr ⟨_, rfl⟩)
  | opening name attributes =>
      refine free_opening sectionOpenings_start wellFormed ?_
      intro rest word member starts
      obtain ⟨section_, named, rfl⟩ := List.mem_map.mp member
      obtain ⟨rfl, -⟩ := name_eq_of_starts
        (isNameChar_of_mem_sectionNames section_ named) wellFormed.1.2
        wellFormed.2.2 (List.cons_prefix_cons.mp starts).2
      simp [Token.opensSection, named] at opens
  | closing name gap =>
      refine free_closing sectionOpenings_start wellFormed ?_
      intro rest word member starts
      simp [sectionOpenings, sectionNames] at member
      rcases member with rfl | rfl | rfl <;> simp at starts

theorem free_closings (wellFormed : token.WellFormed) (plain : token.Plain)
    (kept : token.isComment = false) (closes : token.closesSection = false) :
    Free sectionClosings token.spell := by
  have known : sectionClosings ⊆
      "<!--".toList :: (sectionOpenings ++ sectionClosings) :=
    fun word member => List.mem_cons_of_mem _ (List.mem_append_right _ member)
  cases token with
  | text characters =>
      exact free_spell_of_plain known wellFormed plain (.inl ⟨_, rfl⟩)
  | comment body => cases kept
  | markup inside =>
      exact free_spell_of_plain known wellFormed plain (.inr ⟨_, rfl⟩)
  | opening name attributes =>
      refine free_opening sectionClosings_start wellFormed ?_
      intro rest word member starts
      obtain ⟨section_, -, rfl⟩ := List.mem_map.mp member
      exact not_prefix_name wellFormed.1 (by decide)
        (List.cons_prefix_cons.mp starts).2
  | closing name gap =>
      refine free_closing sectionClosings_start wellFormed ?_
      intro rest word member starts
      obtain ⟨section_, named, rfl⟩ := List.mem_map.mp member
      have after := (List.cons_prefix_cons.mp
        (List.cons_prefix_cons.mp starts).2).2
      obtain ⟨rfl, -⟩ := name_eq_of_starts
        (isNameChar_of_mem_sectionNames section_ named) wellFormed.1.2
        ((Option.all_eq_true _ _).mpr fun c first =>
          wellFormed.2 c (List.mem_of_head? first)) after
      simp [Token.closesSection, named] at closes

theorem free_comment (wellFormed : token.WellFormed) (plain : token.Plain)
    (kept : token.isComment = false) :
    Free ["<!--".toList] token.spell := by
  have known : ["<!--".toList] ⊆
      "<!--".toList :: (sectionOpenings ++ sectionClosings) := by simp
  have starts : ∀ word ∈ ["<!--".toList], ∃ rest, word = '<' :: rest := by
    simp
  cases token with
  | text characters =>
      exact free_spell_of_plain known wellFormed plain (.inl ⟨_, rfl⟩)
  | comment body => cases kept
  | markup inside =>
      exact free_spell_of_plain known wellFormed plain (.inr ⟨_, rfl⟩)
  | opening name attributes =>
      refine free_opening starts wellFormed ?_
      intro rest word member reads
      obtain rfl := List.mem_singleton.mp member
      exact not_prefix_name wellFormed.1 (by decide)
        (List.cons_prefix_cons.mp reads).2
  | closing name gap =>
      refine free_closing starts wellFormed ?_
      intro rest word member reads
      obtain rfl := List.mem_singleton.mp member
      simp at reads

end Spelling

end ArchSurvey.Manifest.Pom
