import ArchSurvey.Proofs.Manifest.Markup

/-!
# Sections of project object models

The build, the reporting and the profiles of a project say nothing of its own
dependencies.  They are taken out from an opening tag of any of the three to
the next closing tag of any of the three, so one of them that stands in
another closes it early.  What is left of a document does not depend on what
its sections hold exactly when no section stands in a section.
-/

namespace ArchSurvey.Manifest.Pom

open Text
open Text.Pattern (Free remaining endsWithin remaining_append endsWithin_append
  leftFrom leftFrom_free leftFrom_passage leftFrom_flatten leftFrom_nil
  removeAll_eq readsWords_literal)

/-! ## What is left of tokens -/

def spellAll (tokens : List Token) : List Char :=
  tokens.flatMap Token.spell

/-- The texts of some tokens without the comments. -/
def pieces (tokens : List Token) : List (List Char) :=
  (tokens.filter fun token => !token.isComment).map Token.spell

/-- What is left of some tokens that start outside of sections. -/
def left (within : Bool) (tokens : List Token) : List Char :=
  (remaining sectionOpenings sectionClosings within (pieces tokens)).flatten

/-- Whether some tokens end in a section. -/
def endsIn (within : Bool) (tokens : List Token) : Bool :=
  endsWithin sectionOpenings sectionClosings within (pieces tokens)

section Walk

variable {tokens others : List Token} {token : Token} {within : Bool}

theorem pieces_append (tokens others : List Token) :
    pieces (tokens ++ others) = pieces tokens ++ pieces others := by
  simp [pieces]

theorem left_append :
    left within (tokens ++ others) =
      left within tokens ++ left (endsIn within tokens) others := by
  rw [left, pieces_append, remaining_append, List.flatten_append]
  rfl

theorem endsIn_append :
    endsIn within (tokens ++ others) =
      endsIn (endsIn within tokens) others := by
  rw [endsIn, pieces_append, endsWithin_append]
  rfl

/-- A token is kept outside of sections unless it opens one or is a comment. -/
theorem left_singleton (wellFormed : token.WellFormed) (plain : token.Plain) :
    left within [token] =
      if within || token.opensSection || token.isComment then []
      else token.spell := by
  cases comment : token.isComment with
  | true => cases within <;> simp [left, pieces, comment, remaining]
  | false =>
      cases within with
      | true => simp [left, pieces, comment, remaining]
      | false =>
          cases opens : token.opensSection with
          | true =>
              have member := spell_mem_openings plain opens
              simp [left, pieces, comment, remaining, member]
          | false =>
              have absent := Pattern.not_mem_of_free (by decide)
                (free_openings wellFormed plain comment opens)
              simp [left, pieces, comment, remaining, absent]

theorem endsIn_singleton (wellFormed : token.WellFormed)
    (plain : token.Plain) :
    endsIn within [token] =
      if within then !token.closesSection else token.opensSection := by
  cases comment : token.isComment with
  | true =>
      cases token <;> simp_all [Token.isComment, endsIn, pieces, endsWithin,
        Token.closesSection, Token.opensSection]
  | false =>
      cases within with
      | true =>
          cases closes : token.closesSection with
          | true =>
              have member := spell_mem_closings plain closes
              simp [endsIn, pieces, comment, endsWithin, member]
          | false =>
              have absent := Pattern.not_mem_of_free (by decide)
                (free_closings wellFormed plain comment closes)
              simp [endsIn, pieces, comment, endsWithin, absent]
      | false =>
          cases opens : token.opensSection with
          | true =>
              have member := spell_mem_openings plain opens
              simp [endsIn, pieces, comment, endsWithin, member]
          | false =>
              have absent := Pattern.not_mem_of_free (by decide)
                (free_openings wellFormed plain comment opens)
              simp [endsIn, pieces, comment, endsWithin, absent]

theorem left_cons (formed : token.WellFormed ∧ token.Plain) :
    left within (token :: tokens) =
      (if within || token.opensSection || token.isComment then []
        else token.spell) ++
      left (if within then !token.closesSection else token.opensSection)
        tokens := by
  rw [← List.singleton_append, left_append,
    left_singleton formed.1 formed.2, endsIn_singleton formed.1 formed.2]

theorem endsIn_cons (formed : token.WellFormed ∧ token.Plain) :
    endsIn within (token :: tokens) =
      endsIn (if within then !token.closesSection else token.opensSection)
        tokens := by
  rw [← List.singleton_append, endsIn_append,
    endsIn_singleton formed.1 formed.2]

/-- Comments are taken out as they are written. -/
theorem leftFrom_comment
    (formed : ∀ token ∈ tokens, token.WellFormed ∧ token.Plain)
    (previous : Option Char) :
    leftFrom comment previous (spellAll tokens) = (pieces tokens).flatten := by
  induction tokens generalizing previous with
  | nil => exact leftFrom_nil comment previous
  | cons token tokens ih =>
      obtain ⟨⟨wellFormed, plain⟩, later⟩ := List.forall_mem_cons.mp formed
      cases isComment : token.isComment with
      | false =>
          have free := free_comment wellFormed plain isComment
          have passes := @leftFrom_free _ _ (Pattern.literal "-->") _
            (spellAll tokens) previous (readsWords_literal "<!--") free
          have rest := ih later (token.spell.getLast?.or previous)
          calc
            leftFrom comment previous (token.spell ++ spellAll tokens) =
                token.spell ++ leftFrom comment
                  (token.spell.getLast?.or previous) (spellAll tokens) :=
              passes
            _ = (pieces (token :: tokens)).flatten := by
              rw [rest]
              simp [pieces, isComment]
      | true =>
          cases token with
          | comment body =>
              have early : ∀ front back, body = front ++ back → back ≠ [] →
                  ∀ word ∈ ["-->".toList],
                    ¬ word <+: back ++ ("-->".toList ++ spellAll tokens) := by
                intro front back split filled word member starts
                obtain rfl := List.mem_singleton.mp member
                match back, filled, split, starts with
                | [c], _, _, starts => simp at starts
                | [c, d], _, _, starts => simp at starts
                | c :: d :: e :: back, _, split, starts =>
                    refine wellFormed ?_
                    have whole : "-->".toList <+: c :: d :: e :: back := by
                      simpa using starts
                    rw [split]
                    exact whole.isInfix.trans
                      (List.suffix_append front _).isInfix
              have out := @leftFrom_passage _ _ _ _ (spellAll tokens) previous
                (readsWords_literal "<!--") (readsWords_literal "-->")
                "<!--".toList body "-->".toList (by simp) (by simp) (by simp)
                early
              have whole : spellAll (Token.comment body :: tokens) =
                  "<!--".toList ++ (body ++ ("-->".toList ++
                    spellAll tokens)) := by
                simp [spellAll, Token.spell]
              rw [whole]
              exact out.trans (ih later _)
          | _ => cases isComment

theorem relevant_spellAll
    (formed : ∀ token ∈ tokens, token.WellFormed ∧ token.Plain)
    (finished : endsIn false tokens = false) :
    relevant (spellAll tokens) = left false tokens := by
  have whole : ∀ piece ∈ pieces tokens,
      (piece ∈ sectionOpenings ∨ Free sectionOpenings piece) ∧
      (piece ∈ sectionClosings ∨ Free sectionClosings piece) := by
    intro piece member
    obtain ⟨token, kept, rfl⟩ := List.mem_map.mp member
    obtain ⟨member, comment⟩ := List.mem_filter.mp kept
    obtain ⟨wellFormed, plain⟩ := formed token member
    have code : token.isComment = false := by simpa using comment
    constructor
    · cases opens : token.opensSection with
      | true => exact .inl (spell_mem_openings plain opens)
      | false => exact .inr (free_openings wellFormed plain code opens)
    · cases closes : token.closesSection with
      | true => exact .inl (spell_mem_closings plain closes)
      | false => exact .inr (free_closings wellFormed plain code closes)
  rw [relevant, removeAll_eq, removeAll_eq, leftFrom_comment formed]
  exact (leftFrom_flatten readsWords_openings readsWords_closings (by decide)
    whole).1 finished none

end Walk

/-! ## Documents -/

/-- What stands between the tags of an element, each item in front of the
rest. -/
inductive Content where
  | nil
  | text (characters : List Char) (rest : Content)
  | comment (body : List Char) (rest : Content)
  | markup (inside : List Char) (rest : Content)
  | element (name attributes : List Char) (inside : Content)
      (gap : List Char) (rest : Content)
  deriving DecidableEq, Repr

namespace Content

def tokens : Content → List Token
  | nil => []
  | text characters rest => .text characters :: rest.tokens
  | comment body rest => .comment body :: rest.tokens
  | markup inside rest => .markup inside :: rest.tokens
  | element name attributes inside gap rest =>
      .opening name attributes ::
        (inside.tokens ++ .closing name gap :: rest.tokens)

/-- Whether a section stands anywhere in the content. -/
def holdsSection (content : Content) : Bool :=
  content.tokens.any Token.opensSection

/-- The content with its sections emptied, not those of its elements. -/
def emptied : Content → Content
  | nil => nil
  | text characters rest => text characters rest.emptied
  | comment body rest => comment body rest.emptied
  | markup inside rest => markup inside rest.emptied
  | element name attributes inside gap rest =>
      element name attributes
        (if sectionNames.contains name then nil else inside) gap rest.emptied

/-- No section of the content holds a section. -/
def Flat : Content → Prop
  | nil => True
  | text _ rest => rest.Flat
  | comment _ rest => rest.Flat
  | markup _ rest => rest.Flat
  | element name _ inside _ rest =>
      (name ∈ sectionNames → inside.holdsSection = false) ∧ rest.Flat

instance decidableFlat : DecidablePred Flat
  | nil => inferInstanceAs (Decidable True)
  | text _ rest => decidableFlat rest
  | comment _ rest => decidableFlat rest
  | markup _ rest => decidableFlat rest
  | element _ _ _ _ rest =>
      have := decidableFlat rest
      inferInstanceAs (Decidable (_ ∧ _))

section Sections

variable {content : Content} {token : Token}

theorem mem_tokens_of_mem_emptied (member : token ∈ content.emptied.tokens) :
    token ∈ content.tokens := by
  induction content with
  | nil => exact member
  | text characters rest ih
  | comment body rest ih
  | markup inside rest ih =>
      simp only [emptied, tokens, List.mem_cons] at member ⊢
      exact member.imp_right ih
  | element name attributes inside gap rest inner ih =>
      simp only [emptied, tokens, List.mem_cons, List.mem_append] at member ⊢
      rcases member with here | within | last | behind
      · exact .inl here
      · split at within
        · simp [tokens] at within
        · exact .inr (.inl within)
      · exact .inr (.inr (.inl last))
      · exact .inr (.inr (.inr (ih behind)))

/-- A walk over content that starts outside of sections ends there.  One that
starts in a section leaves it at the first section of the content, and passes
over content without sections. -/
theorem walk (formed : ∀ token ∈ content.tokens,
    token.WellFormed ∧ token.Plain) :
    endsIn false content.tokens = false ∧
    endsIn true content.tokens = !content.holdsSection ∧
    (content.holdsSection = false → left true content.tokens = []) := by
  induction content with
  | nil => exact ⟨rfl, rfl, fun _ => rfl⟩
  | text characters rest ih
  | comment body rest ih
  | markup inside rest ih =>
      obtain ⟨here, later⟩ := List.forall_mem_cons.mp formed
      obtain ⟨outside, within, passes⟩ := ih later
      simp only [holdsSection] at within passes
      simpa [tokens, endsIn_cons here, left_cons here, holdsSection, outside,
        within, Token.opensSection, Token.closesSection] using passes
  | element name attributes inside gap rest inner ih =>
      obtain ⟨first, later⟩ := List.forall_mem_cons.mp formed
      obtain ⟨middle, behind⟩ := List.forall_mem_append.mp later
      obtain ⟨last, behind⟩ := List.forall_mem_cons.mp behind
      obtain ⟨outside, within, passes⟩ := inner middle
      obtain ⟨outsideRest, withinRest, passesRest⟩ := ih behind
      have holds : (element name attributes inside gap rest).holdsSection =
          (sectionNames.contains name ||
            (inside.holdsSection || rest.holdsSection)) := by
        simp [holdsSection, tokens, Token.opensSection]
      rw [holds, tokens]
      refine ⟨?_, ?_, fun none => ?_⟩
      · by_cases named : name ∈ sectionNames <;>
          simp [endsIn_cons first, endsIn_append, endsIn_cons last,
            Token.opensSection, Token.closesSection, named, outside, within,
            outsideRest]
      · by_cases named : name ∈ sectionNames <;>
          cases held : inside.holdsSection <;>
          simp [endsIn_cons first, endsIn_append, endsIn_cons last,
            Token.opensSection, Token.closesSection, named, held, within,
            outsideRest, withinRest]
      · obtain ⟨named, unheld, unheldRest⟩ :
            sectionNames.contains name = false ∧
              inside.holdsSection = false ∧ rest.holdsSection = false := by
          simpa [Bool.or_eq_false_iff] using none
        simp only [named, unheld, unheldRest, left_cons first, left_append,
          left_cons last, within, passes, passesRest, Token.opensSection,
          Token.closesSection, Bool.true_or, if_true, Bool.not_false,
          List.nil_append]

section Elements

variable {name attributes gap : List Char} {inside rest : Content}

/-- Of a section nothing is left unless it holds a section. -/
theorem left_section (named : name ∈ sectionNames)
    (formed : ∀ token ∈ (element name attributes inside gap rest).tokens,
      token.WellFormed ∧ token.Plain) :
    left false (element name attributes inside gap rest).tokens =
      (if inside.holdsSection then
        left true inside.tokens ++ (Token.closing name gap).spell else []) ++
      left false rest.tokens := by
  obtain ⟨first, later⟩ := List.forall_mem_cons.mp formed
  obtain ⟨middle, behind⟩ := List.forall_mem_append.mp later
  obtain ⟨last, -⟩ := List.forall_mem_cons.mp behind
  obtain ⟨-, within, passes⟩ := walk middle
  cases held : inside.holdsSection with
  | true =>
      simp [tokens, left_cons first, left_append, left_cons last, within, held,
        named, Token.opensSection, Token.isComment]
  | false =>
      simp [tokens, left_cons first, left_append, left_cons last, within, held,
        passes held, named, Token.opensSection, Token.closesSection]

/-- Any other element is left with what is left between its tags. -/
theorem left_element (other : name ∉ sectionNames)
    (formed : ∀ token ∈ (element name attributes inside gap rest).tokens,
      token.WellFormed ∧ token.Plain) :
    left false (element name attributes inside gap rest).tokens =
      (Token.opening name attributes).spell ++ left false inside.tokens ++
        (Token.closing name gap).spell ++ left false rest.tokens := by
  obtain ⟨first, later⟩ := List.forall_mem_cons.mp formed
  obtain ⟨middle, behind⟩ := List.forall_mem_append.mp later
  obtain ⟨last, -⟩ := List.forall_mem_cons.mp behind
  obtain ⟨outside, -, -⟩ := walk middle
  simp [tokens, left_cons first, left_append, left_cons last, outside, other,
    Token.opensSection, Token.isComment]

end Elements

/-- What is left does not depend on what the sections hold if they hold no
sections, and else more is left with it. -/
theorem left_emptied
    (formed : ∀ token ∈ content.tokens, token.WellFormed ∧ token.Plain) :
    (content.Flat →
      left false content.emptied.tokens = left false content.tokens) ∧
    (¬ content.Flat → (left false content.emptied.tokens).length <
      (left false content.tokens).length) := by
  induction content with
  | nil => exact ⟨fun _ => rfl, fun unflat => absurd trivial unflat⟩
  | text characters rest ih
  | comment body rest ih
  | markup inside rest ih =>
      obtain ⟨here, later⟩ := List.forall_mem_cons.mp formed
      obtain ⟨same, more⟩ := ih later
      simp only [emptied, tokens, Flat, left_cons here, List.length_append,
        Nat.add_lt_add_iff_left]
      exact ⟨fun flat => congrArg _ (same flat), more⟩
  | element name attributes inside gap rest inner ih =>
      have later : ∀ token ∈ rest.tokens, token.WellFormed ∧ token.Plain :=
        fun token member => formed token (by simp [tokens, member])
      have less : ∀ token ∈
          (element name attributes inside gap rest).emptied.tokens,
            token.WellFormed ∧ token.Plain :=
        fun token member => formed token (mem_tokens_of_mem_emptied member)
      obtain ⟨same, more⟩ := ih later
      by_cases named : name ∈ sectionNames
      · have shape : (element name attributes inside gap rest).emptied =
            element name attributes nil gap rest.emptied := by
          simp [emptied, named]
        rw [shape] at less ⊢
        have bare : left false
            (element name attributes nil gap rest.emptied).tokens =
              left false rest.emptied.tokens := by
          rw [left_section named less]
          rfl
        rw [bare, left_section named formed]
        cases held : inside.holdsSection with
        | false => simpa [Flat, held] using ⟨same, more⟩
        | true =>
            have notMore : (left false rest.emptied.tokens).length ≤
                (left false rest.tokens).length := by
              by_cases flat : rest.Flat
              · exact Nat.le_of_eq (congrArg List.length (same flat))
              · exact Nat.le_of_lt (more flat)
            refine ⟨fun flat => ?_, fun _ => ?_⟩
            · rw [flat.1 named] at held
              cases held
            · simp [Token.spell]
              omega
      · have shape : (element name attributes inside gap rest).emptied =
            element name attributes inside gap rest.emptied := by
          simp [emptied, named]
        rw [shape] at less ⊢
        rw [left_element named less, left_element named formed]
        simp only [Flat, named, List.length_append, Nat.add_lt_add_iff_left,
          List.append_right_inj, false_implies, true_and]
        exact ⟨same, more⟩

end Sections

end Content

/-- The name of the outermost element. -/
def projectName : List Char := "project".toList

/-- The text of a project object model: what stands before the project, what
stands in it, and what stands behind it. -/
structure Document where
  prolog : Content
  attributes : List Char
  inside : Content
  gap : List Char
  epilog : Content
  deriving DecidableEq, Repr

namespace Document

def tokens (pom : Document) : List Token :=
  pom.prolog.tokens ++ .opening projectName pom.attributes ::
    (pom.inside.tokens ++ .closing projectName pom.gap ::
      pom.epilog.tokens)

def print (pom : Document) : List Char :=
  spellAll pom.tokens

def WellFormed (pom : Document) : Prop :=
  ∀ token ∈ pom.tokens, token.WellFormed

def Plain (pom : Document) : Prop :=
  ∀ token ∈ pom.tokens, token.Plain

instance : DecidablePred WellFormed := fun _ =>
  inferInstanceAs (Decidable (∀ _ ∈ _, _))

instance : DecidablePred Plain := fun _ =>
  inferInstanceAs (Decidable (∀ _ ∈ _, _))

/-- The document with the sections of the project emptied. -/
def emptied (pom : Document) : Document :=
  { pom with inside := pom.inside.emptied }

section Reading

variable {pom : Document}

theorem mem_tokens_of_mem_emptied {token : Token}
    (member : token ∈ pom.emptied.tokens) : token ∈ pom.tokens := by
  simp only [emptied, tokens, List.mem_append, List.mem_cons] at member ⊢
  exact member.imp_right fun inner => inner.imp_right fun inner =>
    inner.imp_left Content.mem_tokens_of_mem_emptied

/-- What counts of a document is what is left of each of its parts. -/
theorem relevant_print (wellFormed : pom.WellFormed) (plain : pom.Plain) :
    relevant pom.print =
      left false pom.prolog.tokens ++
        ((Token.opening projectName pom.attributes).spell ++
          (left false pom.inside.tokens ++
            ((Token.closing projectName pom.gap).spell ++
              left false pom.epilog.tokens))) := by
  have formed : ∀ token ∈ pom.tokens, token.WellFormed ∧ token.Plain :=
    fun token member => ⟨wellFormed token member, plain token member⟩
  obtain ⟨before, later⟩ := List.forall_mem_append.mp formed
  obtain ⟨first, later⟩ := List.forall_mem_cons.mp later
  obtain ⟨middle, behind⟩ := List.forall_mem_append.mp later
  obtain ⟨last, after⟩ := List.forall_mem_cons.mp behind
  obtain ⟨outsideProlog, -, -⟩ := Content.walk before
  obtain ⟨outside, -, -⟩ := Content.walk middle
  obtain ⟨outsideEpilog, -, -⟩ := Content.walk after
  have project : projectName ∉ sectionNames := by decide
  have finished : endsIn false pom.tokens = false := by
    simp [tokens, endsIn_append, endsIn_cons first, endsIn_cons last,
      outsideProlog, outside, outsideEpilog, Token.opensSection, project]
  rw [print, relevant_spellAll formed finished]
  simp [tokens, left_append, left_cons first, left_cons last, outsideProlog,
    outside, Token.opensSection, Token.isComment, project]

/-- What is read is left alone when the sections of the project are emptied,
exactly if no section stands in one of them. -/
theorem relevant_emptied_iff (wellFormed : pom.WellFormed)
    (plain : pom.Plain) :
    relevant pom.emptied.print = relevant pom.print ↔ pom.inside.Flat := by
  have less : pom.emptied.WellFormed := fun token member =>
    wellFormed token (mem_tokens_of_mem_emptied member)
  have lessPlain : pom.emptied.Plain := fun token member =>
    plain token (mem_tokens_of_mem_emptied member)
  have middle : ∀ token ∈ pom.inside.tokens,
      token.WellFormed ∧ token.Plain := fun token member =>
    have within : token ∈ pom.tokens := by simp [tokens, member]
    ⟨wellFormed token within, plain token within⟩
  obtain ⟨same, more⟩ := Content.left_emptied middle
  rw [relevant_print less lessPlain, relevant_print wellFormed plain]
  constructor
  · intro equal
    by_contra unflat
    have lengths := congrArg List.length equal
    have longer := more unflat
    simp only [emptied, List.length_append] at lengths
    omega
  · intro flat
    rw [emptied, same flat]

/-- What is read from is left alone when the sections of the project are
emptied exactly if no section stands in one of them, and then the same build
file is read. -/
theorem read_emptied_iff_flat (wellFormed : pom.WellFormed)
    (plain : pom.Plain) :
    (relevant pom.emptied.print = relevant pom.print ↔ pom.inside.Flat) ∧
    (pom.inside.Flat → read pom.emptied.print = read pom.print) := by
  refine ⟨relevant_emptied_iff wellFormed plain, fun flat => ?_⟩
  rw [read, read, (relevant_emptied_iff wellFormed plain).mpr flat]

end Reading

/-- An element without attributes. -/
def tag (name : String) (inside rest : Content) : Content :=
  .element name.toList [] inside [] rest

/-- An element that holds text only. -/
def value (name text : String) (rest : Content) : Content :=
  tag name (.text text.toList .nil) rest

/-- A dependency without a version. -/
def dependency (group artifact : String) (rest : Content) : Content :=
  tag "dependency" (value "groupId" group (value "artifactId" artifact .nil))
    rest

/-- A project with a build and with a profile that has a dependency. -/
def flatSections : Document :=
  { prolog := .markup "?xml version=\"1.0\"?".toList .nil
    attributes := []
    inside :=
      value "artifactId" "shop"
        (tag "build" (.comment " none of <build> ".toList
          (value "finalName" "shop" .nil))
        (tag "profiles" (tag "profile" (tag "dependencies"
          (dependency "org.testcontainers" "kafka" .nil) .nil) .nil) .nil))
    gap := []
    epilog := .nil }

theorem read_emptied_iff_flat_flatSections :
    flatSections.WellFormed ∧ flatSections.Plain ∧ flatSections.inside.Flat ∧
      flatSections.emptied ≠ flatSections ∧
      read flatSections.emptied.print = read flatSections.print := by
  have wellFormed : flatSections.WellFormed := by decide +kernel
  have plain : flatSections.Plain := by decide +kernel
  have flat : flatSections.inside.Flat := by decide +kernel
  exact ⟨wellFormed, plain, flat, by decide +kernel,
    (read_emptied_iff_flat wellFormed plain).2 flat⟩

/-- A project with a profile that has a build and a dependency. -/
def nestedBuild : Document :=
  { prolog := .nil
    attributes := []
    inside :=
      value "groupId" "com.acme" (value "artifactId" "shop"
        (value "version" "1"
          (tag "profiles" (tag "profile" (value "id" "it"
            (tag "build" (value "finalName" "it" .nil)
              (tag "dependencies"
                (dependency "org.testcontainers" "kafka" .nil) .nil))) .nil)
            .nil)))
    gap := []
    epilog := .nil }

/-- A dependency of a profile that has a build counts as one of the
project. -/
theorem not_read_emptied :
    ¬ ∀ pom : Document, pom.WellFormed →
      read pom.emptied.print = read pom.print := by
  intro always
  have same := always nestedBuild (by decide +kernel)
  have counts := congrArg (fun outcome => outcome.toOption.map fun pom =>
    pom.dependencies.length) same
  exact absurd counts (by decide +kernel)

end Document

end ArchSurvey.Manifest.Pom
