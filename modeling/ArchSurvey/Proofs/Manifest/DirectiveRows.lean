import ArchSurvey.Manifest.GoModule
import ArchSurvey.Proofs.Text.Lines
import Mathlib.Data.List.Infix

/-!
# Rows of module files

A line of a module file has a directive, the start, an entry or the end of a
block, or nothing, with white space around it and a comment behind it.  The
reader tells the lines apart by how they begin and end, so some of them are not
taken for what they are.
-/

namespace ArchSurvey.Manifest.GoModule

open Text

/-! ## Lines -/

/-- The texts that are taken for a line of each form. -/
def Line.Fits : Line → List Char → Prop
  | blank, text => text = [] ∨ ['/', '/'] <+: text
  | module path, text =>
      ∃ rest, text = "module ".toList ++ rest ∧
        path = trimWhile (· == '"') (trim rest)
  | go version, text =>
      ∃ rest, text = "go ".toList ++ rest ∧ version = trim rest
  | openRequire, text => text = "require (".toList
  | openOther, text =>
      text.getLast? = some '(' ∧ ¬ ['/', '/'] <+: text ∧
        ¬ "module ".toList <+: text ∧ ¬ "go ".toList <+: text ∧
        text ≠ "require (".toList
  | close, text => text = [')']
  | require rest, text =>
      text = "require ".toList ++ rest ∧ text.getLast? ≠ some '('
  | entry whole, text =>
      whole = text ∧ text ≠ [] ∧ ¬ ['/', '/'] <+: text ∧
        ¬ "module ".toList <+: text ∧ ¬ "go ".toList <+: text ∧
        ¬ "require ".toList <+: text ∧ text.getLast? ≠ some '(' ∧
        text ≠ [')']

theorem Line.fits_ofText (text : List Char) :
    (Line.ofText text).Fits text := by
  rw [Line.ofText]
  split
  · rename_i nothing
    simpa [Fits, startsWith_iff] using nothing
  · rename_i something
    obtain ⟨filled, noComment⟩ : text ≠ [] ∧ ¬ ['/', '/'] <+: text := by
      simpa [startsWith_iff] using something
    split
    · rename_i rest starts
      exact ⟨rest, dropPrefix?_eq_some_iff.mp starts, rfl⟩
    · rename_i notModule
      rw [dropPrefix?_eq_none_iff] at notModule
      split
      · rename_i rest starts
        exact ⟨rest, dropPrefix?_eq_some_iff.mp starts, rfl⟩
      · rename_i notGo
        rw [dropPrefix?_eq_none_iff] at notGo
        split
        · rename_i same
          exact beq_iff_eq.mp same
        · rename_i different
          split
          · rename_i opens
            exact ⟨beq_iff_eq.mp opens, noComment, notModule, notGo,
              by simpa using different⟩
          · rename_i notOpens
            split
            · rename_i closes
              exact beq_iff_eq.mp closes
            · rename_i notCloses
              split
              · rename_i rest required
                exact ⟨dropPrefix?_eq_some_iff.mp required,
                  by simpa using notOpens⟩
              · rename_i notRequire
                rw [dropPrefix?_eq_none_iff] at notRequire
                exact ⟨rfl, filled, noComment, notModule, notGo, notRequire,
                  by simpa using notOpens, by simpa using notCloses⟩

/-- A line that is no comment and names neither the module nor a version. -/
theorem Line.ofText_of_lacks {text : List Char} (filled : text ≠ [])
    (noComment : ¬ ['/', '/'] <+: text)
    (notModule : ¬ "module ".toList <+: text)
    (notGo : ¬ "go ".toList <+: text) :
    Line.ofText text =
      if text == "require (".toList then openRequire
      else if text.getLast? == some '(' then openOther
      else if text == [')'] then close
      else
        match dropPrefix? "require ".toList text with
        | some rest => require rest
        | none => entry text := by
  have visible : (text.isEmpty || startsWith "//".toList text) = false := by
    simpa [← Bool.not_eq_true, startsWith_iff] using And.intro filled noComment
  rw [Line.ofText, visible, dropPrefix?_eq_none_iff.mpr notModule,
    dropPrefix?_eq_none_iff.mpr notGo]
  rfl

theorem Line.ofText_eq_iff {line : Line} {text : List Char} :
    Line.ofText text = line ↔ line.Fits text := by
  constructor
  · rintro rfl
    exact Line.fits_ofText text
  · intro fits
    cases line with
    | blank =>
        rcases fits with rfl | ⟨rest, rfl⟩
        · rfl
        · rfl
    | module path =>
        obtain ⟨rest, rfl, rfl⟩ := fits
        rfl
    | go version =>
        obtain ⟨rest, rfl, rfl⟩ := fits
        rfl
    | openRequire =>
        obtain rfl := fits
        rfl
    | openOther =>
        obtain ⟨opens, noComment, notModule, notGo, other⟩ := fits
        have filled : text ≠ [] := by
          rintro rfl
          cases opens
        rw [ofText_of_lacks filled noComment notModule notGo,
          beq_eq_false_iff_ne.mpr other, beq_iff_eq.mpr opens]
        rfl
    | close =>
        obtain rfl := fits
        rfl
    | require rest =>
        obtain ⟨rfl, notOpens⟩ := fits
        have other : "require ".toList ++ rest ≠ "require (".toList := by
          intro same
          rw [same] at notOpens
          exact notOpens rfl
        rw [ofText_of_lacks (by simp) (by simp) (by simp) (by simp),
          beq_eq_false_iff_ne.mpr other, beq_eq_false_iff_ne.mpr notOpens,
          dropPrefix?_eq_some_iff.mpr rfl]
        rfl
    | entry whole =>
        obtain ⟨rfl, filled, noComment, notModule, notGo, notRequire,
          notOpens, notCloses⟩ := fits
        have other : whole ≠ "require (".toList := by
          rintro rfl
          exact notOpens rfl
        rw [ofText_of_lacks filled noComment notModule notGo,
          beq_eq_false_iff_ne.mpr other, beq_eq_false_iff_ne.mpr notOpens,
          beq_eq_false_iff_ne.mpr notCloses,
          dropPrefix?_eq_none_iff.mpr notRequire]
        rfl

/-! ## Words -/

/-- No comment starts in the text or at its end. -/
def Clear (text : List Char) : Prop :=
  ¬ ['/', '/'] <:+: text ∧ text.getLast? ≠ some '/'

instance : DecidablePred Clear := fun _ => inferInstanceAs (Decidable (_ ∧ _))

/-- A text without white space, quotation marks, parentheses and comments. -/
def IsWord (text : List Char) : Prop :=
  text ≠ [] ∧ (∀ c ∈ text, isBlank c = false ∧ c ∉ ['"', '(', ')']) ∧
    Clear text

instance : DecidablePred IsWord := fun _ =>
  inferInstanceAs (Decidable (_ ∧ _ ∧ _))

section Words

variable {text more gap word : List Char}

theorem Clear.append (one : Clear text) (other : Clear more) :
    Clear (text ++ more) := by
  refine ⟨fun holds => ?_, fun ends => ?_⟩
  · rcases pair_infix_append_iff.mp holds with inside | inside | ⟨ends, -⟩
    · exact one.1 inside
    · exact other.1 inside
    · exact one.2 ends
  · rw [List.getLast?_append, Option.or_eq_some_iff] at ends
    rcases ends with ends | ⟨-, ends⟩
    · exact other.2 ends
    · exact one.2 ends

theorem clear_of_not_mem (absent : '/' ∉ text) : Clear text :=
  ⟨fun holds => absent (holds.subset List.mem_cons_self),
    fun ends => absent (List.mem_of_mem_getLast? ends)⟩

theorem clear_of_isGap (isGap : IsGap gap) : Clear gap :=
  clear_of_not_mem (isGap.not_mem (by decide))

/-- Behind a clear text a comment does not start earlier. -/
theorem Clear.not_isPrefix (clear : Clear text) (filled : text ≠ []) :
    ¬ ['/', '/'] <+: text ++ more := by
  intro starts
  obtain ⟨lacks, ends⟩ := clear
  match text with
  | [] => exact filled rfl
  | [c] =>
      obtain ⟨rfl, -⟩ := List.cons_prefix_cons.mp starts
      exact ends rfl
  | c :: d :: text =>
      refine lacks (List.prefix_of_prefix_length_le starts
        (List.prefix_append _ _) ?_).isInfix
      simp

theorem IsWord.starts (isWord : IsWord word) : Starts word :=
  starts_of_solid isWord.1 fun c member => (isWord.2.1 c member).1

theorem IsWord.ends (isWord : IsWord word) : Ends word :=
  ends_of_solid isWord.1 fun c member => (isWord.2.1 c member).1

end Words

/-! ## Rows -/

/-- The path of a module, which may be in quotation marks. -/
structure Name where
  word : List Char
  quoted : Bool
  deriving DecidableEq

/-- A required module with its version. -/
structure Item where
  path : Name
  gap : List Char
  version : List Char
  deriving DecidableEq

/-- What a directive does that requires nothing. -/
inductive Verb where
  | replace
  | exclude
  | retract
  deriving DecidableEq

/-- A directive on a line of its own, or nothing. -/
inductive Directive where
  | blank
  | module (gap : List Char) (path : Name)
  | go (gap version : List Char)
  | require (gap : List Char) (item : Item)
  | other (verb : Verb) (gap text : List Char)
  deriving DecidableEq

/-- What stands on a line apart from its margins. -/
inductive Code where
  | single (directive : Directive)
  | openRequire (gap : List Char)
  | item (item : Item)
  | openOther (verb : Verb) (gap : List Char)
  | entry (text : List Char)
  | close
  deriving DecidableEq

/-- White space around what stands on a line, and the comment behind it. -/
structure Margin where
  indent : List Char
  gap : List Char
  comment : Option (List Char)
  deriving DecidableEq

/-- A line of a module file. -/
structure Row where
  margin : Margin
  code : Code
  deriving DecidableEq

def Name.spell (path : Name) : List Char :=
  if path.quoted then '"' :: (path.word ++ ['"']) else path.word

def Item.spell (item : Item) : List Char :=
  item.path.spell ++ item.gap ++ item.version

def Verb.name : Verb → String
  | replace => "replace"
  | exclude => "exclude"
  | retract => "retract"

def Verb.spell (verb : Verb) : List Char :=
  verb.name.toList

def Directive.spell : Directive → List Char
  | blank => []
  | module gap path => "module".toList ++ gap ++ path.spell
  | go gap version => "go".toList ++ gap ++ version
  | require gap item => "require".toList ++ gap ++ item.spell
  | other verb gap text => verb.spell ++ gap ++ text

def Code.spell : Code → List Char
  | single directive => directive.spell
  | openRequire gap => "require".toList ++ gap ++ ['(']
  | item required => required.spell
  | openOther verb gap => verb.spell ++ gap ++ ['(']
  | entry text => text
  | close => [')']

/-- What stands behind the code of a line. -/
def Margin.ending (margin : Margin) : List Char :=
  margin.gap ++ match margin.comment with
    | none => []
    | some text => '/' :: '/' :: text

/-- What trimming leaves of it. -/
def Margin.rest (margin : Margin) : List Char :=
  match margin.comment with
  | none => []
  | some text => margin.gap ++ '/' :: '/' :: trimEnd text

def Row.spell (row : Row) : List Char :=
  row.margin.indent ++ row.code.spell ++ row.margin.ending

/-- What the reader takes a row for. -/
def Row.line (row : Row) : Line :=
  .ofText (trim row.spell)

def Item.WellFormed (item : Item) : Prop :=
  IsWord item.path.word ∧ IsGap item.gap ∧ item.gap ≠ [] ∧ IsWord item.version

/-- A text that is no comment and neither starts nor ends a block. -/
def IsEntry (text : List Char) : Prop :=
  Starts text ∧ Ends text ∧ '\n' ∉ text ∧ text.head? ≠ some '/' ∧
    text.head? ≠ some ')' ∧ text.getLast? ≠ some '('

def Directive.WellFormed : Directive → Prop
  | blank => True
  | module gap path => IsGap gap ∧ gap ≠ [] ∧ IsWord path.word
  | go gap version => IsGap gap ∧ gap ≠ [] ∧ IsWord version
  | require gap item => IsGap gap ∧ gap ≠ [] ∧ item.WellFormed
  | other _ gap text => IsGap gap ∧ gap ≠ [] ∧ IsEntry text

def Code.WellFormed : Code → Prop
  | single directive => directive.WellFormed
  | openRequire gap => IsGap gap
  | item required => required.WellFormed
  | openOther _ gap => IsGap gap
  | entry text => IsEntry text
  | close => True

structure Row.WellFormed (row : Row) : Prop where
  indent : IsGap row.margin.indent
  gap : IsGap row.margin.gap
  comment : ∀ text ∈ row.margin.comment, '\n' ∉ text
  code : row.code.WellFormed

instance : DecidablePred Item.WellFormed := fun _ =>
  inferInstanceAs (Decidable (_ ∧ _ ∧ _ ∧ _))

instance : DecidablePred IsEntry := fun _ =>
  inferInstanceAs (Decidable (_ ∧ _ ∧ _ ∧ _ ∧ _ ∧ _))

instance : DecidablePred Directive.WellFormed
  | .blank => inferInstanceAs (Decidable True)
  | .module .. => inferInstanceAs (Decidable (_ ∧ _ ∧ _))
  | .go .. => inferInstanceAs (Decidable (_ ∧ _ ∧ _))
  | .require .. => inferInstanceAs (Decidable (_ ∧ _ ∧ _))
  | .other .. => inferInstanceAs (Decidable (_ ∧ _ ∧ _))

instance : DecidablePred Code.WellFormed
  | .single directive => inferInstanceAs (Decidable directive.WellFormed)
  | .openRequire gap => inferInstanceAs (Decidable (IsGap gap))
  | .item item => inferInstanceAs (Decidable item.WellFormed)
  | .openOther _ gap => inferInstanceAs (Decidable (IsGap gap))
  | .entry text => inferInstanceAs (Decidable (IsEntry text))
  | .close => inferInstanceAs (Decidable True)

theorem Row.wellFormed_iff {row : Row} :
    row.WellFormed ↔
      IsGap row.margin.indent ∧ IsGap row.margin.gap ∧
        (∀ text ∈ row.margin.comment, '\n' ∉ text) ∧ row.code.WellFormed :=
  ⟨fun wellFormed =>
      ⟨wellFormed.indent, wellFormed.gap, wellFormed.comment, wellFormed.code⟩,
    fun ⟨indent, gap, comment, code⟩ => ⟨indent, gap, comment, code⟩⟩

instance : DecidablePred Row.WellFormed := fun _ =>
  decidable_of_iff _ Row.wellFormed_iff.symm

section Rows

variable {row : Row} {path : Name} {item : Item} {margin : Margin}
  {gap text front : List Char}

theorem Name.spell_eq (path : Name) :
    ∃ mark, (∀ c ∈ mark, c = '"') ∧ path.spell = mark ++ path.word ++ mark := by
  rw [Name.spell]
  cases path.quoted with
  | true => exact ⟨['"'], by simp, by simp⟩
  | false => exact ⟨[], by simp, by simp⟩

theorem Name.solid (isWord : IsWord path.word) :
    ∀ c ∈ path.spell, isBlank c = false := by
  obtain ⟨mark, quotes, spelled⟩ := path.spell_eq
  have white : ∀ c ∈ mark, isBlank c = false := fun c member => by
    rw [quotes c member]
    decide
  intro c member
  simp only [spelled, List.mem_append] at member
  rcases member with (here | here) | here
  · exact white c here
  · exact (isWord.2.1 c here).1
  · exact white c here

theorem Name.filled (isWord : IsWord path.word) : path.spell ≠ [] := by
  obtain ⟨mark, -, spelled⟩ := path.spell_eq
  simp [spelled, isWord.1]

theorem Name.starts (isWord : IsWord path.word) : Starts path.spell :=
  starts_of_solid (Name.filled isWord) (Name.solid isWord)

theorem Name.ends (isWord : IsWord path.word) : Ends path.spell :=
  ends_of_solid (Name.filled isWord) (Name.solid isWord)

theorem Name.clear (isWord : IsWord path.word) : Clear path.spell := by
  obtain ⟨mark, quotes, spelled⟩ := path.spell_eq
  have apart : Clear mark := clear_of_not_mem fun member => by
    cases quotes _ member
  rw [spelled]
  exact (apart.append isWord.2.2).append apart

theorem Name.trim_quotes (isWord : IsWord path.word) :
    trimWhile (· == '"') path.spell = path.word := by
  obtain ⟨mark, quotes, spelled⟩ := path.spell_eq
  have kept : ∀ c ∈ path.word, (c == '"') = false := fun c member => by
    have others := (isWord.2.1 c member).2
    simp only [List.mem_cons, not_or] at others
    simpa using others.1
  have marks : ∀ c ∈ mark, (c == '"') = true := fun c member => by
    simp [quotes c member]
  rw [spelled]
  refine trimWhile_append marks marks ?_ ?_
  · exact ⟨_, List.head?_eq_some_head isWord.1, kept _ (List.head_mem _)⟩
  · exact ⟨_, List.getLast?_eq_some_getLast isWord.1,
      kept _ (List.getLast_mem _)⟩

theorem Item.starts (wellFormed : item.WellFormed) : Starts item.spell :=
  (Name.starts wellFormed.1).append.append

theorem Item.ends (wellFormed : item.WellFormed) : Ends item.spell :=
  wellFormed.2.2.2.ends.append

theorem Item.clear (wellFormed : item.WellFormed) : Clear item.spell :=
  ((Name.clear wellFormed.1).append (clear_of_isGap wellFormed.2.1)).append
    wellFormed.2.2.2.2.2

theorem Item.words_spell (wellFormed : item.WellFormed) (white : IsGap front)
    (whiteToo : IsGap gap) :
    words (front ++ item.spell ++ gap) = [item.path.spell, item.version] := by
  obtain ⟨named, spaced, filled, versioned⟩ := wellFormed
  rw [words_append_gap whiteToo.blank, words_gap_append white.blank, Item.spell,
    words_append_space filled spaced.blank,
    words_solid (Name.filled named) (Name.solid named),
    words_solid versioned.1 fun c member => (versioned.2.1 c member).1]
  rfl

theorem Item.not_opens (wellFormed : item.WellFormed) :
    (front ++ item.spell).getLast? ≠ some '(' := by
  obtain ⟨-, -, -, versioned⟩ := wellFormed
  intro ends
  rw [Item.spell, List.getLast?_append, List.getLast?_append,
    List.getLast?_eq_some_getLast versioned.1] at ends
  have last : item.version.getLast versioned.1 = '(' := by simpa using ends
  have plain := (versioned.2.1 _ (List.getLast_mem versioned.1)).2
  rw [last] at plain
  exact plain (by decide)

/-- A required module, which is marked by its comment. -/
def Item.requirement (item : Item) (comment : Option (List Char)) :
    Requirement where
  path := String.ofList item.path.word
  version := some (String.ofList item.version)
  indirect := comment.any fun text => trim text == "indirect".toList

theorem trim_trimEnd (text : List Char) : trim (trimEnd text) = trim text := by
  obtain ⟨back, white, split, -⟩ := exists_trimEnd text
  have same : trim (trimEnd text ++ back) = trim (trimEnd text) :=
    trimWhile_append_right white
  rw [← same, ← split]

theorem readRequirement_of_words {text spec comment path : List Char}
    {rest : List (List Char)}
    (parts : (cut "//".toList text).getD (text, []) = (spec, comment))
    (split : words spec = path :: rest) :
    readRequirement text =
      some
        { path := String.ofList (trimWhile (· == '"') path)
          version := rest.head?.map String.ofList
          indirect := trim comment == "indirect".toList } := by
  rw [readRequirement, parts]
  dsimp only
  rw [split]

theorem readRequirement_item (wellFormed : item.WellFormed)
    (white : IsGap front) (whiteToo : IsGap margin.gap) :
    readRequirement (front ++ item.spell ++ margin.rest) =
      some (item.requirement margin.comment) := by
  have clear : Clear (front ++ item.spell) :=
    (clear_of_isGap white).append (Item.clear wellFormed)
  have named := Name.trim_quotes wellFormed.1
  rw [Margin.rest]
  cases comment : margin.comment with
  | none =>
      have whole : cut "//".toList (front ++ item.spell ++ []) = none := by
        rw [List.append_nil]
        exact cut_eq_none_iff.mpr clear.1
      rw [readRequirement_of_words (by rw [whole]; rfl)
        (Item.words_spell wellFormed white isGap_nil), named]
      rfl
  | some text =>
      have lacks : ¬ ['/', '/'] <:+:
          front ++ item.spell ++ margin.gap ++ ['/'] := by
        obtain ⟨apart, ends⟩ := clear.append (clear_of_isGap whiteToo)
        rw [pair_infix_append_iff]
        rintro (holds | holds | ⟨holds, -⟩)
        · exact apart holds
        · exact absurd holds (by decide)
        · exact ends holds
      have parts : cut "//".toList (front ++ item.spell ++
          (margin.gap ++ '/' :: '/' :: trimEnd text)) =
            some (front ++ item.spell ++ margin.gap, trimEnd text) := by
        rw [← List.append_assoc]
        exact cut_append lacks
      rw [readRequirement_of_words (by rw [parts]; rfl)
        (Item.words_spell wellFormed white whiteToo), named]
      simp [Item.requirement, trim_trimEnd]

theorem ends_comment (text : List Char) :
    Ends ('/' :: '/' :: trimEnd text) := by
  obtain ⟨-, -, -, shape⟩ := exists_trimEnd text
  rcases shape with nothing | ends
  · exact ⟨'/', by simp [nothing], by decide⟩
  · exact @Ends.append ['/', '/'] _ ends

/-- Trimming a row leaves its code and what it has of a comment. -/
theorem Row.trim_spell (wellFormed : row.WellFormed)
    (starts : Starts row.code.spell) (ends : Ends row.code.spell) :
    trim row.spell = row.code.spell ++ row.margin.rest := by
  rw [Row.spell, Margin.ending, Margin.rest]
  cases row.margin.comment with
  | none =>
      rw [List.append_nil, List.append_nil]
      exact trim_append wellFormed.indent.blank wellFormed.gap.blank starts ends
  | some text =>
      obtain ⟨back, white, split, -⟩ := exists_trimEnd text
      have parted : row.margin.indent ++ row.code.spell ++
          (row.margin.gap ++ '/' :: '/' :: (trimEnd text ++ back)) =
            row.margin.indent ++ (row.code.spell ++ (row.margin.gap ++
              '/' :: '/' :: trimEnd text)) ++ back := by
        simp
      rw [← split] at parted
      dsimp only
      rw [parted]
      exact trim_append wellFormed.indent.blank white starts.append
        (ends_comment text).append.append

theorem Row.line_eq_iff (wellFormed : row.WellFormed)
    (starts : Starts row.code.spell) (ends : Ends row.code.spell)
    {line : Line} :
    row.line = line ↔ line.Fits (row.code.spell ++ row.margin.rest) := by
  rw [Row.line, Row.trim_spell wellFormed starts ends, Line.ofText_eq_iff]

end Rows

/-! ## Rows that are taken for what they are -/

/-- The line is what the row stands for: a required module with its version, a
text that is passed over, or the directive that the row has. -/
def Row.Means (row : Row) (line : Line) : Prop :=
  match row.code with
  | .single .blank => line = .blank
  | .single (.module _ path) => line = .module path.word
  | .single (.go _ version) => line = .go version
  | .single (.require _ item) =>
      ∃ text, line = .require text ∧
        readRequirement text = some (item.requirement row.margin.comment)
  | .single (.other ..) => ∃ text, line = .entry text
  | .openRequire _ => line = .openRequire
  | .item item =>
      ∃ text, line = .entry text ∧
        readRequirement text = some (item.requirement row.margin.comment)
  | .openOther .. | .entry _ => line = .openOther ∨ ∃ text, line = .entry text
  | .close => line = .close

/-- The comment ends like the start of a block. -/
def Margin.Opens (margin : Margin) : Prop :=
  ∃ text ∈ margin.comment, (trimEnd text).getLast? = some '('

instance : DecidablePred Margin.Opens := fun _ =>
  inferInstanceAs (Decidable (∃ _ ∈ _, _))

/-- What the reader needs to take a row for what it is. -/
def Row.Plain (row : Row) : Prop :=
  match row.code with
  | .single .blank | .openOther .. => True
  | .single (.module gap _) | .single (.go gap _) =>
      row.margin.comment = none ∧ gap.head? = some ' '
  | .single (.require gap _) => ¬ row.margin.Opens ∧ gap.head? = some ' '
  | .single (.other ..) => ¬ row.margin.Opens
  | .openRequire gap => row.margin.comment = none ∧ gap = [' ']
  | .item _ =>
      ¬ row.margin.Opens ∧ ¬ "module ".toList <+: trim row.spell ∧
        ¬ "go ".toList <+: trim row.spell ∧
        ¬ "require ".toList <+: trim row.spell
  | .entry _ =>
      ¬ "module ".toList <+: trim row.spell ∧
        ¬ "go ".toList <+: trim row.spell ∧
        ("require ".toList <+: trim row.spell → row.margin.Opens)
  | .close => row.margin.comment = none

instance : DecidablePred Row.Plain
  | ⟨_, .single .blank⟩ => inferInstanceAs (Decidable True)
  | ⟨_, .single (.module ..)⟩ => inferInstanceAs (Decidable (_ ∧ _))
  | ⟨_, .single (.go ..)⟩ => inferInstanceAs (Decidable (_ ∧ _))
  | ⟨_, .single (.require ..)⟩ => inferInstanceAs (Decidable (_ ∧ _))
  | ⟨_, .single (.other ..)⟩ => inferInstanceAs (Decidable (¬ _))
  | ⟨_, .openRequire _⟩ => inferInstanceAs (Decidable (_ ∧ _))
  | ⟨_, .item _⟩ => inferInstanceAs (Decidable (_ ∧ _ ∧ _ ∧ _))
  | ⟨_, .openOther ..⟩ => inferInstanceAs (Decidable True)
  | ⟨_, .entry _⟩ => inferInstanceAs (Decidable (_ ∧ _ ∧ (_ → _)))
  | ⟨_, .close⟩ => inferInstanceAs (Decidable (_ = _))

section Meaning

variable {row : Row} {margin : Margin} {text gap : List Char}

theorem Margin.rest_eq_nil_iff : margin.rest = [] ↔ margin.comment = none := by
  rw [Margin.rest]
  cases margin.comment <;> simp

theorem Margin.getLast?_rest (ends : text.getLast? ≠ some '(') :
    (text ++ margin.rest).getLast? = some '(' ↔ margin.Opens := by
  rw [Margin.rest, Margin.Opens]
  cases margin.comment with
  | none => simpa using ends
  | some comment =>
      cases last : (trimEnd comment).getLast? with
      | none => simp [List.getLast?_append, List.getLast?_cons, last]
      | some c => simp [List.getLast?_append, List.getLast?_cons, last]

theorem Margin.ends (ends : Ends text) : Ends (text ++ margin.rest) := by
  rw [Margin.rest]
  cases margin.comment with
  | none => simpa using ends
  | some comment => exact (ends_comment comment).append.append

/-- A keyword is only seen in front of a space. -/
theorem exists_keyword_iff {keyword : List Char} {result : List Char → Prop}
    (filled : gap ≠ []) :
    (∃ rest, keyword ++ gap ++ text = keyword ++ [' '] ++ rest ∧
        result rest) ↔
      gap.head? = some ' ' ∧ result (gap.tail ++ text) := by
  obtain ⟨c, gap, rfl⟩ := List.exists_cons_of_ne_nil filled
  simp [eq_comm, and_assoc]

section Codes

variable {path : Name} {item : Item} {word : List Char}

theorem trim_quotes_rest_iff (isWord : IsWord path.word) :
    path.word = trimWhile (· == '"') (path.spell ++ margin.rest) ↔
      margin.comment = none := by
  cases comment : margin.comment with
  | none =>
      rw [Margin.rest_eq_nil_iff.mpr comment, List.append_nil,
        Name.trim_quotes isWord]
      simp
  | some text =>
      have slashes : ['/', '/'] <:+: path.spell ++ margin.rest := by
        rw [Margin.rest, comment]
        exact ⟨path.spell ++ margin.gap, trimEnd text, by simp⟩
      have kept := @infix_trimWhile (· == '"') _ _ (by simp) (by simp) slashes
      refine iff_of_false (fun same => ?_) (by simp)
      rw [← same] at kept
      exact isWord.2.2.1 kept

theorem fits_module_iff (white : IsGap gap) (filled : gap ≠ [])
    (isWord : IsWord path.word) :
    (Line.module path.word).Fits
        ("module".toList ++ gap ++ path.spell ++ margin.rest) ↔
      margin.comment = none ∧ gap.head? = some ' ' := by
  have later := white.tail
  have inner : trim (gap.tail ++ (path.spell ++ margin.rest)) =
      path.spell ++ margin.rest :=
    later.trim_append (Name.starts isWord).append
      (Margin.ends (Name.ends isWord))
  rw [List.append_assoc, Line.Fits]
  refine (exists_keyword_iff filled).trans ?_
  rw [inner, trim_quotes_rest_iff isWord, and_comm]

theorem fits_go_iff (white : IsGap gap) (filled : gap ≠ [])
    (isWord : IsWord word) :
    (Line.go word).Fits ("go".toList ++ gap ++ word ++ margin.rest) ↔
      margin.comment = none ∧ gap.head? = some ' ' := by
  have later := white.tail
  have inner : trim (gap.tail ++ (word ++ margin.rest)) = word ++ margin.rest :=
    later.trim_append isWord.starts.append (Margin.ends isWord.ends)
  rw [List.append_assoc, Line.Fits]
  refine (exists_keyword_iff filled).trans ?_
  rw [inner, List.self_eq_append_right, Margin.rest_eq_nil_iff, and_comm]

theorem fits_require_iff (white : IsGap gap) (filled : gap ≠ [])
    (whiteToo : IsGap margin.gap) (wellFormed : item.WellFormed) :
    (∃ text, (Line.require text).Fits
        ("require".toList ++ gap ++ item.spell ++ margin.rest) ∧
      readRequirement text = some (item.requirement margin.comment)) ↔
      ¬ margin.Opens ∧ gap.head? = some ' ' := by
  have later := white.tail
  have reads : readRequirement (gap.tail ++ (item.spell ++ margin.rest)) =
      some (item.requirement margin.comment) := by
    rw [← List.append_assoc]
    exact readRequirement_item wellFormed later whiteToo
  have opens := @Margin.getLast?_rest margin
    ("require".toList ++ gap ++ item.spell) (Item.not_opens wellFormed)
  rw [← opens]
  simp only [Line.Fits, and_assoc]
  rw [List.append_assoc] at opens ⊢
  refine (exists_keyword_iff filled).trans ?_
  rw [reads, and_comm]
  simp

theorem fits_openRequire_iff (white : IsGap gap) :
    Line.openRequire.Fits ("require".toList ++ gap ++ ['('] ++ margin.rest) ↔
      margin.comment = none ∧ gap = [' '] := by
  have split : "require (".toList = "require".toList ++ [' ', '('] := rfl
  rw [Line.Fits, split, List.append_assoc, List.append_assoc,
    List.append_cancel_left_eq, ← Margin.rest_eq_nil_iff]
  match gap with
  | [] => simp
  | [c] => simp [and_comm]
  | c :: d :: gap =>
      have solid : d ≠ '(' :=
        ne_of_isBlank (white d (by simp)).1 (by decide)
      simp [solid]

theorem fits_close_iff :
    Line.close.Fits ([')'] ++ margin.rest) ↔ margin.comment = none := by
  simp [Line.Fits, Margin.rest_eq_nil_iff]

/-- Which texts are taken for entries. -/
theorem exists_fits_entry_iff {result : List Char → Prop} (filled : text ≠ [])
    (noComment : ¬ ['/', '/'] <+: text) (other : text ≠ [')']) :
    (∃ whole, (Line.entry whole).Fits text ∧ result whole) ↔
      text.getLast? ≠ some '(' ∧ ¬ "module ".toList <+: text ∧
        ¬ "go ".toList <+: text ∧ ¬ "require ".toList <+: text ∧
        result text := by
  constructor
  · rintro ⟨_, ⟨rfl, -, -, notModule, notGo, notRequire, ends, -⟩, holds⟩
    exact ⟨ends, notModule, notGo, notRequire, holds⟩
  · rintro ⟨ends, notModule, notGo, notRequire, holds⟩
    exact ⟨text, ⟨rfl, filled, noComment, notModule, notGo, notRequire, ends,
      other⟩, holds⟩

/-- No other directive starts with the name of a verb. -/
theorem Verb.spell_append (verb : Verb) (more : List Char) :
    verb.spell ++ more ≠ [] ∧ ¬ ['/', '/'] <+: verb.spell ++ more ∧
      verb.spell ++ more ≠ [')'] ∧ ¬ "module ".toList <+: verb.spell ++ more ∧
      ¬ "go ".toList <+: verb.spell ++ more ∧
      ¬ "require ".toList <+: verb.spell ++ more := by
  cases verb <;> simp [Verb.spell, Verb.name]

theorem fits_other_iff (verb : Verb) (isEntry : IsEntry text) :
    (∃ whole, (Line.entry whole).Fits
        (verb.spell ++ gap ++ text ++ margin.rest)) ↔ ¬ margin.Opens := by
  have ends : (verb.spell ++ gap ++ text).getLast? ≠ some '(' := by
    obtain ⟨-, ⟨c, last, -⟩, -, -, -, notOpens⟩ := isEntry
    rw [List.getLast?_append, last, Option.some_or]
    rwa [last] at notOpens
  have opens := @Margin.getLast?_rest margin _ ends
  rw [← opens]
  obtain ⟨filled, noComment, notClose, notModule, notGo, notRequire⟩ :=
    verb.spell_append (gap ++ text ++ margin.rest)
  have entry := @exists_fits_entry_iff _ (fun _ => True) filled noComment
    notClose
  simp only [and_true, notModule, notGo, notRequire, not_false_eq_true] at entry
  simpa [List.append_assoc] using entry

theorem fits_openOther (verb : Verb) :
    Line.openOther.Fits (verb.spell ++ gap ++ ['('] ++ margin.rest) ∨
      ∃ whole, (Line.entry whole).Fits
        (verb.spell ++ gap ++ ['('] ++ margin.rest) := by
  obtain ⟨filled, noComment, notClose, notModule, notGo, notRequire⟩ :=
    verb.spell_append (gap ++ ['('] ++ margin.rest)
  simp only [← List.append_assoc] at *
  by_cases opens :
      (verb.spell ++ gap ++ ['('] ++ margin.rest).getLast? = some '('
  · exact .inl ⟨opens, noComment, notModule, notGo,
      fun same => notRequire ⟨['('], same.symm⟩⟩
  · exact .inr ⟨_, rfl, filled, noComment, notModule, notGo, notRequire, opens,
      notClose⟩

theorem fits_item_iff (whiteToo : IsGap margin.gap)
    (wellFormed : item.WellFormed) :
    (∃ text, (Line.entry text).Fits (item.spell ++ margin.rest) ∧
      readRequirement text = some (item.requirement margin.comment)) ↔
      ¬ margin.Opens ∧ ¬ "module ".toList <+: item.spell ++ margin.rest ∧
        ¬ "go ".toList <+: item.spell ++ margin.rest ∧
        ¬ "require ".toList <+: item.spell ++ margin.rest := by
  have filled : item.spell ≠ [] := (Item.starts wellFormed).filled
  have reads : readRequirement (item.spell ++ margin.rest) =
      some (item.requirement margin.comment) :=
    @readRequirement_item _ _ [] wellFormed isGap_nil whiteToo
  have opens := @Margin.getLast?_rest margin item.spell
    (@Item.not_opens _ [] wellFormed)
  have long : item.spell ++ margin.rest ≠ [')'] := by
    intro same
    have lengths := congrArg List.length same
    have named := List.length_pos_iff.mpr (Name.filled wellFormed.1)
    have spaced := List.length_pos_iff.mpr wellFormed.2.2.1
    simp [Item.spell] at lengths
    omega
  rw [exists_fits_entry_iff (by simp [filled])
    ((Item.clear wellFormed).not_isPrefix filled) long, ← opens]
  simp [reads]

theorem fits_entry_iff (isEntry : IsEntry text) :
    (Line.openOther.Fits (text ++ margin.rest) ∨
      ∃ whole, (Line.entry whole).Fits (text ++ margin.rest)) ↔
      ¬ "module ".toList <+: text ++ margin.rest ∧
        ¬ "go ".toList <+: text ++ margin.rest ∧
        ("require ".toList <+: text ++ margin.rest → margin.Opens) := by
  obtain ⟨starts, -, -, noSlash, notClose, notOpens⟩ := isEntry
  have opens := @Margin.getLast?_rest margin text notOpens
  obtain ⟨c, text, rfl⟩ := List.exists_cons_of_ne_nil starts.filled
  have noComment : ¬ ['/', '/'] <+: c :: text ++ margin.rest := by
    rintro ⟨rest, same⟩
    exact noSlash (congrArg List.head? same).symm
  have other : c :: text ++ margin.rest ≠ [')'] := fun same =>
    notClose (congrArg List.head? same)
  have filled : c :: text ++ margin.rest ≠ [] := by simp
  have entry := @exists_fits_entry_iff _ (fun _ => True) filled noComment other
  simp only [and_true] at entry
  rw [entry, ← opens]
  constructor
  · rintro (⟨ends, -, notModule, notGo, -⟩ | ⟨-, notModule, notGo, no⟩)
    · exact ⟨notModule, notGo, fun _ => ends⟩
    · exact ⟨notModule, notGo, fun starts => absurd starts no⟩
  · rintro ⟨notModule, notGo, required⟩
    by_cases ends : (c :: text ++ margin.rest).getLast? = some '('
    · by_cases block : c :: text ++ margin.rest = "require (".toList
      · have nothing : margin.rest = [] := by
          rw [Margin.rest] at block ⊢
          cases comment : margin.comment with
          | none => rfl
          | some comment =>
              have slash : '/' ∈ "require (".toList := by
                rw [← block]
                simp [comment]
              exact absurd slash (by decide)
        rw [nothing, List.append_nil] at ends
        exact absurd ends notOpens
      · exact .inl ⟨ends, noComment, notModule, notGo, block⟩
    · exact .inr ⟨ends, notModule, notGo, fun starts => ends (required starts)⟩

end Codes

theorem Verb.starts (verb : Verb) : Starts verb.spell := by
  cases verb <;> exact ⟨_, rfl, by decide⟩

theorem Row.trim_blank (wellFormed : row.WellFormed)
    (blank : row.code = .single .blank) :
    trim row.spell = [] ∨ ['/', '/'] <+: trim row.spell := by
  have white : ∀ c ∈ row.margin.indent ++ row.margin.gap, isBlank c = true :=
    List.forall_mem_append.mpr ⟨wellFormed.indent.blank, wellFormed.gap.blank⟩
  have spelled : row.code.spell = [] := by rw [blank]; rfl
  rw [Row.spell, Margin.ending, spelled, List.append_nil, ← List.append_assoc,
    trim, trimWhile_append_left white]
  cases row.margin.comment with
  | none => exact .inl rfl
  | some text =>
      obtain ⟨back, whiteToo, split, -⟩ := exists_trimEnd text
      have left : trimWhile isBlank ('/' :: '/' :: (trimEnd text ++ back)) =
          '/' :: '/' :: trimEnd text :=
        (@trimWhile_append_right back ('/' :: '/' :: trimEnd text) isBlank
          whiteToo).trans (trim_eq_self ⟨'/', rfl, by decide⟩
            (ends_comment text))
      rw [← split] at left
      dsimp only
      rw [left]
      exact .inr ⟨trimEnd text, rfl⟩

theorem Directive.starts {directive : Directive} (filled : directive ≠ .blank) :
    Starts directive.spell := by
  cases directive with
  | blank => exact absurd rfl filled
  | module gap path =>
      exact Starts.append (Starts.append ⟨'m', rfl, by decide⟩)
  | go gap version =>
      exact Starts.append (Starts.append ⟨'g', rfl, by decide⟩)
  | require gap item =>
      exact Starts.append (Starts.append ⟨'r', rfl, by decide⟩)
  | other verb gap text => exact verb.starts.append.append

theorem Directive.ends {directive : Directive}
    (wellFormed : directive.WellFormed) (filled : directive ≠ .blank) :
    Ends directive.spell := by
  cases directive with
  | blank => exact absurd rfl filled
  | module gap path => exact (Name.ends wellFormed.2.2).append
  | go gap version => exact wellFormed.2.2.ends.append
  | require gap item => exact (Item.ends wellFormed.2.2).append
  | other verb gap text => exact wellFormed.2.2.2.1.append

theorem Code.starts {code : Code} (wellFormed : code.WellFormed)
    (filled : code ≠ .single .blank) : Starts code.spell := by
  cases code with
  | single directive =>
      exact Directive.starts fun blank => filled (congrArg _ blank)
  | openRequire gap =>
      exact Starts.append (Starts.append ⟨'r', rfl, by decide⟩)
  | item item => exact Item.starts wellFormed
  | openOther verb gap => exact verb.starts.append.append
  | entry text => exact wellFormed.1
  | close => exact ⟨')', rfl, by decide⟩

theorem Code.ends {code : Code} (wellFormed : code.WellFormed)
    (filled : code ≠ .single .blank) : Ends code.spell := by
  cases code with
  | single directive =>
      exact Directive.ends wellFormed fun blank => filled (congrArg _ blank)
  | openRequire gap => exact Ends.append ⟨'(', rfl, by decide⟩
  | item item => exact Item.ends wellFormed
  | openOther verb gap => exact Ends.append ⟨'(', rfl, by decide⟩
  | entry text => exact wellFormed.2.1
  | close => exact ⟨')', rfl, by decide⟩

/-- A row is taken for what it is exactly if it is plain. -/
theorem Row.means_line_iff (wellFormed : row.WellFormed) :
    row.Means row.line ↔ row.Plain := by
  by_cases blank : row.code = .single .blank
  · have silent : row.line = .blank :=
      Line.ofText_eq_iff.mpr (row.trim_blank wellFormed blank)
    simp [Row.Means, Row.Plain, blank, silent]
  · have starts := Code.starts wellFormed.code blank
    have ends := Code.ends wellFormed.code blank
    have reads {line : Line} := @Row.line_eq_iff row wellFormed starts ends line
    have trimmed := Row.trim_spell wellFormed starts ends
    obtain ⟨-, spaced, -, coded⟩ := wellFormed
    obtain ⟨margin, code⟩ := row
    cases code with
    | single directive =>
        cases directive with
        | blank => exact absurd rfl blank
        | module gap path =>
            exact reads.trans (fits_module_iff coded.1 coded.2.1 coded.2.2)
        | go gap version =>
            exact reads.trans (fits_go_iff coded.1 coded.2.1 coded.2.2)
        | require gap item =>
            simp only [Row.Means, Row.Plain, reads]
            exact fits_require_iff coded.1 coded.2.1 spaced coded.2.2
        | other verb gap text =>
            simp only [Row.Means, Row.Plain, reads]
            exact fits_other_iff verb coded.2.2
    | openRequire gap => exact reads.trans (fits_openRequire_iff coded)
    | item item =>
        simp only [Row.Means, Row.Plain, reads, trimmed]
        exact fits_item_iff spaced coded
    | openOther verb gap =>
        simp only [Row.Means, Row.Plain, reads, iff_true]
        exact fits_openOther verb
    | entry text =>
        simp only [Row.Means, Row.Plain, reads, trimmed]
        exact fits_entry_iff coded
    | close => exact reads.trans fits_close_iff

end Meaning

end ArchSurvey.Manifest.GoModule
