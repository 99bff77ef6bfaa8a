import ArchSurvey.Manifest.TableFile
import ArchSurvey.Proofs.Manifest.Quotation
import ArchSurvey.Proofs.Manifest.RequirementFile

/-!
# Layouts of arrays

The array with the requirements of a project may be written on one line or on
several ones, with comments on lines of their own.  Its lines are collected up
to the one at which all brackets are closed, and then the quoted texts are
looked for.  What stands between the texts does not matter, but a comment that
is not indented by a space is collected as well.
-/

namespace ArchSurvey.Manifest.TableFile

open Text
open Text.Pattern (Place Leads concat opt group some1 blanks textStart textEnd
  anyInLine is anyOf readsOne_char leads_some1 leads_blanks)
open Requirement (isQuote Closed quotedTexts readQuoted withoutComment IsName)

/-! ## Arrays -/

/-- A text between two quotation marks. -/
structure Element where
  mark : Char
  text : List Char
  deriving DecidableEq

/-- What a line of an array consists of. -/
inductive Token where
  | gap (text : List Char)
  | comma
  | element (element : Element)
  deriving DecidableEq

/-- A comment on a line of its own. -/
structure Comment where
  indent : List Char
  text : List Char
  deriving DecidableEq

/-- A line of an array. -/
inductive Row where
  | code (tokens : List Token)
  | comment (comment : Comment)
  deriving DecidableEq

/-- The array of dependencies: white space around the key and the equals sign,
the rest of the first line, further lines with the start of the last one, and
white space at the end. -/
structure Layout where
  indent : List Char
  before : List Char
  after : List Char
  first : List Token
  more : Option (List Row × List Token)
  tail : List Char
  deriving DecidableEq

def Element.spell (element : Element) : List Char :=
  element.mark :: (element.text ++ [element.mark])

def Token.spell : Token → List Char
  | gap text => text
  | comma => [',']
  | element quoted => quoted.spell

def Comment.spell (comment : Comment) : List Char :=
  comment.indent ++ '#' :: comment.text

def Row.spell : Row → List Char
  | code tokens => tokens.flatMap Token.spell
  | comment written => written.spell

/-- The key of the array. -/
def key : List Char :=
  "dependencies".toList

/-- The first line with some text behind the opening bracket. -/
def Layout.opening (layout : Layout) (text : List Char) : List Char :=
  layout.indent ++
    (key ++ (layout.before ++ '=' :: (layout.after ++ '[' :: text)))

/-- The end of the last line. -/
def Layout.closing (layout : Layout) : List Char :=
  ']' :: layout.tail

def Layout.lines (layout : Layout) : List (List Char) :=
  let first := layout.first.flatMap Token.spell
  match layout.more with
  | none => [layout.opening (first ++ layout.closing)]
  | some (rows, last) =>
      layout.opening first :: (rows.map Row.spell ++
        [last.flatMap Token.spell ++ layout.closing])

def Layout.spell (layout : Layout) : List Char :=
  joinWith ['\n'] layout.lines

def Token.element? : Token → Option Element
  | element quoted => some quoted
  | _ => none

def Row.elements : Row → List Element
  | code tokens => tokens.filterMap Token.element?
  | comment _ => []

def Row.comment? : Row → Option Comment
  | code _ => none
  | comment written => some written

def Layout.elements (layout : Layout) : List Element :=
  layout.first.filterMap Token.element? ++
    match layout.more with
    | none => []
    | some (rows, last) =>
        rows.flatMap Row.elements ++ last.filterMap Token.element?

def Layout.comments (layout : Layout) : List Comment :=
  match layout.more with
  | none => []
  | some (rows, _) => rows.filterMap Row.comment?

def Element.WellFormed (element : Element) : Prop :=
  isQuote element.mark = true ∧ element.mark ∉ element.text ∧
    '#' ∉ element.text ∧ '\n' ∉ element.text ∧ bracketBalance element.text = 0

def Token.WellFormed : Token → Prop
  | gap text => IsGap text
  | comma => True
  | element quoted => quoted.WellFormed

def Comment.WellFormed (comment : Comment) : Prop :=
  IsGap comment.indent ∧ '\n' ∉ comment.text

def Row.WellFormed : Row → Prop
  | code tokens => ∀ token ∈ tokens, token.WellFormed
  | comment written => written.WellFormed

structure Layout.WellFormed (layout : Layout) : Prop where
  indent : IsGap layout.indent
  before : IsGap layout.before
  after : IsGap layout.after
  first : ∀ token ∈ layout.first, token.WellFormed
  rows : ∀ more ∈ layout.more, ∀ row ∈ more.1, row.WellFormed
  last : ∀ more ∈ layout.more, ∀ token ∈ more.2, token.WellFormed
  tail : IsGap layout.tail

instance : DecidablePred Element.WellFormed := fun _ =>
  inferInstanceAs (Decidable (_ ∧ _ ∧ _ ∧ _ ∧ _))

instance : DecidablePred Token.WellFormed
  | .gap _ => inferInstanceAs (Decidable (IsGap _))
  | .comma => inferInstanceAs (Decidable True)
  | .element _ => inferInstanceAs (Decidable (Element.WellFormed _))

instance : DecidablePred Comment.WellFormed := fun _ =>
  inferInstanceAs (Decidable (_ ∧ _))

instance : DecidablePred Row.WellFormed
  | .code _ => inferInstanceAs (Decidable (∀ _ ∈ _, _))
  | .comment _ => inferInstanceAs (Decidable (Comment.WellFormed _))

instance : DecidablePred Layout.WellFormed := fun layout =>
  decidable_of_iff
    (IsGap layout.indent ∧ IsGap layout.before ∧ IsGap layout.after ∧
      (∀ token ∈ layout.first, token.WellFormed) ∧
      (∀ more ∈ layout.more, ∀ row ∈ more.1, row.WellFormed) ∧
      (∀ more ∈ layout.more, ∀ token ∈ more.2, token.WellFormed) ∧
      IsGap layout.tail)
    ⟨fun ⟨indent, before, after, first, rows, last, tail⟩ =>
        ⟨indent, before, after, first, rows, last, tail⟩,
      fun ⟨indent, before, after, first, rows, last, tail⟩ =>
        ⟨indent, before, after, first, rows, last, tail⟩⟩

/-! ## What texts give -/

/-- A closed text with quoted requirements and a balance of brackets. -/
structure Gives (text : List Char) (found : List Requirement)
    (balance : Int) : Prop where
  closed : Closed text
  reads : readQuoted "compile" text = found
  balance : bracketBalance text = balance

instance (text : List Char) (found : List Requirement) (balance : Int) :
    Decidable (Gives text found balance) :=
  decidable_of_iff (Closed text ∧ readQuoted "compile" text = found ∧
      bracketBalance text = balance)
    ⟨fun ⟨closed, reads, balance⟩ => ⟨closed, reads, balance⟩,
      fun ⟨closed, reads, balance⟩ => ⟨closed, reads, balance⟩⟩

theorem bracketBalance_append (before after : List Char) :
    bracketBalance (before ++ after) =
      bracketBalance before + bracketBalance after := by
  simp only [bracketBalance, List.count_append]
  omega

theorem bracketBalance_of_plain {text : List Char}
    (plain : '[' ∉ text ∧ ']' ∉ text) : bracketBalance text = 0 := by
  simp [bracketBalance, List.count_eq_zero.mpr plain.1,
    List.count_eq_zero.mpr plain.2]

theorem bracketBalance_trim (text : List Char) :
    bracketBalance (trim text) = bracketBalance text := by
  obtain ⟨front, back, white, whiteToo, split⟩ := exists_trim text
  have plain {gap : List Char} (white : ∀ c ∈ gap, isBlank c = true) :
      bracketBalance gap = 0 :=
    bracketBalance_of_plain
      ⟨fun member => ne_of_isBlank (white _ member) (by decide) rfl,
        fun member => ne_of_isBlank (white _ member) (by decide) rfl⟩
  have whole := congrArg bracketBalance split
  rw [bracketBalance_append, bracketBalance_append, plain white,
    plain whiteToo] at whole
  omega

theorem readQuoted_append {before : List Char} (scope : String)
    (closed : Closed before) (after : List Char) :
    readQuoted scope (before ++ after) =
      readQuoted scope before ++ readQuoted scope after := by
  rw [readQuoted, Requirement.quotedTexts_append closed, List.filterMap_append]
  rfl

section Giving

variable {before after text : List Char} {found others : List Requirement}
  {balance change : Int}

theorem Gives.append (first : Gives before found balance)
    (second : Gives after others change) :
    Gives (before ++ after) (found ++ others) (balance + change) where
  closed := first.closed.append second.closed
  reads := by rw [readQuoted_append _ first.closed, first.reads, second.reads]
  balance := by rw [bracketBalance_append, first.balance, second.balance]

theorem Gives.trim (gives : Gives text found balance) :
    Gives (trim text) found balance where
  closed := gives.closed.trim.1
  reads := by
    rw [readQuoted, gives.closed.trim.2]
    exact gives.reads
  balance := by rw [bracketBalance_trim, gives.balance]

theorem gives_of_plain
    (plain : ∀ c ∈ text, isQuote c = false ∧ c ≠ '[' ∧ c ≠ ']') :
    Gives text [] 0 where
  closed := Requirement.closed_of_plain fun c member => (plain c member).1
  reads := by
    rw [readQuoted, Requirement.quotedTexts_of_plain fun c member =>
      (plain c member).1]
    rfl
  balance := bracketBalance_of_plain
    ⟨fun member => (plain _ member).2.1 rfl,
      fun member => (plain _ member).2.2 rfl⟩

theorem gives_gap (isGap : IsGap text) : Gives text [] 0 :=
  gives_of_plain fun c member =>
    have white := isGap.blank c member
    ⟨Requirement.isQuote_of_isBlank white, ne_of_isBlank white (by decide),
      ne_of_isBlank white (by decide)⟩

theorem gives_opening : Gives ['['] [] 1 :=
  ⟨by decide, rfl, by decide⟩

theorem gives_closing : Gives [']'] [] (-1) :=
  ⟨by decide, rfl, by decide⟩

theorem gives_feed : Gives ['\n'] [] 0 :=
  gives_of_plain (by decide)

/-- The requirements that quoted texts state. -/
def required (elements : List Element) : List Requirement :=
  elements.filterMap fun element => Requirement.read "compile" element.text

theorem gives_element {element : Element} (wellFormed : element.WellFormed) :
    Gives element.spell (required [element]) 0 := by
  obtain ⟨quote, absent, -, -, balanced⟩ := wellFormed
  have quoted : quotedTexts element.spell = [element.text] :=
    Requirement.quotedTexts_quotation quote absent []
  refine ⟨(Requirement.closed_quotation_iff quote absent).mpr
    Requirement.closed_nil, ?_, ?_⟩
  · rw [readQuoted, quoted]
    rfl
  · have plain : ∀ mark, isQuote mark = true → bracketBalance [mark] = 0 := by
      intro mark quote
      refine bracketBalance_of_plain ⟨?_, ?_⟩
      · rintro member
        obtain rfl := List.mem_singleton.mp member
        exact absurd quote (by decide)
      · rintro member
        obtain rfl := List.mem_singleton.mp member
        exact absurd quote (by decide)
    have split : element.spell =
        [element.mark] ++ (element.text ++ [element.mark]) := rfl
    rw [split, bracketBalance_append, bracketBalance_append, balanced,
      plain _ quote]
    rfl

theorem gives_tokens {tokens : List Token}
    (wellFormed : ∀ token ∈ tokens, token.WellFormed) :
    Gives (tokens.flatMap Token.spell)
      (required (tokens.filterMap Token.element?)) 0 := by
  induction tokens with
  | nil => exact gives_of_plain (by simp)
  | cons token tokens ih =>
      obtain ⟨here, later⟩ := List.forall_mem_cons.mp wellFormed
      rw [List.flatMap_cons]
      match token, here with
      | .gap text, isGap =>
          exact (gives_gap isGap).append (ih later)
      | .comma, _ =>
          have plain : Gives [','] [] 0 := gives_of_plain (by decide)
          exact plain.append (ih later)
      | .element element, here =>
          have whole := (gives_element here).append (ih later)
          rw [required, required, ← List.filterMap_append] at whole
          exact whole

end Giving

/-! ## The line of the key -/

section Keys

variable {name before after value : List Char}

/-- A name without quotation marks is not taken for a quoted one. -/
theorem leads_unquoted {place : Place}
    (plain : ∀ c ∈ place.rest.head?, isQuote c = false) :
    Leads (opt (anyOf "\"'")) place place := by
  refine Pattern.leads_opt_of_fails ((readsOne_char _).stops fun c member => ?_)
  have other := plain c member
  simpa [isQuote] using other

theorem isQuote_of_isNameChar {c : Char}
    (named : Requirement.isNameChar c = true) : isQuote c = false :=
  Requirement.forall_nameChar (isQuote · = false) (by decide +kernel) named

/-- A key and its value are parted at the equals sign. -/
theorem search_keyValue (isName : IsName name) (isGap : IsGap before)
    (isGapToo : IsGap after) (starts : Starts value) (inLine : '\n' ∉ value) :
    ∃ found, keyValue.search (name ++ (before ++ '=' :: (after ++ value))) =
        some found ∧ found.group 1 = name ∧ found.group 2 = value := by
  let text := name ++ (before ++ '=' :: (after ++ value))
  let start := Place.start [] text
  let named := start.keep 1 name (before ++ '=' :: (after ++ value))
  let spaced := named.past before ('=' :: (after ++ value))
  let equaled := spaced.past ['='] (after ++ value)
  let opened := equaled.past after value
  have first : ∀ c ∈ text.head?, isQuote c = false := by
    intro c member
    cases name with
    | nil => exact isName.elim
    | cons d rest =>
        obtain rfl : d = c := by simpa [text] using member
        exact isQuote_of_isNameChar
          (isName.chars d List.mem_cons_self)
  have behind : ∀ c ∈ (before ++ '=' :: (after ++ value)).head?,
      Requirement.isNameChar c = false ∧ isQuote c = false := by
    intro c member
    cases before with
    | nil =>
        obtain rfl : '=' = c := by simpa using member
        decide
    | cons d rest =>
        obtain rfl : d = c := by simpa using member
        have white := isGap.blank d List.mem_cons_self
        exact ⟨Requirement.isNameChar_of_isBlank white,
          Requirement.isQuote_of_isBlank white⟩
  have one : Leads textStart start start := Pattern.leads_textStart rfl
  have two : Leads (opt (anyOf "\"'")) start start := leads_unquoted first
  have three : Leads (group 1 Requirement.namePattern) start named :=
    Requirement.leads_name isName rfl fun c member => (behind c member).1
  have four : Leads (opt (anyOf "\"'")) named named :=
    leads_unquoted fun c member => (behind c member).2
  have five : Leads blanks named spaced :=
    leads_blanks rfl isGap.blank (by simp; decide)
  have six : Leads (is '=') spaced equaled :=
    (readsOne_char _).reads rfl (by simp)
  have seven : Leads blanks equaled opened :=
    leads_blanks rfl isGapToo.blank starts.head
  have eight : Leads (some1 anyInLine) opened (opened.past value []) := by
    refine leads_some1 (readsOne_char _) starts.filled (by simp [opened])
      (fun c member => ?_) (by simp)
    have other : c ≠ '\n' := fun same => inLine (same ▸ member)
    simpa using other
  have whole : Leads keyValue start (opened.keep 2 value []) :=
    one.seq (two.seq (three.seq (four.seq (five.seq (six.seq (seven.seq
      (eight.group.seq (Pattern.leads_textEnd rfl))))))))
  refine ⟨_, Pattern.search_of_leads_start whole, ?_, ?_⟩
  · simp [Pattern.Match.group, Pattern.group?_ending, opened, equaled, spaced,
      named, start, text, List.lookup_cons, Place.start]
  · simp [Pattern.Match.group, Pattern.group?_ending, opened]

end Keys

theorem trim_bracket (text : List Char) :
    trim ('[' :: text) = '[' :: trimEnd text :=
  @trim_append_mark '[' (by decide) [] text

theorem step_opening {layout : Layout} (wellFormed : layout.WellFormed)
    {state : State} (project : state.table = .project)
    (idle : state.pending = none) {text : List Char} (plain : '#' ∉ text)
    (inLine : '\n' ∉ text) :
    state.step (layout.opening text) =
      state.startArray "compile" (trim ('[' :: text)) := by
  have note : '#' ∉ layout.opening text := by
    have blank (gap : List Char) (isGap : IsGap gap) : '#' ∉ gap :=
      isGap.not_mem (by decide)
    have named : '#' ∉ key := by decide
    simp [Layout.opening, blank _ wellFormed.indent, blank _ wellFormed.before,
      blank _ wellFormed.after, named, plain]
  have value : Starts (trim ('[' :: text)) := by
    rw [trim_bracket]
    exact ⟨'[', rfl, by decide⟩
  have inLineToo : '\n' ∉ trim ('[' :: text) := by
    obtain ⟨front, back, -, -, split⟩ := exists_trim ('[' :: text)
    intro member
    have within : '\n' ∈ '[' :: text := by
      rw [split]
      exact List.mem_append_right _ (List.mem_append_left _ member)
    simp [inLine] at within
  have left : withoutComment (layout.opening text) = key ++
      (layout.before ++ '=' :: (layout.after ++ trim ('[' :: text))) := by
    have split : layout.opening text = (layout.indent ++
        (key ++ (layout.before ++ '=' :: layout.after))) ++ '[' :: text := by
      simp [Layout.opening]
    have front : trimStart (layout.indent ++
        (key ++ (layout.before ++ '=' :: layout.after))) =
          key ++ (layout.before ++ '=' :: layout.after) := by
      rw [trimStart, List.dropWhile_append_of_pos wellFormed.indent.blank]
      rfl
    rw [Requirement.withoutComment_eq_trim note, split,
      trim_append_mark (by decide), front, trim_bracket]
    simp
  have isName : IsName key := by decide
  obtain ⟨found, search, name, rest⟩ := search_keyValue isName
    wellFormed.before wellFormed.after value inLineToo
  have head : (key ++ (layout.before ++
      '=' :: (layout.after ++ trim ('[' :: text)))).head? = some 'd' := rfl
  have filled : (key ++ (layout.before ++
      '=' :: (layout.after ++ trim ('[' :: text)))).isEmpty = false := rfl
  have scope : arrayScope? .project key = some "compile" := rfl
  rw [State.step]
  simp only [left, idle, head, filled, search, name, rest, project, scope,
    isTableName]
  rfl

/-! ## Collecting -/

/-- The text of an open array gives some requirements and its depth. -/
def Collects (array : OpenArray) (found : List Requirement) : Prop :=
  array.scope = "compile" ∧ Gives array.text found array.depth

section Collecting

variable {state : State} {array : OpenArray} {line : List Char}
  {found others : List Requirement} {change : Int}

theorem step_of_pending (pending : state.pending = some array)
    (line : List Char) :
    state.step line = state.continue array (withoutComment line) := by
  rw [State.step]
  simp only [pending]

/-- What a line gives is added to what is collected. -/
theorem exists_continue (collects : Collects array found)
    (gives : Gives line others change) (more : 0 < array.depth + change) :
    ∃ array', state.continue array line =
        { state with pending := some array' } ∧
      Collects array' (found ++ others) ∧
      array'.depth = array.depth + change := by
  have whole := (collects.2.append gives).append gives_feed
  rw [List.append_nil, Int.add_zero] at whole
  have open_ : ¬array.depth + bracketBalance line ≤ 0 := by
    rw [gives.balance]
    omega
  refine ⟨⟨array.scope, array.text ++ line ++ ['\n'], array.depth + change⟩,
    ?_, ⟨collects.1, whole⟩, rfl⟩
  rw [State.continue, if_neg open_, gives.balance]

theorem continue_eq_add (collects : Collects array found)
    (gives : Gives line others change) (last : array.depth + change ≤ 0) :
    state.continue array line =
      { state with pending := none }.add (found ++ others) := by
  have whole := (collects.2.append gives).append gives_feed
  have closed : array.depth + bracketBalance line ≤ 0 := by
    rw [gives.balance]
    exact last
  have reads := whole.reads
  rw [List.append_nil] at reads
  rw [State.continue, if_pos closed, collects.1, reads]

end Collecting

/-! ## Reading arrays -/

/-- What is collected of the comment changes nothing. -/
def Comment.Silent (comment : Comment) : Prop :=
  Gives (withoutComment comment.spell) [] 0

instance : DecidablePred Comment.Silent := fun _ =>
  inferInstanceAs (Decidable (Gives _ _ _))

section Layouts

variable {layout : Layout} {state : State} {array : OpenArray}
  {found : List Requirement} {tokens : List Token} {rows : List Row}

theorem tokens_lack {mark : Char} (isMark : mark ∈ ['#', '\n'])
    (wellFormed : ∀ token ∈ tokens, token.WellFormed) :
    mark ∉ tokens.flatMap Token.spell := by
  have each : ∀ mark ∈ ['#', '\n'], isQuote mark = false ∧ mark ≠ ',' ∧
      (mark = '\n' ∨ isBlank mark = false) := by decide
  obtain ⟨other, comma, shape⟩ := each mark isMark
  intro member
  obtain ⟨token, written, within⟩ := List.mem_flatMap.mp member
  match token, wellFormed token written with
  | .gap text, isGap =>
      rcases shape with rfl | solid
      · exact IsGap.inLine isGap within
      · exact IsGap.not_mem isGap solid within
  | .comma, _ => exact comma (List.mem_singleton.mp within)
  | .element element, ⟨quote, _, note, feed, _⟩ =>
      have edge : mark ≠ element.mark := by
        rintro rfl
        rw [quote] at other
        cases other
      have inside : mark ∉ element.text := by
        simp only [List.mem_cons, List.not_mem_nil, or_false] at isMark
        rcases isMark with rfl | rfl
        · exact note
        · exact feed
      simp [Token.spell, Element.spell, edge, inside] at within

theorem gives_row {row : Row} (wellFormed : row.WellFormed)
    (silent : ∀ comment ∈ row.comment?, comment.Silent) :
    Gives (withoutComment row.spell) (required row.elements) 0 := by
  cases row with
  | code tokens =>
      have note : '#' ∉ tokens.flatMap Token.spell :=
        tokens_lack (by decide) wellFormed
      rw [Row.spell, Requirement.withoutComment_eq_trim note]
      exact (gives_tokens wellFormed).trim
  | comment comment => exact silent comment rfl

/-- Rows are collected one after the other. -/
theorem foldl_rows (pending : state.pending = some array)
    (collects : Collects array found) (more : 0 < array.depth)
    (wellFormed : ∀ row ∈ rows, row.WellFormed)
    (silent : ∀ comment ∈ rows.filterMap Row.comment?, comment.Silent) :
    ∃ array', (rows.map Row.spell).foldl State.step state =
        { state with pending := some array' } ∧
      Collects array' (found ++ required (rows.flatMap Row.elements)) ∧
      array'.depth = array.depth := by
  induction rows generalizing state array found with
  | nil =>
      refine ⟨array, ?_, by simpa [required] using collects, rfl⟩
      rw [← pending]
      rfl
  | cons row rows ih =>
      obtain ⟨here, later⟩ := List.forall_mem_cons.mp wellFormed
      have quiet : ∀ comment ∈ row.comment?, comment.Silent :=
        fun comment member => silent comment
          (List.mem_filterMap.mpr ⟨row, List.mem_cons_self, member⟩)
      have quietToo : ∀ comment ∈ rows.filterMap Row.comment?,
          comment.Silent := by
        intro comment member
        obtain ⟨other, within, equal⟩ := List.mem_filterMap.mp member
        exact silent comment (List.mem_filterMap.mpr
          ⟨other, List.mem_cons_of_mem row within, equal⟩)
      obtain ⟨next, step, collected, depth⟩ :=
        @exists_continue state _ _ _ _ _ collects (gives_row here quiet)
          (by omega)
      obtain ⟨last, run, all, same⟩ :=
        @ih { state with pending := some next } next _ rfl collected (by omega)
          later quietToo
      refine ⟨last, ?_, ?_, by omega⟩
      · rw [List.map_cons, List.foldl_cons, step_of_pending pending, step, run]
      · simpa [required] using all

theorem closing_lacks (wellFormed : layout.WellFormed) {mark : Char}
    (isMark : mark ∈ ['#', '\n']) : mark ∉ layout.closing := by
  have each : ∀ mark ∈ ['#', '\n'], mark ≠ ']' ∧
      (mark = '\n' ∨ isBlank mark = false) := by decide
  obtain ⟨other, shape⟩ := each mark isMark
  have tail : mark ∉ layout.tail := by
    rcases shape with rfl | solid
    · exact wellFormed.tail.inLine
    · exact wellFormed.tail.not_mem solid
  simp [Layout.closing, other, tail]

theorem gives_last (wellFormed : layout.WellFormed)
    (tokensToo : ∀ token ∈ tokens, token.WellFormed) :
    Gives (tokens.flatMap Token.spell ++ layout.closing)
      (required (tokens.filterMap Token.element?)) (-1) := by
  have whole := (gives_tokens tokensToo).append
    (gives_closing.append (gives_gap wellFormed.tail))
  simpa [Layout.closing] using whole

theorem step_first (wellFormed : layout.WellFormed)
    (project : state.table = .project) (idle : state.pending = none)
    (inLine : layout.more = none) :
    state.step (layout.opening (layout.first.flatMap Token.spell ++
      layout.closing)) = state.add (required layout.elements) := by
  have value := (gives_opening.append
    (gives_last wellFormed wellFormed.first)).trim
  have plain {mark : Char} (isMark : mark ∈ ['#', '\n']) :
      mark ∉ layout.first.flatMap Token.spell ++ layout.closing :=
    List.not_mem_append (tokens_lack isMark wellFormed.first)
      (closing_lacks wellFormed isMark)
  have closed : ¬0 < bracketBalance (trim ('[' ::
      (layout.first.flatMap Token.spell ++ layout.closing))) := by
    have balance := value.balance
    rw [List.singleton_append] at balance
    rw [balance]
    decide
  rw [step_opening wellFormed project idle (plain (by decide))
    (plain (by decide)), State.startArray, if_neg closed]
  have reads := value.reads
  rw [List.singleton_append, List.nil_append] at reads
  rw [reads]
  simp [Layout.elements, inLine]

/-- An array that goes on is collected from its first line on. -/
theorem exists_step_first (wellFormed : layout.WellFormed)
    (project : state.table = .project) (idle : state.pending = none) :
    ∃ array, state.step (layout.opening (layout.first.flatMap Token.spell)) =
        { state with pending := some array } ∧
      Collects array (required (layout.first.filterMap Token.element?)) ∧
      array.depth = 1 := by
  have value := (gives_opening.append (gives_tokens wellFormed.first)).trim
  have fed := value.append gives_feed
  have balance := value.balance
  rw [List.singleton_append, Int.add_zero] at balance
  rw [List.singleton_append, List.append_nil, List.nil_append] at fed
  refine ⟨⟨"compile", trim ('[' :: layout.first.flatMap Token.spell) ++ ['\n'],
    1⟩, ?_, ⟨rfl, fed⟩, rfl⟩
  rw [step_opening wellFormed project idle
    (tokens_lack (by decide) wellFormed.first)
    (tokens_lack (by decide) wellFormed.first), State.startArray, balance]
  rfl

/-- An array adds the requirements that its elements state. -/
theorem foldl_lines_layout (wellFormed : layout.WellFormed)
    (project : state.table = .project) (idle : state.pending = none)
    (silent : ∀ comment ∈ layout.comments, comment.Silent) :
    layout.lines.foldl State.step state =
      state.add (required layout.elements) := by
  cases shape : layout.more with
  | none =>
      rw [Layout.lines, shape]
      exact step_first wellFormed project idle shape
  | some more =>
      obtain ⟨rows, last⟩ := more
      have quiet : ∀ comment ∈ rows.filterMap Row.comment?,
          comment.Silent := by
        simpa [Layout.comments, shape] using silent
      have tokens : ∀ token ∈ last, token.WellFormed :=
        wellFormed.last _ shape
      obtain ⟨array, start, collected, depth⟩ :=
        exists_step_first wellFormed project idle
      obtain ⟨next, run, all, same⟩ :=
        @foldl_rows { state with pending := some array } _ _ _ rfl collected
          (by omega) (wellFormed.rows _ shape) quiet
      have note : '#' ∉ last.flatMap Token.spell ++ layout.closing :=
        List.not_mem_append (tokens_lack (by decide) tokens)
          (closing_lacks wellFormed (by decide))
      have ends := @continue_eq_add { state with pending := some next } _ _ _ _
        _ all (gives_last wellFormed tokens).trim (by omega)
      rw [Layout.lines, shape, List.foldl_cons, start, List.foldl_append, run,
        List.foldl_cons, List.foldl_nil, step_of_pending rfl,
        Requirement.withoutComment_eq_trim note, ends]
      have idle' : { state with pending := none } = state := by
        rw [← idle]
      simp [idle', Layout.elements, shape, required]

end Layouts

end ArchSurvey.Manifest.TableFile
