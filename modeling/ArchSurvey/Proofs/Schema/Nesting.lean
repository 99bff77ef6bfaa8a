import ArchSurvey.Proofs.Schema.Notation
import ArchSurvey.Proofs.Text.Blank
import ArchSurvey.Proofs.Text.Split
import Mathlib.Algebra.Group.Nat.Even

/-!
# Nested text

A segment of a script closes the parentheses and quotes it opens and opens no
comment.  Splitting passes over the characters of a segment that stand inside,
the search for a closing parenthesis passes over all of it, and a segment has
no comments to take out.  A balanced text may close parentheses before it
opens them; a separator behind it is outside all the same.
-/

namespace ArchSurvey.Schema

open Text

/-- A text with its parentheses and quotes closed and no opening of a comment;
the characters outside satisfy the property. -/
inductive Segment : (Char → Prop) → List Char → Prop where
  | nil {outside : Char → Prop} : Segment outside []
  | plain {outside : Char → Prop} {c : Char} {rest : List Char} :
      outside c → c ∉ ['\'', '(', ')', '-', '/'] → Segment outside rest →
      Segment outside (c :: rest)
  | minus {outside : Char → Prop} {c : Char} {rest : List Char} :
      outside '-' → c ≠ '-' → Segment outside (c :: rest) →
      Segment outside ('-' :: c :: rest)
  | quoted {outside : Char → Prop} {content rest : List Char} :
      '\'' ∉ content → ¬['/', '*'] <:+: content → ¬['-', '-'] <:+: content →
      Segment outside rest →
      Segment outside ('\'' :: content ++ '\'' :: rest)
  | nested {outside : Char → Prop} {inner rest : List Char} :
      Segment (fun _ => True) inner → Segment outside rest →
      Segment outside ('(' :: inner ++ ')' :: rest)

namespace Segment

variable {outside : Char → Prop} {before text after : List Char}

theorem mono {weaker : Char → Prop} (implies : ∀ c, outside c → weaker c)
    (segment : Segment outside text) : Segment weaker text := by
  induction segment with
  | nil => exact .nil
  | plain passes unmarked _ ih =>
      exact .plain (implies _ passes) unmarked (ih implies)
  | minus passes different _ ih =>
      exact .minus (implies _ passes) different (ih implies)
  | quoted noQuote noBlock noLine _ ih =>
      exact .quoted noQuote noBlock noLine (ih implies)
  | nested inner _ _ ih => exact .nested inner (ih implies)

theorem append (one : Segment outside before) (two : Segment outside after) :
    Segment outside (before ++ after) := by
  induction one with
  | nil => exact two
  | plain passes unmarked _ ih => exact .plain passes unmarked (ih two)
  | minus passes different _ ih => exact .minus passes different (ih two)
  | quoted noQuote noBlock noLine _ ih =>
      rw [List.append_assoc, List.cons_append]
      exact .quoted noQuote noBlock noLine (ih two)
  | nested inner _ _ ih =>
      rw [List.append_assoc, List.cons_append]
      exact .nested inner (ih two)

theorem ofPlain (passes : ∀ c ∈ text, outside c)
    (unmarked : ∀ c ∈ text, c ∉ ['\'', '(', ')', '-', '/']) :
    Segment outside text := by
  induction text with
  | nil => exact .nil
  | cons c text ih =>
      exact .plain (passes c List.mem_cons_self)
        (unmarked c List.mem_cons_self)
        (ih (fun d member => passes d (List.mem_cons_of_mem c member))
          fun d member => unmarked d (List.mem_cons_of_mem c member))

theorem parenthesized {anywhere : Char → Prop}
    (inner : Segment anywhere text) : Segment outside ('(' :: text ++ [')']) :=
  .nested (inner.mono fun _ _ => trivial) .nil

end Segment

section Splitting

variable {separator : Char}

theorem piecesFrom_quoted {content : List Char} (noQuote : '\'' ∉ content)
    (depth : Int) (piece rest : List Char) :
    piecesFrom separator ⟨depth, true⟩ piece (content ++ rest) =
      piecesFrom separator ⟨depth, true⟩ (content.reverse ++ piece) rest := by
  induction content generalizing piece with
  | nil => rfl
  | cons c content ih =>
      have different : c ≠ '\'' := fun equal =>
        noQuote (equal ▸ List.mem_cons_self)
      have later := ih (fun member => noQuote (List.mem_cons_of_mem c member))
        (c :: piece)
      rw [List.cons_append, piecesFrom]
      simp [Nesting.isOutside, Nesting.step, different, later]

/-- Splitting passes over a segment whose outside, if it is outside at all,
does not have the separator. -/
theorem piecesFrom_segment {outside : Char → Prop} {text : List Char}
    (segment : Segment outside text)
    (plain : separator ∉ ['\'', '(', ')']) {depth : Int} (deep : 0 ≤ depth)
    (avoids : depth = 0 → ∀ c, outside c → c ≠ separator)
    (piece rest : List Char) :
    piecesFrom separator ⟨depth, false⟩ piece (text ++ rest) =
      piecesFrom separator ⟨depth, false⟩ (text.reverse ++ piece) rest := by
  simp only [List.mem_cons, List.not_mem_nil, or_false, not_or] at plain
  obtain ⟨noQuote, noOpen, noClose⟩ := plain
  have passes {outside : Char → Prop} {c : Char} {depth : Int}
      (avoids : depth = 0 → ∀ c, outside c → c ≠ separator)
      (here : outside c) :
      (c == separator && Nesting.isOutside ⟨depth, false⟩) = false := by
    by_cases zero : depth = 0
    · simp [avoids zero c here]
    · simp [Nesting.isOutside, zero]
  induction segment generalizing depth piece rest with
  | nil => rfl
  | @plain outside c tail here unmarked _ ih =>
      simp only [List.mem_cons, List.not_mem_nil, or_false, not_or]
        at unmarked
      obtain ⟨notQuote, notOpen, notClose, -, -⟩ := unmarked
      have later := ih deep avoids (c :: piece) rest
      rw [List.cons_append, piecesFrom, passes avoids here]
      simp [Nesting.step, notQuote, notOpen, notClose, later]
  | @minus outside c tail here _ _ ih =>
      have later := ih deep avoids ('-' :: piece) rest
      rw [List.cons_append, piecesFrom, passes avoids here]
      simpa [Nesting.step] using later
  | @quoted outside content tail clean _ _ _ ih =>
      have later :=
        ih deep avoids ('\'' :: (content.reverse ++ '\'' :: piece)) rest
      have opening : ('\'' == separator) = false := by
        simpa using Ne.symm noQuote
      rw [List.append_assoc, List.cons_append, List.cons_append, piecesFrom]
      simp only [opening, Bool.false_and, Bool.false_eq_true, if_false,
        Nesting.step, beq_self_eq_true, if_true, Bool.not_false]
      rw [piecesFrom_quoted clean, piecesFrom]
      simp [opening, Nesting.step, later]
  | @nested outside inner tail _ _ inner_ih ih =>
      -- Within the parentheses nothing is outside, a separator included.
      have within := @inner_ih (depth + 1) (by omega)
        (fun zero => by omega) ('(' :: piece) (')' :: (tail ++ rest))
      have later := ih deep avoids (')' :: (inner.reverse ++ '(' :: piece)) rest
      have opening : ('(' == separator) = false := by simpa using Ne.symm noOpen
      have closing : (')' == separator) = false := by
        simpa using Ne.symm noClose
      rw [List.append_assoc, List.cons_append, List.cons_append, piecesFrom]
      simp only [opening, Bool.false_and, Bool.false_eq_true, if_false,
        Nesting.step]
      simp [within, piecesFrom, closing, Nesting.step, later]

theorem piecesFrom_outside {outside : Char → Prop} {text : List Char}
    (segment : Segment outside text) (plain : separator ∉ ['\'', '(', ')'])
    (avoids : ∀ c, outside c → c ≠ separator) (piece rest : List Char) :
    piecesFrom separator {} piece (text ++ separator :: rest) =
      (piece.reverse ++ text) :: piecesFrom separator {} [] rest := by
  rw [piecesFrom_segment segment plain (Int.le_refl 0) fun _ => avoids, piecesFrom]
  simp [Nesting.isOutside]

theorem piecesFrom_last {outside : Char → Prop} {text : List Char}
    (segment : Segment outside text) (plain : separator ∉ ['\'', '(', ')'])
    (avoids : ∀ c, outside c → c ≠ separator) (piece : List Char) :
    piecesFrom separator {} piece text = [piece.reverse ++ text] := by
  have whole := piecesFrom_segment segment plain (Int.le_refl 0)
    (fun _ => avoids) piece []
  rw [List.append_nil] at whole
  rw [whole, piecesFrom]
  simp

/-- Joined segments fall apart again. -/
theorem piecesFrom_joinWith (plain : separator ∉ ['\'', '(', ')'])
    {pieces : List (List Char)}
    (each : ∀ piece ∈ pieces, Segment (· ≠ separator) piece)
    (rest : List Char) :
    piecesFrom separator {} [] (joinWith [separator] (pieces ++ [rest])) =
      pieces ++ piecesFrom separator {} [] rest := by
  induction pieces with
  | nil => rw [List.nil_append, joinWith_singleton]; rfl
  | cons piece pieces ih =>
      have here := each piece List.mem_cons_self
      have later := ih fun other member =>
        each other (List.mem_cons_of_mem piece member)
      rw [List.cons_append, joinWith_cons (by simp), List.append_assoc,
        List.singleton_append,
        piecesFrom_outside here plain (fun c passes => passes), later]
      rfl

theorem piecesFrom_joinWith_self (plain : separator ∉ ['\'', '(', ')'])
    {pieces : List (List Char)} (filled : pieces ≠ [])
    (each : ∀ piece ∈ pieces, Segment (· ≠ separator) piece) :
    piecesFrom separator {} [] (joinWith [separator] pieces) = pieces := by
  obtain ⟨before, last, rfl⟩ :=
    List.eq_nil_or_concat pieces |>.resolve_left filled
  rw [List.concat_eq_append] at each ⊢
  rw [piecesFrom_joinWith plain fun piece member => each piece (by simp [member]),
    piecesFrom_last (each last (by simp)) plain fun c passes => passes]
  simp

/-- A text of separated items is split into the texts of the items. -/
theorem splitOutside_separated {α : Type} {spelled : α → List Char → Prop}
    (plain : separator ∉ ['\'', '(', ')'])
    (segment : ∀ item text, spelled item text → Segment (· ≠ separator) text)
    (solid : ∀ item text, spelled item text → isAllBlank text = false)
    {items : List α} {text : List Char}
    (separated : Separated separator spelled items text) :
    List.Forall₂ spelled items (splitOutside separator text) := by
  induction separated with
  | @one item text here =>
      rw [splitOutside,
        piecesFrom_last (segment item text here) plain (fun c passes => passes)]
      simpa [solid item text here] using here
  | @more item items text rest here _ ih =>
      rw [splitOutside,
        piecesFrom_outside (segment item text here) plain
          (fun c passes => passes)]
      rw [splitOutside] at ih
      simpa [solid item text here] using And.intro here ih

end Splitting

section Joining

variable {separator : Char} {nesting : Nesting} {before : List Char}

/-- The characters that stand outside single-quoted strings; `quoted` says
whether the text starts inside one. -/
def outsideQuotes (quoted : Bool) : List Char → List Char
  | [] => []
  | c :: rest =>
      if c = '\'' then outsideQuotes (!quoted) rest
      else if quoted then outsideQuotes quoted rest
      else c :: outsideQuotes quoted rest

/-- A text that ends outside its strings, with as many closing as opening
parentheses outside them. -/
structure Balanced (text : List Char) : Prop where
  quotes : Even (text.count '\'')
  parentheses : (outsideQuotes false text).count '(' =
    (outsideQuotes false text).count ')'

/-- Where a text ends, by the quotes and the parentheses in it. -/
theorem foldl_nesting (text : List Char) (depth : Int) (quoted : Bool) :
    text.foldl Nesting.step ⟨depth, quoted⟩ =
      ⟨depth + (outsideQuotes quoted text).count '(' -
          (outsideQuotes quoted text).count ')',
        if Even (text.count '\'') then quoted else !quoted⟩ := by
  induction text generalizing depth quoted with
  | nil => simp [outsideQuotes]
  | cons c rest ih =>
      rw [List.foldl_cons, outsideQuotes]
      by_cases quote : c = '\''
      · subst quote
        have turned : Nesting.step ⟨depth, quoted⟩ '\'' =
            ⟨depth, !quoted⟩ := rfl
        rw [turned, ih, if_pos rfl]
        by_cases even : Even (rest.count '\'') <;>
          simp [even, Nat.even_add_one]
      · rw [if_neg quote, List.count_cons_of_ne quote]
        -- A parenthesis counts only where no string is open.
        cases quoted with
        | true =>
            have stays : Nesting.step ⟨depth, true⟩ c = ⟨depth, true⟩ := by
              simp [Nesting.step, quote]
            rw [stays, ih]
            rfl
        | false =>
            have counted : Nesting.step ⟨depth, false⟩ c =
                ⟨depth + [c].count '(' - [c].count ')', false⟩ := by
              by_cases opening : c = '('
              · subst opening
                simp [Nesting.step]
              · by_cases closing : c = ')'
                · subst closing
                  simp [Nesting.step]
                · simp [Nesting.step, quote, opening, closing]
            rw [counted, ih]
            simp only [Bool.false_eq_true, if_false, Nesting.mk.injEq,
              and_true, List.count_cons, List.count_nil]
            omega

theorem Balanced.foldl_eq (balanced : Balanced before) :
    before.foldl Nesting.step {} = {} := by
  rw [foldl_nesting, if_pos balanced.quotes, balanced.parentheses]
  simp

/-- Where splitting is back outside at a separator, the text is split there,
and the rest of it as if nothing stood before it. -/
theorem piecesFrom_append (plain : separator ∉ ['\'', '(', ')'])
    (back : before.foldl Nesting.step nesting = {}) (piece after : List Char) :
    piecesFrom separator nesting piece (before ++ separator :: after) =
      piecesFrom separator nesting piece before ++
        piecesFrom separator {} [] after := by
  induction before generalizing nesting piece with
  | nil =>
      obtain rfl : nesting = {} := back
      simp [piecesFrom, Nesting.isOutside]
  | cons c before ih =>
      rw [List.cons_append, piecesFrom, piecesFrom]
      split
      · rename_i splits
        obtain ⟨rfl, outside⟩ : c = separator ∧ nesting.isOutside = true := by
          simpa using splits
        have stays : nesting.step c = nesting := by
          simp only [List.mem_cons, List.not_mem_nil, or_false,
            not_or] at plain
          simp [Nesting.step, plain]
        rw [List.foldl_cons, stays] at back
        obtain rfl : nesting = {} := by
          obtain ⟨depth, quoted⟩ := nesting
          simpa [Nesting.isOutside] using outside
        rw [ih back, List.cons_append]
      · exact ih back _

theorem splitOutside_append (plain : separator ∉ ['\'', '(', ')'])
    (balanced : Balanced before) (after : List Char) :
    splitOutside separator (before ++ separator :: after) =
      splitOutside separator before ++ splitOutside separator after := by
  rw [splitOutside, piecesFrom_append plain balanced.foldl_eq,
    List.filter_append]
  rfl

end Joining

section Closing

theorem untilClose_quoted {content : List Char} (noQuote : '\'' ∉ content)
    (depth : Int) (rest : List Char) :
    untilClose ⟨depth, true⟩ (content ++ rest) =
      (untilClose ⟨depth, true⟩ rest).map (content ++ ·) := by
  induction content with
  | nil => simp
  | cons c content ih =>
      have different : c ≠ '\'' := fun equal =>
        noQuote (equal ▸ List.mem_cons_self)
      have later := ih fun member => noQuote (List.mem_cons_of_mem c member)
      rw [List.cons_append, untilClose]
      simp [Nesting.step, different, later, Function.comp_def]

theorem untilClose_segment {outside : Char → Prop} {text : List Char}
    (segment : Segment outside text) {depth : Int} (deep : 0 < depth)
    (rest : List Char) :
    untilClose ⟨depth, false⟩ (text ++ rest) =
      (untilClose ⟨depth, false⟩ rest).map (text ++ ·) := by
  induction segment generalizing depth rest with
  | nil => simp
  | @plain outside c tail _ unmarked _ ih =>
      simp only [List.mem_cons, List.not_mem_nil, or_false, not_or]
        at unmarked
      obtain ⟨notQuote, notOpen, notClose, -, -⟩ := unmarked
      rw [List.cons_append, untilClose]
      simp [Nesting.step, notQuote, notOpen, notClose, ih deep,
        Function.comp_def]
  | @minus outside c tail _ _ _ ih =>
      have later := ih deep rest
      rw [List.cons_append] at later
      rw [List.cons_append, List.cons_append, untilClose]
      simp [Nesting.step, later, Function.comp_def]
  | @quoted outside content tail clean _ _ _ ih =>
      rw [List.append_assoc, List.cons_append, List.cons_append, untilClose]
      simp only [Nesting.step, beq_self_eq_true, if_true, Bool.not_false]
      rw [untilClose_quoted clean, untilClose]
      simp [Nesting.step, ih deep, Function.comp_def]
  | @nested outside inner tail _ _ inner_ih ih =>
      have within := @inner_ih (depth + 1) (by omega)
        (')' :: (tail ++ rest))
      have open_ : depth ≠ 0 := by omega
      rw [List.append_assoc, List.cons_append, List.cons_append, untilClose]
      simp [Nesting.step, within, untilClose, ih deep, open_,
        Function.comp_def]

/-- What stands in parentheses is read up to the one that closes them. -/
theorem insideParentheses_segment {outside : Char → Prop} {text : List Char}
    (segment : Segment outside text) (rest : List Char) :
    insideParentheses (text ++ ')' :: rest) = some text := by
  rw [insideParentheses, untilClose_segment segment (by decide), untilClose]
  simp [Nesting.step]

end Closing

section Comments

theorem Segment.noComment {outside : Char → Prop} {text : List Char}
    (segment : Segment outside text) :
    ¬['/', '*'] <:+: text ∧ ¬['-', '-'] <:+: text := by
  have single {first second c : Char} {rest : List Char}
      (different : c ≠ first) (later : ¬[first, second] <:+: rest) :
      ¬[first, second] <:+: c :: rest := by
    rw [List.infix_cons_iff]
    rintro (⟨tail, starts⟩ | within)
    · exact different (List.cons.inj starts).1.symm
    · exact later within
  induction segment with
  | nil => simp
  | @plain outside c rest _ unmarked _ ih =>
      simp only [List.mem_cons, List.not_mem_nil, or_false, not_or]
        at unmarked
      exact ⟨single unmarked.2.2.2.2 ih.1, single unmarked.2.2.2.1 ih.2⟩
  | @minus outside c rest _ different _ ih =>
      refine ⟨single (by decide) ih.1, ?_⟩
      rw [List.infix_cons_iff]
      rintro (⟨tail, starts⟩ | within)
      · simp only [List.cons_append, List.nil_append, List.cons.injEq]
          at starts
        exact different starts.2.1.symm
      · exact ih.2 within
  | quoted _ noBlock noLine _ ih =>
      refine ⟨single (by decide) ?_, single (by decide) ?_⟩
      · simp [infix_append_cons_iff, noBlock, ih.1]
      · simp [infix_append_cons_iff, noLine, ih.2]
  | nested _ _ inner_ih ih =>
      refine ⟨single (by decide) ?_, single (by decide) ?_⟩
      · simp [infix_append_cons_iff, inner_ih.1, ih.1]
      · simp [infix_append_cons_iff, inner_ih.2, ih.2]

theorem withoutBlocks_eq_self {text : List Char}
    (clean : ¬['/', '*'] <:+: text) : withoutBlocks text = text := by
  induction text with
  | nil => rw [withoutBlocks]
  | cons c rest ih =>
      rw [List.infix_cons_iff, not_or] at clean
      rw [withoutBlocks, ih clean.2]
      rintro tail rfl rfl
      exact clean.1 ⟨tail, rfl⟩

theorem withoutLines_eq_self {text : List Char}
    (clean : ¬['-', '-'] <:+: text) : withoutLines false text = text := by
  induction text with
  | nil => rfl
  | cons c rest ih =>
      rw [List.infix_cons_iff, not_or] at clean
      rw [withoutLines, ih clean.2]
      · simp
      · rintro tail rfl rfl
        exact clean.1 ⟨tail, rfl⟩

theorem withoutComments_of_clean {text : List Char}
    (noBlock : ¬['/', '*'] <:+: text) (noLine : ¬['-', '-'] <:+: text) :
    withoutComments text = text := by
  rw [withoutComments, withoutBlocks_eq_self noBlock,
    withoutLines_eq_self noLine]

theorem Segment.withoutComments_eq_self {outside : Char → Prop}
    {text : List Char} (segment : Segment outside text) :
    withoutComments text = text :=
  withoutComments_of_clean segment.noComment.1 segment.noComment.2

end Comments

end ArchSurvey.Schema
