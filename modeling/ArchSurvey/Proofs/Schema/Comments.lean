import ArchSurvey.Proofs.Schema.Nesting
import ArchSurvey.Schema.Reader
import Mathlib.Data.List.TakeWhile

/-!
# Comments of scripts

Block comments are taken out of a script first and line comments then, each by
a search that knows neither of the other nor of strings.  A lexer reads both
kinds of comments and strings in one pass.  The two leave the same text where
no string opens a comment and no line comment opens a block comment that ends
behind it.
-/

namespace ArchSurvey.Schema

/-- Where a lexer stands in a text. -/
inductive Mode where
  /-- Outside strings and comments. -/
  | code
  /-- Inside a string. -/
  | quoted
  /-- Inside a line comment. -/
  | line
  /-- Inside a block comment. -/
  | block
  deriving DecidableEq, Repr

/-- The text starts with a block comment that is closed in it. -/
def opensBlock : List Char → Bool
  | '/' :: '*' :: rest => (afterBlock? rest).isSome
  | _ => false

/-- The text starts with a line comment. -/
def opensLine : List Char → Bool
  | '-' :: '-' :: _ => true
  | _ => false

/-- The text without comments, as a lexer reads it.  A block comment leaves a
blank, a line comment the end of its line; what opens a block comment that is
never closed is part of the text. -/
def uncommented : Mode → List Char → List Char
  | _, [] => []
  | .code, '/' :: '*' :: rest =>
      if (afterBlock? rest).isSome then ' ' :: uncommented .block rest
      else '/' :: uncommented .code ('*' :: rest)
  | .code, '-' :: '-' :: rest => uncommented .line rest
  | .code, c :: rest =>
      c :: uncommented (if c = '\'' then .quoted else .code) rest
  | .quoted, c :: rest =>
      c :: uncommented (if c = '\'' then .code else .quoted) rest
  | .line, c :: rest =>
      if c = '\n' then c :: uncommented .code rest else uncommented .line rest
  | .block, '*' :: '/' :: rest => uncommented .code rest
  | .block, _ :: rest => uncommented .block rest

/-- No string opens a comment, and a block comment that is opened in a line
comment is closed in it or never. -/
def untangled : Mode → List Char → Bool
  | _, [] => true
  | .code, '/' :: '*' :: rest =>
      if (afterBlock? rest).isSome then untangled .block rest
      else untangled .code ('*' :: rest)
  | .code, '-' :: '-' :: rest => untangled .line rest
  | .code, c :: rest => untangled (if c = '\'' then .quoted else .code) rest
  | .quoted, c :: rest =>
      !opensBlock (c :: rest) && !opensLine (c :: rest) &&
        untangled (if c = '\'' then .code else .quoted) rest
  | .line, c :: rest =>
      (!opensBlock (c :: rest) ||
          opensBlock ((c :: rest).takeWhile (· != '\n'))) &&
        untangled (if c = '\n' then .code else .line) rest
  | .block, '*' :: '/' :: rest => untangled .code rest
  | .block, _ :: rest => untangled .block rest

section Blocks

variable {text rest after : List Char} {c : Char}

theorem exists_of_opensBlock (opened : opensBlock text = true) :
    ∃ rest after, text = '/' :: '*' :: rest ∧
      afterBlock? rest = some after := by
  rw [opensBlock.eq_def] at opened
  split at opened
  · rename_i rest
    obtain ⟨after, ended⟩ := Option.isSome_iff_exists.mp opened
    exact ⟨rest, after, rfl, ended⟩
  · cases opened

/-- A text is read from block comment to block comment, and by characters
between them. -/
@[elab_as_elim]
theorem blocksInduction {motive : List Char → Prop} (nil : motive [])
    (block : ∀ rest after, afterBlock? rest = some after → motive after →
      motive ('/' :: '*' :: rest))
    (cons : ∀ c rest, opensBlock (c :: rest) = false → motive rest →
      motive (c :: rest)) (text : List Char) : motive text :=
  match text with
  | [] => nil
  | c :: rest =>
      if opened : opensBlock (c :: rest) = true then by
        obtain ⟨inner, after, equal, ended⟩ := exists_of_opensBlock opened
        have shorter := length_lt_of_afterBlock? ended
        have length := congrArg List.length equal
        rw [equal]
        exact block inner after ended
          (blocksInduction nil block cons after)
      else cons c rest (Bool.eq_false_iff.mpr opened)
        (blocksInduction nil block cons rest)
termination_by text.length
decreasing_by
  · simp only [List.length_cons] at length ⊢
    omega
  · simp

theorem withoutBlocks_block (ended : afterBlock? rest = some after) :
    withoutBlocks ('/' :: '*' :: rest) = ' ' :: withoutBlocks after := by
  rw [withoutBlocks]
  split
  · rename_i found same
    rw [ended, Option.some.injEq] at same
    rw [same]
  · rename_i none
    rw [ended] at none
    cases none

theorem withoutBlocks_cons (unopened : opensBlock (c :: rest) = false) :
    withoutBlocks (c :: rest) = c :: withoutBlocks rest := by
  by_cases shape : ∃ tail, c = '/' ∧ rest = '*' :: tail
  · obtain ⟨tail, rfl, rfl⟩ := shape
    rw [opensBlock, Option.isSome_eq_false_iff,
      Option.isNone_iff_eq_none] at unopened
    rw [withoutBlocks]
    split
    · rename_i found same
      rw [unopened] at same
      cases same
    · rfl
  · rw [withoutBlocks]
    rintro tail rfl rfl
    exact shape ⟨tail, rfl, rfl⟩

theorem uncommented_block (ended : afterBlock? text = some after) :
    uncommented .block text = uncommented .code after := by
  fun_induction afterBlock? text with
  | case1 rest =>
      obtain rfl := Option.some.inj ended
      rw [uncommented]
  | case2 c rest other ih =>
      rw [uncommented, ih ended]
      simpa using other
  | case3 => cases ended

theorem untangled_block (ended : afterBlock? text = some after) :
    untangled .block text = untangled .code after := by
  fun_induction afterBlock? text with
  | case1 rest =>
      obtain rfl := Option.some.inj ended
      rw [untangled]
  | case2 c rest other ih =>
      rw [untangled, ih ended]
      simpa using other
  | case3 => cases ended

end Blocks

section Lines

variable {text rest after : List Char} {c d : Char}

@[simp] theorem opensLine_cons_cons :
    opensLine (c :: d :: rest) = (c == '-' && d == '-') := by
  rw [opensLine.eq_def]
  split
  · rename_i shape
    simp only [List.cons.injEq] at shape
    simp [shape]
  · rename_i other
    by_cases dash : c = '-' <;> simp_all

theorem withoutLines_cons (unopened : opensLine (c :: rest) = false) :
    withoutLines false (c :: rest) = c :: withoutLines false rest := by
  rw [withoutLines]
  · simp
  · rintro tail rfl rfl
    cases unopened

theorem exists_of_opensLine (opened : opensLine (c :: rest) = true) :
    ∃ tail, c = '-' ∧ rest = '-' :: tail := by
  cases rest with
  | nil => simp [opensLine] at opened
  | cons d tail =>
      rw [opensLine_cons_cons, Bool.and_eq_true, beq_iff_eq,
        beq_iff_eq] at opened
      exact ⟨tail, opened.1, by rw [opened.2]⟩

theorem opensLine_blank (rest : List Char) :
    opensLine (' ' :: rest) = false := by
  cases rest <;> simp [opensLine]

theorem withoutLines_newline :
    withoutLines true ('\n' :: rest) = '\n' :: withoutLines false rest := by
  rw [withoutLines]
  · simp
  · simp

/-- Inside a line comment all characters of the line are passed over. -/
theorem withoutLines_inside (same : c ≠ '\n') :
    withoutLines true (c :: rest) = withoutLines true rest := by
  induction rest generalizing c with
  | nil => simp [withoutLines, same]
  | cons d rest ih =>
      by_cases dashes : c = '-' ∧ d = '-'
      · obtain ⟨rfl, rfl⟩ := dashes
        rw [withoutLines, ih (by decide)]
      · rw [withoutLines]
        · simp [same]
        · rintro tail rfl equal
          exact dashes ⟨rfl, (List.cons.inj equal).1⟩

/-- Block comments do not hide the opening of a line comment. -/
theorem opensLine_withoutBlocks (rest : List Char) :
    opensLine (c :: withoutBlocks rest) = opensLine (c :: rest) := by
  induction rest using blocksInduction with
  | nil => rw [withoutBlocks]
  | block rest after ended _ => rw [withoutBlocks_block ended]; simp
  | cons d rest unopened _ => rw [withoutBlocks_cons unopened]; simp

theorem exists_of_afterBlock? (ended : afterBlock? text = some after) :
    ∃ inner, text = inner ++ '*' :: '/' :: after := by
  fun_induction afterBlock? text with
  | case1 rest =>
      obtain rfl := Option.some.inj ended
      exact ⟨[], rfl⟩
  | case2 c rest _ ih =>
      obtain ⟨inner, rfl⟩ := ih ended
      exact ⟨c :: inner, rfl⟩
  | case3 => cases ended

theorem afterBlock?_append (ended : afterBlock? text = some after) :
    afterBlock? (text ++ rest) = some (after ++ rest) := by
  fun_induction afterBlock? text with
  | case1 tail =>
      obtain rfl := Option.some.inj ended
      rfl
  | case2 c tail other ih =>
      have later := ih ended
      cases tail with
      | nil => cases ended
      | cons d tail =>
          rw [List.cons_append, List.cons_append, afterBlock?]
          · exact later
          · rintro rest rfl equal
            obtain ⟨rfl, -⟩ := List.cons.inj equal
            exact other tail rfl rfl
  | case3 => cases ended

/-- What a line comment holds is passed over. -/
theorem line_append (inside : ∀ c ∈ text, c ≠ '\n') :
    uncommented .line (text ++ rest) = uncommented .line rest ∧
      (untangled .line (text ++ rest) = true →
        untangled .line rest = true) := by
  induction text with
  | nil => exact ⟨rfl, id⟩
  | cons c text ih =>
      obtain ⟨here, later⟩ := List.forall_mem_cons.mp inside
      obtain ⟨read, clean⟩ := ih later
      constructor
      · rw [List.cons_append, uncommented, if_neg here, read]
      · intro whole
        rw [List.cons_append, untangled, if_neg here, Bool.and_eq_true] at whole
        exact clean whole.2

theorem code_cons (unopened : opensBlock (c :: rest) = false)
    (unlined : opensLine (c :: rest) = false) :
    uncommented .code (c :: rest) =
        c :: uncommented (if c = '\'' then .quoted else .code) rest ∧
      untangled .code (c :: rest) =
        untangled (if c = '\'' then .quoted else .code) rest := by
  by_cases shape : ∃ tail, c = '/' ∧ rest = '*' :: tail
  · obtain ⟨tail, rfl, rfl⟩ := shape
    rw [opensBlock] at unopened
    rw [uncommented, untangled, unopened]
    simp
  · have noBlock : ∀ tail, c = '/' → rest = '*' :: tail → False :=
      fun tail slash star => shape ⟨tail, slash, star⟩
    have noLine : ∀ tail, c = '-' → rest = '-' :: tail → False := by
      rintro tail rfl rfl
      cases unlined
    constructor
    · rw [uncommented] <;> assumption
    · rw [untangled] <;> assumption

end Lines

section Agreement

variable {text rest after : List Char}

/-- A block comment that is closed in a line comment is passed over with it. -/
theorem exists_line_of_block (ended : afterBlock? rest = some after)
    (within : opensBlock (('/' :: '*' :: rest).takeWhile (· != '\n')) = true) :
    ∃ inside, '/' :: '*' :: rest = inside ++ after ∧
      ∀ c ∈ inside, c ≠ '\n' := by
  have shape : ('/' :: '*' :: rest).takeWhile (· != '\n') =
      '/' :: '*' :: rest.takeWhile (· != '\n') := by
    simp
  rw [shape, opensBlock, Option.isSome_iff_exists] at within
  obtain ⟨tail, closed⟩ := within
  obtain ⟨inner, front⟩ := exists_of_afterBlock? closed
  have split : rest = inner ++ '*' :: '/' :: tail ++
      rest.dropWhile (· != '\n') := by
    rw [← front, List.takeWhile_append_dropWhile]
  have same : after = tail ++ rest.dropWhile (· != '\n') := by
    have whole : afterBlock? (rest.takeWhile (· != '\n') ++
        rest.dropWhile (· != '\n')) =
          some (tail ++ rest.dropWhile (· != '\n')) :=
      afterBlock?_append closed
    rw [List.takeWhile_append_dropWhile, ended, Option.some.injEq] at whole
    exact whole
  refine ⟨'/' :: '*' :: (inner ++ ['*', '/']), ?_, fun c member => ?_⟩
  · rw [same]
    conv_lhs => rw [split]
    simp
  · have early : c ∈ ('/' :: '*' :: rest).takeWhile (· != '\n') := by
      rw [shape, front]
      simp only [List.mem_cons, List.mem_append, List.not_mem_nil,
        or_false] at member ⊢
      tauto
    simpa using List.mem_takeWhile_imp early

/-- Without its comments, an untangled text is what a lexer leaves of it. -/
theorem withoutLines_withoutBlocks (text : List Char) {mode : Mode}
    (outside : mode ≠ .block) (clean : untangled mode text = true) :
    withoutLines (mode == .line) (withoutBlocks text) =
      uncommented mode text := by
  induction text using blocksInduction generalizing mode with
  | nil => cases mode <;> simp [withoutBlocks, withoutLines, uncommented]
  | block rest after ended ih =>
      have opened : opensBlock ('/' :: '*' :: rest) = true := by
        rw [opensBlock, ended]
        rfl
      rw [withoutBlocks_block ended]
      cases mode with
      | code =>
          rw [untangled, ended, Option.isSome_some, if_pos rfl,
            untangled_block ended] at clean
          rw [uncommented, ended, Option.isSome_some, if_pos rfl,
            uncommented_block ended, ← ih (by decide) clean]
          exact withoutLines_cons (opensLine_blank _)
      | quoted =>
          rw [untangled, opened] at clean
          cases clean
      | line =>
          have within := clean
          rw [untangled, opened, Bool.and_eq_true] at within
          obtain ⟨inside, split, single⟩ := exists_line_of_block ended within.1
          have both : uncommented .line (inside ++ after) =
                uncommented .line after ∧
              (untangled .line (inside ++ after) = true →
                untangled .line after = true) := line_append single
          rw [← split] at both
          obtain ⟨read, later⟩ := both
          rw [read, ← ih (by decide) (later clean)]
          exact withoutLines_inside (by decide)
      | block => exact absurd rfl outside
  | cons c rest unopened ih =>
      rw [withoutBlocks_cons unopened]
      cases mode with
      | code =>
          cases lined : opensLine (c :: rest) with
          | true =>
              obtain ⟨tail, rfl, rfl⟩ := exists_of_opensLine lined
              have single : opensBlock ('-' :: tail) = false := rfl
              rw [untangled] at clean
              have inside : untangled .line ('-' :: tail) = true := by
                simpa [untangled, single] using clean
              have read : uncommented .line ('-' :: tail) =
                  uncommented .line tail := by
                rw [uncommented, if_neg (by decide)]
              have later := ih (by decide) inside
              rw [withoutBlocks_cons single] at later ⊢
              rw [uncommented, ← read, ← later]
              exact (withoutLines_inside (by decide)).symm
          | false =>
              obtain ⟨read, passed⟩ := code_cons unopened lined
              have turned : (if c = '\'' then Mode.quoted else .code) ≠ .block ∧
                  ((if c = '\'' then Mode.quoted else .code) == .line) =
                    false := by
                split <;> decide
              have later := ih turned.1 (passed ▸ clean)
              rw [turned.2] at later
              rw [read, ← later]
              refine withoutLines_cons ?_
              rw [opensLine_withoutBlocks, lined]
      | quoted =>
          rw [untangled, unopened, Bool.and_eq_true, Bool.and_eq_true] at clean
          obtain ⟨⟨-, unlined⟩, clean⟩ := clean
          have turned : (if c = '\'' then Mode.code else .quoted) ≠ .block ∧
              ((if c = '\'' then Mode.code else .quoted) == .line) = false := by
            split <;> decide
          have later := ih turned.1 clean
          rw [turned.2] at later
          rw [uncommented, ← later]
          refine withoutLines_cons ?_
          rw [opensLine_withoutBlocks]
          simpa using unlined
      | line =>
          rw [untangled, Bool.and_eq_true] at clean
          by_cases last : c = '\n'
          · subst last
            have later : untangled .code rest = true := by simpa using clean.2
            rw [uncommented, ← ih (by decide) later]
            exact withoutLines_newline
          · rw [uncommented, if_neg last,
              ← ih (by decide) (by simpa [last] using clean.2)]
            exact withoutLines_inside last
      | block => exact absurd rfl outside

end Agreement

section Again

variable {text rest tail : List Char} {c d : Char}

theorem newline_of_withoutLines (starts : withoutLines true text = d :: tail) :
    d = '\n' := by
  induction text with
  | nil => cases starts
  | cons c text ih =>
      by_cases last : c = '\n'
      · rw [last, withoutLines_newline] at starts
        exact (List.cons.inj starts).1.symm
      · exact ih ((withoutLines_inside last).symm.trans starts)

/-- What is left starts as it did, or with the end of a line. -/
theorem exists_of_withoutLines (starts : withoutLines false text = d :: tail)
    (inside : d ≠ '\n') :
    ∃ rest, text = d :: rest ∧ tail = withoutLines false rest := by
  cases text with
  | nil => cases starts
  | cons c rest =>
      cases lined : opensLine (c :: rest) with
      | true =>
          obtain ⟨behind, rfl, rfl⟩ := exists_of_opensLine lined
          exact absurd (newline_of_withoutLines starts) inside
      | false =>
          rw [withoutLines_cons lined] at starts
          obtain ⟨rfl, rfl⟩ := List.cons.inj starts
          exact ⟨rest, rfl, rfl⟩

/-- Nothing opens a line comment where line comments have been taken out. -/
theorem noLine_withoutLines (inComment : Bool) (text : List Char) :
    ¬['-', '-'] <:+: withoutLines inComment text := by
  fun_induction withoutLines inComment text with
  | case1 => simp
  | case2 inComment rest ih => exact ih
  | case3 c rest _ newline ih =>
      obtain rfl := beq_iff_eq.mp newline
      rw [List.infix_cons_iff]
      rintro (⟨behind, same⟩ | later)
      · cases (List.cons.inj same).1
      · exact ih later
  | case4 c rest _ _ ih => exact ih
  | case5 inComment c rest unlined _ ih =>
      rw [List.infix_cons_iff]
      rintro (⟨behind, same⟩ | later)
      · obtain ⟨rfl, follows⟩ := List.cons.inj same
        obtain ⟨others, rfl, -⟩ :=
          exists_of_withoutLines follows.symm (by decide)
        exact unlined others rfl rfl
      · exact ih later

theorem isSome_afterBlock?_iff :
    (afterBlock? text).isSome = true ↔ ['*', '/'] <:+: text := by
  constructor
  · intro ended
    obtain ⟨after, ended⟩ := Option.isSome_iff_exists.mp ended
    obtain ⟨inner, rfl⟩ := exists_of_afterBlock? ended
    exact ⟨inner, after, by simp⟩
  · intro within
    fun_induction afterBlock? text with
    | case1 rest => rfl
    | case2 c rest other ih =>
        rw [List.infix_cons_iff] at within
        rcases within with ⟨behind, same⟩ | later
        · obtain ⟨rfl, rfl⟩ := List.cons.inj same
          exact absurd rfl (other behind rfl)
        · exact ih later
    | case3 => simp at within

/-- The end of a block comment is not made by taking out line comments. -/
theorem infix_of_withoutLines {inComment : Bool}
    (within : ['*', '/'] <:+: withoutLines inComment text) :
    ['*', '/'] <:+: text := by
  fun_induction withoutLines inComment text with
  | case1 => exact within
  | case2 inComment rest ih => exact List.infix_cons (List.infix_cons (ih within))
  | case3 c rest _ newline ih =>
      obtain rfl := beq_iff_eq.mp newline
      rw [List.infix_cons_iff] at within
      rcases within with ⟨behind, same⟩ | later
      · cases (List.cons.inj same).1
      · exact List.infix_cons (ih later)
  | case4 c rest _ _ ih => exact List.infix_cons (ih within)
  | case5 inComment c rest _ _ ih =>
      rw [List.infix_cons_iff] at within
      rcases within with ⟨behind, same⟩ | later
      · obtain ⟨rfl, follows⟩ := List.cons.inj same
        obtain ⟨others, rfl, -⟩ :=
          exists_of_withoutLines follows.symm (by decide)
        exact ⟨[], others, rfl⟩
      · exact List.infix_cons (ih later)

theorem withoutBlocks_of_unclosed (unclosed : ¬['*', '/'] <:+: text) :
    withoutBlocks text = text := by
  induction text using blocksInduction with
  | nil => rw [withoutBlocks]
  | block rest after ended _ =>
      have closed : ['*', '/'] <:+: rest := by
        rw [← isSome_afterBlock?_iff, ended]
        rfl
      exact absurd (List.infix_cons (List.infix_cons closed)) unclosed
  | cons c rest unopened ih =>
      rw [withoutBlocks_cons unopened, ih fun later => unclosed (List.infix_cons later)]

/-- What is left starts as it did, or with the blank for a comment. -/
theorem exists_of_withoutBlocks (starts : withoutBlocks text = d :: tail)
    (solid : d ≠ ' ') :
    ∃ rest, text = d :: rest ∧ tail = withoutBlocks rest := by
  induction text using blocksInduction with
  | nil =>
      rw [withoutBlocks] at starts
      cases starts
  | block rest after ended _ =>
      rw [withoutBlocks_block ended] at starts
      exact absurd (List.cons.inj starts).1.symm solid
  | cons c rest unopened _ =>
      rw [withoutBlocks_cons unopened] at starts
      obtain ⟨rfl, rfl⟩ := List.cons.inj starts
      exact ⟨rest, rfl, rfl⟩

theorem opensBlock_iff : opensBlock text = true ↔
    ∃ rest, text = '/' :: '*' :: rest ∧ ['*', '/'] <:+: rest := by
  constructor
  · intro opened
    obtain ⟨rest, after, rfl, ended⟩ := exists_of_opensBlock opened
    exact ⟨rest, rfl, isSome_afterBlock?_iff.mp (by rw [ended]; rfl)⟩
  · rintro ⟨rest, rfl, closed⟩
    exact isSome_afterBlock?_iff.mpr closed

theorem withoutBlocks_withoutBlocks (text : List Char) :
    withoutBlocks (withoutBlocks text) = withoutBlocks text := by
  induction text using blocksInduction with
  | nil => rw [withoutBlocks, withoutBlocks]
  | block rest after ended ih =>
      rw [withoutBlocks_block ended, withoutBlocks_cons rfl, ih]
  | cons c rest unopened ih =>
      rw [withoutBlocks_cons unopened, withoutBlocks_cons, ih]
      rw [Bool.eq_false_iff, Ne, opensBlock_iff] at unopened ⊢
      rintro ⟨inner, same, closed⟩
      obtain ⟨rfl, follows⟩ := List.cons.inj same
      obtain ⟨others, rfl, rfl⟩ := exists_of_withoutBlocks follows (by decide)
      have unclosed : ¬['*', '/'] <:+: others := fun closed =>
        unopened ⟨others, rfl, closed⟩
      rw [withoutBlocks_of_unclosed unclosed] at closed
      exact unclosed closed

theorem of_withoutBlocks_eq_self (clean : withoutBlocks (c :: rest) = c :: rest) :
    opensBlock (c :: rest) = false ∧ withoutBlocks rest = rest := by
  cases opened : opensBlock (c :: rest) with
  | true =>
      obtain ⟨inner, after, same, ended⟩ := exists_of_opensBlock opened
      rw [same, withoutBlocks_block ended] at clean
      cases (List.cons.inj clean).1
  | false =>
      rw [withoutBlocks_cons opened] at clean
      exact ⟨rfl, (List.cons.inj clean).2⟩

/-- Taking out line comments makes no block comment. -/
theorem withoutBlocks_withoutLines {inComment : Bool}
    (clean : withoutBlocks text = text) :
    withoutBlocks (withoutLines inComment text) =
      withoutLines inComment text := by
  fun_induction withoutLines inComment text with
  | case1 => exact clean
  | case2 inComment rest ih =>
      exact ih (of_withoutBlocks_eq_self (of_withoutBlocks_eq_self clean).2).2
  | case3 c rest _ newline ih =>
      obtain rfl := beq_iff_eq.mp newline
      rw [withoutBlocks_cons rfl, ih (of_withoutBlocks_eq_self clean).2]
  | case4 c rest _ _ ih => exact ih (of_withoutBlocks_eq_self clean).2
  | case5 inComment c rest _ _ ih =>
      obtain ⟨unopened, clean⟩ := of_withoutBlocks_eq_self clean
      rw [withoutBlocks_cons, ih clean]
      rw [Bool.eq_false_iff, Ne, opensBlock_iff] at unopened ⊢
      rintro ⟨inner, same, closed⟩
      obtain ⟨rfl, follows⟩ := List.cons.inj same
      obtain ⟨others, rfl, rfl⟩ := exists_of_withoutLines follows (by decide)
      exact unopened ⟨others, rfl, infix_of_withoutLines closed⟩

/-- Comments are taken out once more to no effect. -/
theorem withoutComments_withoutComments (text : List Char) :
    withoutComments (withoutComments text) = withoutComments text := by
  have blocks : withoutBlocks (withoutComments text) = withoutComments text :=
    withoutBlocks_withoutLines (withoutBlocks_withoutBlocks text)
  rw [withoutComments, blocks]
  exact withoutLines_eq_self (noLine_withoutLines false _)

end Again

section Scripts

variable {text : List Char}

/-- The statements of a text that has no comments. -/
def readUncommented (text : List Char) : Except SchemaError (List Statement) := do
  let statements ← (splitOutside ';' text).mapM readStatement
  return statements.flatten

/-- An untangled script is read as what a lexer leaves of it, be it searched
for comments again or not. -/
theorem readScript_uncommented (clean : untangled .code text = true) :
    withoutComments text = uncommented .code text ∧
      readScript text = readUncommented (uncommented .code text) ∧
      readScript text = readScript (uncommented .code text) := by
  have same : withoutComments text = uncommented .code text :=
    withoutLines_withoutBlocks text (by decide) clean
  refine ⟨same, ?_, ?_⟩
  · rw [readScript, readUncommented, same]
  · rw [readScript, readScript, ← same, withoutComments_withoutComments]

/-- A script with a semicolon in a string, an apostrophe and a block in a line
comment, and dashes in a block. -/
def notedRemoval : List Char :=
  "INSERT INTO a VALUES ('b; c'); -- it's /* all */\n".toList ++
    "DROP /* -- or b */ TABLE a;".toList

theorem readScript_uncommented_notedRemoval :
    untangled .code notedRemoval = true ∧
      readScript notedRemoval = readScript
        "INSERT INTO a VALUES ('b; c'); \nDROP   TABLE a;".toList := by
  have clean : untangled .code notedRemoval = true := by decide
  have left : uncommented .code notedRemoval =
      "INSERT INTO a VALUES ('b; c'); \nDROP   TABLE a;".toList := by decide
  exact ⟨clean, left ▸ (readScript_uncommented clean).2.2⟩

/-- A script with a block comment, and the opening of one in a line comment
before it. -/
def hiddenOrders : List Char :=
  "-- see docs/*.md\nCREATE TABLE orders (id INT);\n/* end */\n".toList

/-- A script need not be read as what a lexer leaves of it: the comments hide
the table between them. -/
theorem not_readScript_uncommented :
    ¬∀ text, readScript text = readScript (uncommented .code text) := by
  intro all
  have claimed := all hiddenOrders
  have left : uncommented .code hiddenOrders =
      "\nCREATE TABLE orders (id INT);\n \n".toList := by decide
  have clean : withoutComments
      "\nCREATE TABLE orders (id INT);\n \n".toList =
        "\nCREATE TABLE orders (id INT);\n \n".toList := by cbv
  have hidden : withoutComments hiddenOrders = "\n".toList := by cbv
  rw [left, readScript, readScript, hidden, clean] at claimed
  revert claimed
  decide

end Scripts

end ArchSurvey.Schema
