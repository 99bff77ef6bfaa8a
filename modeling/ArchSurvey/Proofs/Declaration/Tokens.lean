import ArchSurvey.Declaration.Reader

/-!
# Sources as tokens

A source with well-formed comments, strings and character literals is a list of
tokens: characters of code, comments and literals.  The reader, which goes from
character to character, reads such a source token by token
(`readSource_spell`).
-/

namespace ArchSurvey.Declaration

/-- A character of code, a comment without its marks, or a literal without its
quotes. -/
inductive Token where
  | code (c : Char)
  | line (text : List Char)
  | block (text : List Char)
  | literal (quote : Char) (text : List Char)
  deriving DecidableEq, Repr

namespace Token

/-- The text of a token. -/
def text : Token → List Char
  | code c => [c]
  | line text => '/' :: '/' :: text
  | block text => '/' :: '*' :: (text ++ ['*', '/'])
  | literal quote text => quote :: (text ++ [quote])

def isComment : Token → Bool
  | line _ => true
  | block _ => true
  | _ => false

end Token

/-- The text of a list of tokens. -/
def spell (tokens : List Token) : List Char :=
  tokens.flatMap Token.text

/-- Whether a text has the end of a block comment. -/
def endsBlock : List Char → Bool
  | '*' :: '/' :: _ => true
  | _ :: rest => endsBlock rest
  | [] => false

/-- Whether a text may stand between the quotes of a literal: it has no such
quote but behind a backslash, and a character behind each backslash. -/
def isEnclosed (quote : Char) : List Char → Bool
  | '\\' :: _ :: rest => isEnclosed quote rest
  | ['\\'] => false
  | c :: rest => c != quote && isEnclosed quote rest
  | [] => true

/-- Whether some tokens are the ones that their text has: no code begins a
comment or a literal, and comments and literals end where they do. -/
def wellFormed : List Token → Bool
  | [] => true
  | .code c :: rest =>
      c != '"' && c != '\'' &&
        !(c == '/' && ((spell rest).head? == some '/' ||
          (spell rest).head? == some '*')) &&
        wellFormed rest
  | .line text :: rest =>
      !text.contains '\n' &&
        (rest.head?.isNone || rest.head? == some (.code '\n')) &&
        wellFormed rest
  | .block text :: rest => !endsBlock text && wellFormed rest
  | .literal quote text :: rest =>
      (quote == '"' || quote == '\'') && isEnclosed quote text &&
        wellFormed rest

namespace State

/-- Adds a character of a literal to the piece being read. -/
def quote (state : State) (c : Char) : State :=
  (state.countLine c).push c

/-- Reads a token. -/
def read (state : State) : Token → State
  | .code c => state.step c
  | .line _ => state
  | .block text => text.foldl countLine state
  | .literal mark text => (text.foldl quote (state.push mark)).push mark

end State

section Reading

variable (state : State)

theorem readFrom_end {place : Place}
    (outside : ∀ quote, place ≠ .literal quote) :
    readFrom place state [] = state := by
  rw [readFrom]
  exact outside

/-- A line comment is passed over up to the end of its line. -/
theorem readFrom_line {text : List Char} (single : '\n' ∉ text)
    {rest : List Char} (ends : rest = [] ∨ rest.head? = some '\n') :
    readFrom .lineComment state (text ++ rest) =
      readFrom .code state rest := by
  induction text with
  | nil =>
      cases rest with
      | nil =>
          rw [List.nil_append, readFrom_end _ (by simp),
            readFrom_end _ (by simp)]
      | cons c rest =>
          obtain rfl : c = '\n' := by simpa using ends
          rw [List.nil_append, readFrom, readFrom]
          · rfl
          · simp
          · simp
  | cons c text ih =>
      have here : c ≠ '\n' := fun same =>
        single (same ▸ List.mem_cons_self)
      rw [List.cons_append, readFrom, if_neg (by simpa using here)]
      exact ih fun member => single (List.mem_cons_of_mem c member)

/-- Of a block comment only the lines are counted. -/
theorem readFrom_block {text : List Char} (inner : endsBlock text = false)
    (rest : List Char) :
    readFrom .blockComment state (text ++ '*' :: '/' :: rest) =
      readFrom .code (text.foldl State.countLine state) rest := by
  fun_induction endsBlock text generalizing state with
  | case1 => cases inner
  | case2 c tail other ih =>
      rw [List.cons_append, readFrom, ih _ inner, List.foldl_cons]
      rintro after rfl follows
      cases tail with
      | nil => cases follows
      | cons d tail =>
          obtain ⟨rfl, -⟩ := List.cons.inj follows
          exact other tail rfl rfl
  | case3 => rw [List.nil_append, readFrom, List.foldl_nil]

/-- A literal is taken over as it is. -/
theorem readFrom_literal {quote : Char} {text : List Char}
    (enclosed : isEnclosed quote text = true) (different : quote ≠ '\\')
    (rest : List Char) :
    readFrom (.literal quote) state (text ++ quote :: rest) =
      readFrom .code ((text.foldl State.quote state).push quote) rest := by
  fun_induction isEnclosed quote text generalizing state with
  | case1 c tail ih =>
      rw [List.cons_append, List.cons_append, readFrom, ih _ enclosed]
      rfl
  | case2 => cases enclosed
  | case3 c tail noEscape noLone ih =>
      obtain ⟨plain, later⟩ : c ≠ quote ∧ isEnclosed quote tail = true := by
        simpa using enclosed
      rw [List.cons_append, readFrom, if_neg (by simpa using plain),
        ih _ later, List.foldl_cons]
      · rfl
      · rintro d after rfl follows
        cases tail with
        | nil => exact noLone rfl rfl
        | cons e tail => exact noEscape e tail rfl rfl
  | case4 =>
      rw [List.nil_append, readFrom, if_pos (by simp), List.foldl_nil]
      rintro d after rfl
      exact absurd rfl different

theorem readFrom_code {c : Char} (noString : c ≠ '"') (noLetter : c ≠ '\'')
    {rest : List Char}
    (noComment : c = '/' → rest.head? ≠ some '/' ∧ rest.head? ≠ some '*') :
    readFrom .code state (c :: rest) = readFrom .code (state.step c) rest := by
  rw [readFrom, if_neg (by simp [noString, noLetter])]
  · rintro tail slash rfl
    exact (noComment slash).1 rfl
  · rintro tail slash rfl
    exact (noComment slash).2 rfl

/-- A source is read token by token. -/
theorem readFrom_spell {tokens : List Token}
    (well : wellFormed tokens = true) :
    readFrom .code state (spell tokens) = tokens.foldl State.read state := by
  induction tokens generalizing state with
  | nil => exact readFrom_end state (by simp)
  | cons token tokens ih =>
      rw [spell, List.flatMap_cons, ← spell, List.foldl_cons]
      cases token with
      | code c =>
          simp only [wellFormed, Bool.and_eq_true, bne_iff_ne, Bool.not_eq_true',
            Bool.and_eq_false_imp, Bool.or_eq_false_iff, beq_iff_eq,
            beq_eq_false_iff_ne] at well
          obtain ⟨⟨⟨noString, noLetter⟩, noComment⟩, later⟩ := well
          rw [Token.text, List.singleton_append,
            readFrom_code state noString noLetter noComment, ih _ later]
          rfl
      | line text =>
          obtain ⟨⟨single, ends⟩, later⟩ : ('\n' ∉ text ∧
              (tokens = [] ∨ tokens.head? = some (.code '\n'))) ∧
                wellFormed tokens = true := by
            simpa [wellFormed] using well
          have stops : spell tokens = [] ∨ (spell tokens).head? = some '\n' := by
            rcases ends with rfl | first
            · exact .inl rfl
            · obtain ⟨rest, rfl⟩ := List.head?_eq_some_iff.mp first
              exact .inr rfl
          have shape : (Token.line text).text ++ spell tokens =
              '/' :: '/' :: (text ++ spell tokens) := rfl
          rw [shape, readFrom, readFrom_line state single stops, ih _ later]
          rfl
      | block text =>
          simp only [wellFormed, Bool.and_eq_true, Bool.not_eq_true'] at well
          have shape : (Token.block text).text ++ spell tokens =
              '/' :: '*' :: (text ++ '*' :: '/' :: spell tokens) := by
            simp [Token.text]
          rw [shape, readFrom, readFrom_block state well.1, ih _ well.2]
          rfl
      | literal quote text =>
          simp only [wellFormed, Bool.and_eq_true, Bool.or_eq_true,
            beq_iff_eq] at well
          obtain ⟨⟨marked, enclosed⟩, later⟩ := well
          have shape : (Token.literal quote text).text ++ spell tokens =
              quote :: (text ++ quote :: spell tokens) := by
            simp [Token.text]
          have different : quote ≠ '\\' := by
            rcases marked with rfl | rfl <;> decide
          rw [shape, readFrom, if_pos (by simpa using marked),
            readFrom_literal _ enclosed different, ih _ later]
          · rfl
          · rcases marked with rfl | rfl <;> simp
          · rcases marked with rfl | rfl <;> simp

/-- The declarations of a source are those found after its tokens. -/
theorem readSource_spell {tokens : List Token}
    (well : wellFormed tokens = true) :
    readSource (spell tokens) = (tokens.foldl State.read {}).found.reverse := by
  rw [readSource, readFrom_spell {} well]

end Reading

end ArchSurvey.Declaration
