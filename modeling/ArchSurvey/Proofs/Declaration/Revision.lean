import ArchSurvey.Proofs.Declaration.Tokens
import ArchSurvey.Proofs.Declaration.Value

/-!
# Revised comments and literals

Comments never reach a declaration, and neither do the literals in the bodies
of methods, unless the reader takes such a body for a part of an annotation.
Two sources that differ in comments, and in literals that stand in a block or in
an initial value, have the same declarations but for their lines
(`readSource_revision`): the states of the reader agree after each token.
-/

namespace ArchSurvey.Declaration

open Text

/-- Whether a token may be put in place of another one: comments may have any
text, and so may literals that are free. -/
def Token.revises (free : Bool) : Token → Token → Bool
  | line _, line _ => true
  | block _, block _ => true
  | literal quote text, literal other revised =>
      quote == other && (free || text == revised)
  | token, other => token == other

/-- Whether tokens are revised in their comments, and in the literals that what
was read before leaves free. -/
def isRevision {σ : Type} (read : σ → Token → σ) (free : σ → Bool) (state : σ) :
    List Token → List Token → Bool
  | [], [] => true
  | token :: tokens, other :: others =>
      token.revises (free state) other &&
        isRevision read free (read state token) tokens others
  | _, _ => false

/-- A declaration without its line. -/
def Declared.unlined (declared : Declared) : Declared :=
  { declared with line := 0 }

/-- Whether a literal cannot reach a declaration: it stands in a block, which is
passed over, or in the initial value of a field. -/
def State.isSheltered (state : State) : Bool :=
  state.scopes.head? == some .block || hasValue state.piece.reverse

/-- Whatever follows them, two pieces of source declare the same. -/
def Interchangeable (piece other : List Char) : Prop :=
  ∀ tail enclosing, declaredBy (trim (piece ++ tail)) enclosing 0 =
    declaredBy (trim (other ++ tail)) enclosing 0

/-- Two states of the reader that have the same declarations but for their
lines, and will have. -/
structure Agrees (state other : State) : Prop where
  scopes : state.scopes = other.scopes
  depth : state.depth = other.depth
  found : state.found.map Declared.unlined = other.found.map Declared.unlined
  piece : state.scopes.head? = some .block ∨
    Interchangeable state.piece.reverse other.piece.reverse

section Pieces

variable {piece other last : List Char}

theorem Interchangeable.refl (piece : List Char) :
    Interchangeable piece piece := fun _ _ => rfl

theorem Interchangeable.trans (one : Interchangeable piece other)
    (two : Interchangeable other last) : Interchangeable piece last :=
  fun tail enclosing => (one tail enclosing).trans (two tail enclosing)

theorem Interchangeable.append (same : Interchangeable piece other)
    (text : List Char) : Interchangeable (piece ++ text) (other ++ text) := by
  intro tail enclosing
  rw [List.append_assoc, List.append_assoc]
  exact same (text ++ tail) enclosing

/-- Behind an equals sign anything may stand. -/
theorem interchangeable_of_hasValue (value : hasValue piece = true)
    (text revised : List Char) :
    Interchangeable (piece ++ text) (piece ++ revised) := by
  intro tail enclosing
  rw [List.append_assoc, List.append_assoc]
  exact declaredBy_value value enclosing 0 _ _

theorem map_unlined_declaredBy (text : List Char) (enclosing : Option String)
    (line : Nat) : (declaredBy text enclosing line).map Declared.unlined =
      declaredBy text enclosing 0 := by
  rw [declaredBy, declaredBy]
  split
  · rfl
  · rw [Option.map_map]
    rfl

end Pieces

namespace State

/-- A state without its lines. -/
def unlined (state : State) : State :=
  { state with
    line := 0
    pieceLine := 0
    found := state.found.map Declared.unlined }

@[simp] theorem unlined_countLine (state : State) (c : Char) :
    (state.countLine c).unlined = state.unlined := by
  rw [countLine]
  split <;> rfl

@[simp] theorem unlined_markLine (state : State) (c : Char) :
    (state.markLine c).unlined = state.unlined := by
  rw [markLine]
  split <;> rfl

theorem unlined_eq_iff {state other : State} :
    state.unlined = other.unlined ↔ state.scopes = other.scopes ∧
      state.piece = other.piece ∧ state.depth = other.depth ∧
        state.found.map Declared.unlined = other.found.map Declared.unlined := by
  simp [unlined]

theorem unlined_quote (state : State) (c : Char) :
    (state.quote c).unlined = (state.push c).unlined :=
  congrArg (push · c) (unlined_countLine state c)

theorem unlined_foldl_quote (text : List Char) (state : State) :
    (text.foldl quote state).unlined =
      { state with piece := text.reverse ++ state.piece }.unlined := by
  induction text generalizing state with
  | nil => rfl
  | cons c text ih =>
      obtain ⟨scopes, piece, depth, found⟩ :=
        unlined_eq_iff.mp (unlined_quote state c)
      rw [List.foldl_cons, ih, unlined_eq_iff]
      refine ⟨scopes, ?_, depth, found⟩
      simp [piece, push]

/-- A literal becomes a part of the piece being read. -/
theorem unlined_literal (state : State) (mark : Char) (text : List Char) :
    (state.read (.literal mark text)).unlined =
      { state with
        piece := (mark :: (text ++ [mark])).reverse ++ state.piece }.unlined := by
  obtain ⟨scopes, piece, depth, found⟩ :=
    unlined_eq_iff.mp (unlined_foldl_quote text (state.push mark))
  have last : (state.read (.literal mark text)).piece =
      mark :: (text.foldl quote (state.push mark)).piece := rfl
  refine unlined_eq_iff.mpr ⟨scopes, ?_, depth, found⟩
  rw [last, piece]
  simp [push]

/-- Of a block comment the lines are counted. -/
theorem unlined_block (state : State) (text : List Char) :
    (state.read (.block text)).unlined = state.unlined := by
  rw [read]
  induction text generalizing state with
  | nil => rfl
  | cons c text ih => rw [List.foldl_cons, ih, unlined_countLine]

theorem scopeOf_unlined (declared : Option Declared) :
    scopeOf (declared.map Declared.unlined) = scopeOf declared := by
  cases declared with
  | none => rfl
  | some declared =>
      obtain ⟨annotations, modifiers, member, enclosing, line⟩ := declared
      cases member <;> rfl

end State

namespace Agrees

variable {state other : State}

/-- The lines of the states are of no account. -/
theorem of_unlined {next nextToo : State} (agrees : Agrees state other)
    (one : next.unlined = state.unlined)
    (two : nextToo.unlined = other.unlined) : Agrees next nextToo := by
  obtain ⟨scopes, piece, depth, found⟩ := State.unlined_eq_iff.mp one
  obtain ⟨scopesToo, pieceToo, depthToo, foundToo⟩ :=
    State.unlined_eq_iff.mp two
  refine ⟨by rw [scopes, scopesToo, agrees.scopes],
    by rw [depth, depthToo, agrees.depth],
    by rw [found, foundToo, agrees.found], ?_⟩
  rw [scopes, piece, pieceToo]
  exact agrees.piece

theorem push (agrees : Agrees state other) (c : Char) :
    Agrees (state.push c) (other.push c) where
  scopes := agrees.scopes
  depth := agrees.depth
  found := agrees.found
  piece := by
    rcases agrees.piece with block | same
    · exact .inl block
    · refine .inr ?_
      simpa [State.push] using same.append [c]

theorem withDepth (agrees : Agrees state other) (depth : Int) :
    Agrees { state with depth } { other with depth } :=
  ⟨agrees.scopes, rfl, agrees.found, agrees.piece⟩

/-- The same declaration is found at the end of a piece. -/
theorem finish_fst (agrees : Agrees state other) :
    state.finish.1.map Declared.unlined =
      other.finish.1.map Declared.unlined := by
  have scopes := agrees.scopes
  rcases agrees.piece with block | same
  · obtain ⟨outer, here⟩ := List.head?_eq_some_iff.mp block
    rw [here] at scopes
    simp [State.finish, here, ← scopes]
  · have declares := fun enclosing => same [] enclosing
    simp only [List.append_nil] at declares
    simp only [State.finish, ← scopes]
    cases state.scopes with
    | nil => simp only [map_unlined_declaredBy, declares]
    | cons scope outer =>
        cases scope with
        | type name => simp only [map_unlined_declaredBy, declares]
        | block => rfl

theorem finish_snd (agrees : Agrees state other) :
    Agrees state.finish.2 other.finish.2 where
  scopes := agrees.scopes
  depth := rfl
  found := by
    have same := agrees.finish_fst
    have lists : state.finish.1.toList.map Declared.unlined =
        other.finish.1.toList.map Declared.unlined := by
      cases one : state.finish.1 <;> cases two : other.finish.1 <;> simp_all
    have step : ∀ state : State,
        state.finish.2.found = state.finish.1.toList ++ state.found :=
      fun _ => rfl
    rw [step, step, List.map_append, List.map_append, lists, agrees.found]
  piece := .inr (.refl [])

theorem openBrace (agrees : Agrees state other) :
    Agrees state.openBrace other.openBrace where
  scopes := by
    have opened :
        State.scopeOf state.finish.1 = State.scopeOf other.finish.1 := by
      rw [← State.scopeOf_unlined, agrees.finish_fst, State.scopeOf_unlined]
    exact congrArg₂ List.cons opened agrees.scopes
  depth := rfl
  found := agrees.finish_snd.found
  piece := .inr (.refl [])

theorem closeBrace (agrees : Agrees state other) :
    Agrees state.closeBrace other.closeBrace where
  scopes := congrArg (List.drop 1) agrees.scopes
  depth := agrees.depth
  found := agrees.found
  piece := .inr (.refl [])

theorem step (agrees : Agrees state other) (c : Char) :
    Agrees (state.step c) (other.step c) := by
  have lines : Agrees ((state.countLine c).markLine c)
      ((other.countLine c).markLine c) := agrees.of_unlined (by simp) (by simp)
  simp only [State.step, ← lines.depth]
  split
  · exact (lines.push c).withDepth _
  · split
    · exact (lines.push c).withDepth _
    · split
      · exact lines.push c
      · split
        · exact lines.openBrace
        · split
          · exact lines.finish_snd
          · split
            · exact lines.closeBrace
            · exact lines.push c

/-- A literal that is sheltered may have any text. -/
theorem literal (agrees : Agrees state other) {mark : Char}
    {text revised : List Char}
    (free : state.isSheltered = true ∨ text = revised) :
    Agrees (state.read (.literal mark text))
      (other.read (.literal mark revised)) := by
  refine of_unlined ?_ (State.unlined_literal ..) (State.unlined_literal ..)
  refine ⟨agrees.scopes, agrees.depth, agrees.found, ?_⟩
  rcases agrees.piece with block | same
  · exact .inl block
  · have later := same.append (mark :: (revised ++ [mark]))
    simp only [List.reverse_append, List.reverse_reverse]
    rcases free with sheltered | rfl
    · rw [State.isSheltered, Bool.or_eq_true, beq_iff_eq] at sheltered
      rcases sheltered with block | value
      · exact .inl block
      · have here := interchangeable_of_hasValue value
          (mark :: (text ++ [mark])) (mark :: (revised ++ [mark]))
        exact .inr (here.trans later)
    · exact .inr later

/-- A token read in both sources, revised in one of them. -/
theorem read (agrees : Agrees state other) {token revised : Token}
    (revises : token.revises state.isSheltered revised = true) :
    Agrees (state.read token) (other.read revised) := by
  cases token with
  | code c =>
      obtain rfl : .code c = revised := by
        rw [Token.revises.eq_def] at revises
        simpa using revises
      exact agrees.step c
  | line text =>
      cases revised with
      | line => exact agrees
      | code => cases revises
      | block => cases revises
      | literal => cases revises
  | block text =>
      cases revised with
      | block revised =>
          exact agrees.of_unlined (State.unlined_block state text)
            (State.unlined_block other revised)
      | code => cases revises
      | line => cases revises
      | literal => cases revises
  | literal mark text =>
      cases revised with
      | literal other revised =>
          obtain ⟨rfl, free⟩ : mark = other ∧
              (state.isSheltered = true ∨ text = revised) := by
            simpa [Token.revises] using revises
          exact agrees.literal free
      | code => cases revises
      | line => cases revises
      | block => cases revises

/-- Two sources are read to states that agree. -/
theorem foldl_read {tokens others : List Token} (agrees : Agrees state other)
    (revised : isRevision State.read State.isSheltered state tokens others =
      true) :
    Agrees (tokens.foldl State.read state) (others.foldl State.read other) := by
  induction tokens generalizing state other others with
  | nil =>
      cases others with
      | nil => exact agrees
      | cons => cases revised
  | cons token tokens ih =>
      cases others with
      | nil => cases revised
      | cons first others =>
          obtain ⟨here, later⟩ := Bool.and_eq_true_iff.mp revised
          rw [List.foldl_cons, List.foldl_cons]
          exact ih (agrees.read here) later

end Agrees

/-- A class with a comment and a field, in whose initial value a method has a
literal in its body. -/
def fieldSource (note : List Token) (comment text : String) : List Token :=
  "class A \x7b".toList.map .code ++ note ++ [.block comment.toList] ++
    " F f = g(new X() \x7b void m() \x7b h(".toList.map .code ++
      [.literal '"' text.toList] ++ "); \x7d \x7d); \x7d".toList.map .code

/-- Revised in comments, and in literals that stand in a block or in an initial
value, a source has the same declarations in the same order. -/
theorem readSource_revision {tokens others : List Token}
    (well : wellFormed tokens = true) (wellToo : wellFormed others = true)
    (revised : isRevision State.read State.isSheltered {} tokens others = true) :
    (readSource (spell tokens)).map Declared.unlined =
      (readSource (spell others)).map Declared.unlined := by
  have start : Agrees {} {} := ⟨rfl, rfl, rfl, .inr (.refl [])⟩
  -- Reading the two token by token keeps the states in agreement.
  have agrees := start.foldl_read revised
  rw [readSource_spell well, readSource_spell wellToo, List.map_reverse,
    List.map_reverse, agrees.found]

/-- Neither a brace in a comment nor the text of a declaration in a literal
makes a difference. -/
theorem readSource_revision_field :
    (readSource (spell (fieldSource [] " a " "x"))).map Declared.unlined =
      (readSource (spell (fieldSource [] "\n\x7b" ") int y ="))).map
        Declared.unlined :=
  readSource_revision (by decide) (by decide) (by decide +kernel)

/-- What is known of the bodies around a place in a source: for each open brace,
in parentheses or not, whether it belongs to a method, and the text since the
last brace or semicolon, last character first. -/
structure Surroundings where
  bodies : List Bool := []
  header : List Char := []

/-- Whether a text declares a method. -/
def isMethodHeader (text : List Char) : Bool :=
  match memberOf true (trim (Heading.ofText text).rest) with
  | some (.method ..) => true
  | _ => false

namespace Surroundings

/-- Reads a token. -/
def read (around : Surroundings) : Token → Surroundings
  | .code c =>
      if c == '\x7b' then
        ⟨isMethodHeader around.header.reverse :: around.bodies, []⟩
      else if c == '\x7d' then ⟨around.bodies.drop 1, []⟩
      else if c == ';' then { around with header := [] }
      else { around with header := c :: around.header }
  | .literal mark text =>
      { around with
        header := (mark :: (text ++ [mark])).reverse ++ around.header }
  | _ => around

/-- Whether the place is in the body of a method. -/
def inMethod (around : Surroundings) : Bool :=
  around.bodies.any id

end Surroundings

/-- An annotation whose argument is a backslash. -/
def backslashNote : List Token :=
  " @C(".toList.map .code ++ [.literal '"' ['\\', '\\']] ++ [.code ')']

/-- Behind a string that ends with a backslash the reader of arguments takes the
code up to the next string for a part of the string.  That string may stand in
the body of a method, and its text is then read as code. -/
theorem not_readSource_revision :
    ¬∀ tokens others : List Token,
      wellFormed tokens = true → wellFormed others = true →
      isRevision Surroundings.read Surroundings.inMethod {} tokens others =
        true →
      (readSource (spell tokens)).map Declared.annotations =
        (readSource (spell others)).map Declared.annotations := by
  intro all
  have well : wellFormed (fieldSource backslashNote "" "x") = true := by decide
  have wellToo :
      wellFormed (fieldSource backslashNote "" ") int y =") = true := by decide
  have same := all _ _ well wellToo (by decide +kernel)
  rw [readSource_spell well, readSource_spell wellToo] at same
  revert same
  decide +kernel

end ArchSurvey.Declaration
