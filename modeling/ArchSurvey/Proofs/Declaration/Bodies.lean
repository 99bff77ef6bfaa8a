import ArchSurvey.Proofs.Declaration.Revision

/-!
# Sources as nested bodies

The braces of a source make it a tree: statements, and heads in front of bodies
that are trees again.  The reader keeps a stack of the open braces.  What it
finds in such a source is what a walk over the tree finds that knows only what
the body around it belongs to (`readSource_body`).
-/

namespace ArchSurvey.Declaration

open Text

/-- What a token adds to the piece of source that is being read. -/
def Token.plain : Token → List Char
  | .code c => [c]
  | .literal mark text => mark :: (text ++ [mark])
  | _ => []

/-- Some tokens without the comments. -/
def plainText (tokens : List Token) : List Char :=
  tokens.flatMap Token.plain

/-- Whether parentheses are balanced behind some open ones, and no brace and no
semicolon stands outside of them. -/
def isFlat : Nat → List Token → Bool
  | depth, [] => depth == 0
  | depth, .code c :: rest =>
      if c == '(' then isFlat (depth + 1) rest
      else if c == ')' then 0 < depth && isFlat (depth - 1) rest
      else (0 < depth || (c != '\x7b' && c != ';' && c != '\x7d')) &&
        isFlat depth rest
  | depth, _ :: rest => isFlat depth rest

/-- The source in a body: statements and further bodies, each in front of the
rest, and what stands behind the last one. -/
inductive Body where
  | last (text : List Token)
  | statement (text : List Token) (rest : Body)
  | block (head : List Token) (inner : Body) (rest : Body)
  deriving DecidableEq, Repr

/-- What a piece of source declares in a scope, without its line. -/
def declares (scope : Option Scope) (piece : List Char) : Option Declared :=
  match scope with
  | none => declaredBy (trim piece) none 0
  | some (.type name) => declaredBy (trim piece) (some name) 0
  | some .block => none

namespace Body

def tokens : Body → List Token
  | last text => text
  | statement text rest => text ++ .code ';' :: rest.tokens
  | block head inner rest =>
      head ++ .code '\x7b' :: (inner.tokens ++ .code '\x7d' :: rest.tokens)

/-- Whether what stands between braces and semicolons is flat. -/
def isFlat : Body → Bool
  | last text => Declaration.isFlat 0 text
  | statement text rest => Declaration.isFlat 0 text && rest.isFlat
  | block head inner rest =>
      Declaration.isFlat 0 head && inner.isFlat && rest.isFlat

/-- The declarations of a body in a scope, in order and without their lines. -/
def declared (scope : Option Scope) : Body → List Declared
  | last _ => []
  | statement text rest =>
      (declares scope (plainText text)).toList ++ rest.declared scope
  | block head inner rest =>
      let found := declares scope (plainText head)
      found.toList ++ (inner.declared (some (State.scopeOf found)) ++
        rest.declared scope)

end Body

section Reading

variable {state : State} {text : List Token} {depth : Nat}

theorem unlined_read (token : Token) (inside : ∀ c, token ≠ .code c) :
    (state.read token).unlined =
      { state with piece := token.plain.reverse ++ state.piece }.unlined := by
  cases token with
  | code c => exact absurd rfl (inside c)
  | line text => rfl
  | block text => exact State.unlined_block state text
  | literal mark text => exact State.unlined_literal state mark text

/-- The parentheses that are open behind a character. -/
def depthAfter (depth : Int) (c : Char) : Int :=
  if c == '(' then depth + 1 else if c == ')' then depth - 1 else depth

/-- A character inside a flat text becomes a part of the piece. -/
theorem unlined_step {c : Char} (inside : 0 < state.depth ∨
      (c ≠ '\x7b' ∧ c ≠ ';' ∧ c ≠ '\x7d')) :
    (state.step c).unlined =
      { state with
        piece := c :: state.piece
        depth := depthAfter state.depth c }.unlined := by
  have lines : ((state.countLine c).markLine c).unlined = state.unlined := by
    simp
  obtain ⟨scopes, piece, depth, found⟩ := State.unlined_eq_iff.mp lines
  rw [State.unlined_eq_iff]
  simp only [State.step, depth, depthAfter]
  split
  · exact ⟨scopes, congrArg (c :: ·) piece, rfl, found⟩
  · split
    · exact ⟨scopes, congrArg (c :: ·) piece, rfl, found⟩
    · have pushed : ((state.countLine c).markLine c).push c =
          if 0 < state.depth then ((state.countLine c).markLine c).push c
          else if c == '\x7b' then ((state.countLine c).markLine c).openBrace
          else if c == ';' then ((state.countLine c).markLine c).endStatement
          else if c == '\x7d' then ((state.countLine c).markLine c).closeBrace
          else ((state.countLine c).markLine c).push c := by
        rcases inside with deep | ⟨noOpen, noEnd, noClose⟩
        · rw [if_pos deep]
        · simp [noOpen, noEnd, noClose]
      rw [← pushed]
      exact ⟨scopes, congrArg (c :: ·) piece, depth, found⟩

/-- A flat text becomes the piece being read. -/
theorem unlined_foldl_read (flat : isFlat depth text = true)
    (deep : state.depth = depth) :
    (text.foldl State.read state).unlined =
      { state with
        piece := (plainText text).reverse ++ state.piece
        depth := 0 }.unlined := by
  induction text generalizing state depth with
  | nil =>
      obtain rfl : depth = 0 := by simpa [isFlat] using flat
      exact State.unlined_eq_iff.mpr ⟨rfl, rfl, deep, rfl⟩
  | cons token text ih =>
      rw [List.foldl_cons]
      have step : ∃ after : Nat, isFlat after text = true ∧
          (state.read token).unlined =
            { state with
              piece := token.plain.reverse ++ state.piece
              depth := after }.unlined := by
        cases token with
        | code c =>
            rw [isFlat] at flat
            split at flat
            · rename_i opens
              obtain rfl := beq_iff_eq.mp opens
              refine ⟨depth + 1, flat, ?_⟩
              have here := @unlined_step state '(' (.inr (by decide))
              rw [deep] at here
              exact here
            · split at flat
              · rename_i closes
                obtain rfl := beq_iff_eq.mp closes
                obtain ⟨some_, flat⟩ := Bool.and_eq_true_iff.mp flat
                have positive : 0 < depth := by simpa using some_
                refine ⟨depth - 1, flat, ?_⟩
                have here := @unlined_step state ')' (.inr (by decide))
                have count : ((depth - 1 : Nat) : Int) = (depth : Int) - 1 := by
                  omega
                rw [deep] at here
                rw [count]
                exact here
              · rename_i noOpen noClose
                obtain ⟨inside, flat⟩ := Bool.and_eq_true_iff.mp flat
                refine ⟨depth, flat, ?_⟩
                have within : 0 < state.depth ∨
                    (c ≠ '\x7b' ∧ c ≠ ';' ∧ c ≠ '\x7d') := by
                  simpa [deep, and_assoc] using inside
                have here := unlined_step within
                have same : depthAfter state.depth c = depth := by
                  simp_all [depthAfter]
                rw [same] at here
                exact here
        | line text => exact ⟨depth, flat, by rw [← deep]; rfl⟩
        | block text =>
            refine ⟨depth, flat, ?_⟩
            rw [← deep]
            exact unlined_read _ (by simp)
        | literal mark text =>
            refine ⟨depth, flat, ?_⟩
            rw [← deep]
            exact unlined_read _ (by simp)
      obtain ⟨after, flat, here⟩ := step
      obtain ⟨scopes, piece, deep, found⟩ := State.unlined_eq_iff.mp here
      rw [ih flat deep, State.unlined_eq_iff]
      refine ⟨scopes, ?_, rfl, found⟩
      simp [piece, plainText]

/-- At its end a piece is what it declares in the innermost scope. -/
theorem map_unlined_finish (state : State) :
    state.finish.1.map Declared.unlined =
      declares state.scopes.head? state.piece.reverse := by
  simp only [State.finish, declares]
  cases state.scopes with
  | nil => exact map_unlined_declaredBy _ _ _
  | cons scope outer =>
      cases scope with
      | type name => exact map_unlined_declaredBy _ _ _
      | block => rfl

theorem map_unlined_found_finish (state : State) :
    state.finish.2.found.map Declared.unlined =
      (declares state.scopes.head? state.piece.reverse).toList ++
        state.found.map Declared.unlined := by
  rw [← map_unlined_finish]
  simp only [State.finish, List.map_append, Option.toList_map]

/-- Outside parentheses a brace or a semicolon ends the piece. -/
theorem exists_step_mark (level : state.depth = 0) (c : Char) :
    ∃ lined : State, lined.unlined = state.unlined ∧
      (c = ';' → state.step c = lined.endStatement) ∧
      (c = '\x7b' → state.step c = lined.openBrace) ∧
      (c = '\x7d' → state.step c = lined.closeBrace) := by
  have lines : ((state.countLine c).markLine c).unlined = state.unlined := by
    simp
  have depth : ((state.countLine c).markLine c).depth = 0 :=
    (State.unlined_eq_iff.mp lines).2.2.1.trans level
  refine ⟨_, lines, ?_, ?_, ?_⟩ <;> rintro rfl <;> simp [State.step, depth]

/-- A flat text in front of a brace or a semicolon is what it declares in the
innermost scope. -/
theorem exists_ended (flat : isFlat 0 text = true)
    (empty : state.piece = []) (level : state.depth = 0) (c : Char) :
    ∃ ended : State, ended.scopes = state.scopes ∧
      ended.finish.1.map Declared.unlined =
        declares state.scopes.head? (plainText text) ∧
      ended.finish.2.found.map Declared.unlined =
        (declares state.scopes.head? (plainText text)).toList ++
          state.found.map Declared.unlined ∧
      (c = ';' →
        (text.foldl State.read state).step c = ended.endStatement) ∧
      (c = '\x7b' →
        (text.foldl State.read state).step c = ended.openBrace) := by
  obtain ⟨scopes, piece, depth, found⟩ :=
    State.unlined_eq_iff.mp (unlined_foldl_read flat level)
  obtain ⟨ended, same, ends, opens, -⟩ := exists_step_mark depth c
  obtain ⟨scopesToo, pieceToo, -, foundToo⟩ := State.unlined_eq_iff.mp same
  have around : ended.scopes = state.scopes := scopesToo.trans scopes
  have whole : ended.piece.reverse = plainText text := by
    simp [pieceToo, piece, empty]
  refine ⟨ended, around, ?_, ?_, ends, opens⟩
  · rw [map_unlined_finish, around, whole]
  · rw [map_unlined_found_finish, around, whole, foundToo, found]

/-- What a reader knows behind a body: the scopes that it knew, and the
declarations of the body. -/
structure Passed (state : State) (found : List Declared) (next : State) :
    Prop where
  scopes : next.scopes = state.scopes
  depth : next.depth = 0
  found : next.found.map Declared.unlined =
    found.reverse ++ state.found.map Declared.unlined

/-- A body is read to the declarations that a walk over it finds. -/
theorem passed_tokens {body : Body} (flat : body.isFlat = true)
    (empty : state.piece = []) (level : state.depth = 0) :
    Passed state (body.declared state.scopes.head?)
      (body.tokens.foldl State.read state) := by
  have turn : ∀ found : Option Declared, found.toList.reverse = found.toList :=
    fun found => by cases found <;> rfl
  induction body generalizing state with
  | last text =>
      obtain ⟨scopes, -, depth, found⟩ :=
        State.unlined_eq_iff.mp (unlined_foldl_read flat level)
      exact ⟨scopes, depth, found⟩
  | statement text rest ih =>
      obtain ⟨here, later⟩ := Bool.and_eq_true_iff.mp flat
      obtain ⟨ended, around, -, found, ends, -⟩ :=
        exists_ended here empty level ';'
      have scopes : ended.endStatement.scopes = state.scopes := around
      have passed := @ih ended.endStatement later rfl rfl
      rw [scopes] at passed
      rw [Body.tokens, List.foldl_append, List.foldl_cons, State.read, ends rfl]
      refine ⟨passed.scopes.trans scopes, passed.depth, ?_⟩
      rw [passed.found, State.endStatement, found, Body.declared,
        List.reverse_append, turn, List.append_assoc]
  | block head inner rest ihInner ihRest =>
      obtain ⟨front, later⟩ := Bool.and_eq_true_iff.mp flat
      obtain ⟨here, within⟩ := Bool.and_eq_true_iff.mp front
      obtain ⟨ended, around, declared, found, -, opens⟩ :=
        exists_ended here empty level '\x7b'
      -- Behind the brace the scope of the head is the innermost one.
      have scopes : ended.openBrace.scopes =
          State.scopeOf (declares state.scopes.head? (plainText head)) ::
            state.scopes := by
        rw [← declared, State.scopeOf_unlined, ← around]
        rfl
      have foundHead : ended.openBrace.found.map Declared.unlined =
          (declares state.scopes.head? (plainText head)).toList ++
            state.found.map Declared.unlined := found
      have inside := @ihInner ended.openBrace within rfl rfl
      -- The closing brace drops it again.
      obtain ⟨closed, same, -, -, closes⟩ :=
        exists_step_mark inside.depth '\x7d'
      obtain ⟨scopesToo, -, depthToo, foundToo⟩ :=
        State.unlined_eq_iff.mp same
      have outer : closed.closeBrace.scopes = state.scopes := by
        rw [State.closeBrace, scopesToo, inside.scopes, scopes]
        rfl
      have foundBlock : closed.closeBrace.found.map Declared.unlined =
          closed.found.map Declared.unlined := rfl
      have passed := @ihRest closed.closeBrace later rfl
        (depthToo.trans inside.depth)
      rw [outer] at passed
      rw [scopes] at inside
      rw [Body.tokens, List.foldl_append, List.foldl_cons, State.read,
        opens rfl, List.foldl_append, List.foldl_cons, State.read, closes rfl]
      refine ⟨passed.scopes.trans outer, passed.depth, ?_⟩
      rw [passed.found, foundBlock, foundToo, inside.found, foundHead,
        Body.declared]
      simp [turn]

/-- The declarations of a source are those that a walk over its bodies
finds. -/
theorem readSource_body {body : Body} (well : wellFormed body.tokens = true)
    (flat : body.isFlat = true) :
    (readSource (spell body.tokens)).map Declared.unlined =
      body.declared none := by
  rw [readSource_spell well, List.map_reverse,
    (passed_tokens flat rfl rfl).found]
  simp

end Reading

end ArchSurvey.Declaration
