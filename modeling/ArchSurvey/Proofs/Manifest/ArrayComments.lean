import ArchSurvey.Proofs.Manifest.ArrayLayout

/-!
# Comments in arrays

An array is read as if it were written on one line exactly if its comments are
silent: what is collected of each leaves no quotation mark open, quotes no
requirement and is balanced.  A comment behind a space is not collected at all,
so it is silent.
-/

namespace ArchSurvey.Manifest.TableFile

open Text
open Requirement (isQuote Closed quotedTexts readQuoted withoutComment)

/-! ## Comments that are silent -/

section Silent

variable {comment : Comment}

/-- A comment behind a space is not collected. -/
theorem silent_of_spaced (wellFormed : comment.WellFormed)
    (spaced : comment.indent.getLast? = some ' ') : comment.Silent := by
  have note : '#' ∉ comment.indent := wellFormed.1.not_mem (by decide)
  rw [Comment.Silent, Comment.spell,
    Requirement.withoutComment_append_note note spaced,
    Requirement.trim_gap wellFormed.1]
  exact gives_of_plain (by simp)

/-- Without quotation marks and brackets a comment changes nothing. -/
theorem silent_of_plain (wellFormed : comment.WellFormed)
    (plain : ∀ c ∈ comment.text, isQuote c = false ∧ c ≠ '[' ∧ c ≠ ']') :
    comment.Silent := by
  obtain ⟨front, back, -, -, split⟩ :=
    exists_trim (beforeFirst " #".toList comment.spell)
  refine gives_of_plain fun c member => ?_
  have kept : c ∈ beforeFirst " #".toList comment.spell := by
    rw [split]
    exact List.mem_append_right _ (List.mem_append_left _ member)
  have written := (beforeFirst_isPrefix _ _).subset kept
  rw [Comment.spell, List.mem_append, List.mem_cons] at written
  rcases written with indent | rfl | text
  · have white := wellFormed.1.blank c indent
    exact ⟨Requirement.isQuote_of_isBlank white,
      ne_of_isBlank white (by decide), ne_of_isBlank white (by decide)⟩
  · decide
  · exact plain c text

end Silent

/-! ## Comments that are not silent -/

/-- An array with a comment in front of a single element. -/
def probe (comment : Comment) (mark letter : Char) : Layout :=
  ⟨[], [' '], [' '], [],
    some ([.comment comment, .code [.element ⟨mark, [letter]⟩]], []), []⟩

/-- An array with a single element on one line. -/
def single (mark letter : Char) : Layout :=
  ⟨[], [' '], [' '], [.element ⟨mark, [letter]⟩], none, []⟩

/-- What is collected of an array at its opening bracket. -/
def opened : OpenArray :=
  ⟨"compile", ['[', '\n'], 1⟩

section Probes

variable {comment : Comment} {state : State} {mark letter : Char}
  {line : List Char}

theorem step_of_foreign (idle : state.pending = none)
    (foreign : (keyValue.search (withoutComment line)).isNone = true)
    (unnamed : isTableName (withoutComment line) = false) :
    state.step line = state := by
  rw [State.step]
  simp only [idle, unnamed, Option.isNone_iff_eq_none.mp foreign]
  split <;> rfl

/-- What holds of all marks and of two letters. -/
theorem forall_probe (property : Char → Char → Prop)
    (each : ∀ mark ∈ ['"', '\''], ∀ letter ∈ ['a', 'b'], property mark letter)
    (quote : isQuote mark = true) (plain : letter ∈ ['a', 'b']) :
    property mark letter := by
  refine each mark ?_ letter plain
  simpa [isQuote] using quote

theorem element_wellFormed (quote : isQuote mark = true)
    (plain : letter ∈ ['a', 'b']) :
    Element.WellFormed ⟨mark, [letter]⟩ :=
  forall_probe (fun mark letter => Element.WellFormed ⟨mark, [letter]⟩)
    (by decide) quote plain

theorem required_single (quote : isQuote mark = true)
    (plain : letter ∈ ['a', 'b']) : required [⟨mark, [letter]⟩] =
    [⟨String.singleton letter, none, "compile"⟩] :=
  forall_probe (fun mark letter => required [⟨mark, [letter]⟩] =
    [⟨String.singleton letter, none, "compile"⟩])
    (by decide +kernel) quote plain

theorem single_wellFormed (quote : isQuote mark = true)
    (plain : letter ∈ ['a', 'b']) : (single mark letter).WellFormed :=
  forall_probe (fun mark letter => (single mark letter).WellFormed)
    (by decide) quote plain

theorem probe_wellFormed (wellFormed : comment.WellFormed)
    (quote : isQuote mark = true) (plain : letter ∈ ['a', 'b']) :
    (probe comment mark letter).WellFormed := by
  have element := element_wellFormed quote plain
  have space : IsGap [' '] := by decide
  refine ⟨isGap_nil, space, space, by simp [probe], ?_, ?_, isGap_nil⟩
  · rintro more ⟨⟩ row member
    simp only [List.mem_cons, List.not_mem_nil, or_false] at member
    rcases member with rfl | rfl
    · exact wellFormed
    · intro token member
      obtain rfl := List.mem_singleton.mp member
      exact element
  · rintro more ⟨⟩
    simp

/-- The rest of the array is read behind what is collected of the comment. -/
theorem foldl_probe (wellFormed : comment.WellFormed)
    (quote : isQuote mark = true) (plain : letter ∈ ['a', 'b'])
    (project : state.table = .project) (idle : state.pending = none) :
    (probe comment mark letter).lines.foldl State.step state =
      [[mark, letter, mark], [']']].foldl State.step
        (State.continue { state with pending := some opened } opened
          (withoutComment comment.spell)) := by
  have first := step_opening (probe_wellFormed wellFormed quote plain) project
    idle (List.not_mem_nil : '#' ∉ []) List.not_mem_nil
  have start : state.startArray "compile" (trim ['[']) =
      { state with pending := some opened } := rfl
  rw [start] at first
  have lines : (probe comment mark letter).lines =
      [(probe comment mark letter).opening [], comment.spell,
        [mark, letter, mark], [']']] := rfl
  rw [lines, List.foldl_cons, first, List.foldl_cons, step_of_pending rfl]

/-- Behind a comment that closes the array its rest is passed over. -/
theorem foldl_of_idle (quote : isQuote mark = true)
    (plain : letter ∈ ['a', 'b']) (idle : state.pending = none) :
    [[mark, letter, mark], [']']].foldl State.step state = state := by
  have foreign : (keyValue.search (withoutComment [mark, letter, mark])).isNone
      = true ∧ isTableName (withoutComment [mark, letter, mark]) = false :=
    forall_probe (fun mark letter =>
      (keyValue.search (withoutComment [mark, letter, mark])).isNone = true ∧
        isTableName (withoutComment [mark, letter, mark]) = false)
      (by decide +kernel) quote plain
  have last : state.step [']'] = state :=
    step_of_foreign idle (by decide +kernel) (by decide +kernel)
  rw [List.foldl_cons, step_of_foreign idle foreign.1 foreign.2,
    List.foldl_cons, last, List.foldl_nil]

/-- In an open array the element and the bracket are collected. -/
theorem foldl_of_pending (quote : isQuote mark = true)
    (plain : letter ∈ ['a', 'b']) {array : OpenArray}
    (pending : state.pending = some array) (more : 0 < array.depth) :
    ∃ next, [[mark, letter, mark], [']']].foldl State.step state =
        State.continue { state with pending := some next } next [']'] ∧
      next = { array with
        text := array.text ++ [mark, letter, mark] ++ ['\n'] } := by
  have kept : withoutComment [mark, letter, mark] = [mark, letter, mark] ∧
      bracketBalance [mark, letter, mark] = 0 :=
    forall_probe (fun mark letter =>
      withoutComment [mark, letter, mark] = [mark, letter, mark] ∧
        bracketBalance [mark, letter, mark] = 0) (by decide) quote plain
  refine ⟨_, ?_, rfl⟩
  have open_ : ¬array.depth + 0 ≤ 0 := by omega
  rw [List.foldl_cons, step_of_pending pending, kept.1, State.continue, kept.2,
    if_neg open_, List.foldl_cons, List.foldl_nil, step_of_pending rfl,
    Int.add_zero]
  rfl

/-- Behind an open quotation mark it is not the element that is quoted. -/
theorem readQuoted_of_open {text rest : List Char} (closed : Closed text)
    (quote : isQuote mark = true) (absent : mark ∉ rest)
    (plain : letter ∈ ['a', 'b']) :
    readQuoted "compile" (text ++ mark :: rest ++ ['\n'] ++
        [mark, letter, mark] ++ ['\n'] ++ [']'] ++ ['\n']) =
      readQuoted "compile" text ++
        (Requirement.read "compile" (rest ++ ['\n'])).toList := by
  have feed : mark ∉ rest ++ ['\n'] := by
    refine List.not_mem_append absent fun member => ?_
    obtain rfl := List.mem_singleton.mp member
    exact absurd quote (by decide)
  have behind : quotedTexts [letter, mark, '\n', ']', '\n'] = [] :=
    forall_probe (fun mark letter =>
      quotedTexts [letter, mark, '\n', ']', '\n'] = [])
      (by decide +kernel) quote plain
  have split : text ++ mark :: rest ++ ['\n'] ++ [mark, letter, mark] ++
      ['\n'] ++ [']'] ++ ['\n'] =
        text ++ mark :: ((rest ++ ['\n']) ++
          mark :: [letter, mark, '\n', ']', '\n']) := by
    simp
  rw [split, readQuoted_append "compile" closed]
  congr 1
  rw [readQuoted, Requirement.quotedTexts_quotation quote feed, behind]
  cases read : Requirement.read "compile" (rest ++ ['\n']) <;>
    simp [read]

/-- What is read depends on where the comment leaves the array: closed, open as
it was, or with more open brackets. -/
theorem requirements_probe (wellFormed : comment.WellFormed)
    (quote : isQuote mark = true) (plain : letter ∈ ['a', 'b'])
    (project : state.table = .project) (idle : state.pending = none) :
    let rest := withoutComment comment.spell
    let text := opened.text ++ rest ++ ['\n']
    ((probe comment mark letter).lines.foldl State.step state).requirements =
      state.requirements ++
        if opened.depth + bracketBalance rest ≤ 0 then
          readQuoted "compile" text
        else if opened.depth + bracketBalance rest - 1 ≤ 0 then
          readQuoted "compile" (text ++ [mark, letter, mark] ++ ['\n'] ++
            [']'] ++ ['\n'])
        else [] := by
  intro rest text
  rw [foldl_probe wellFormed quote plain project idle, State.continue]
  by_cases closed : opened.depth + bracketBalance rest ≤ 0
  · rw [if_pos closed, if_pos closed, foldl_of_idle quote plain rfl]
    rfl
  · obtain ⟨next, run, rfl⟩ := @foldl_of_pending
      { state with pending := some ⟨"compile", text,
        opened.depth + bracketBalance rest⟩ } mark letter quote plain _ rfl
        (by simpa using closed)
    have last : bracketBalance [']'] = -1 := by decide
    rw [if_neg closed, if_neg closed, Int.sub_eq_add_neg]
    refine (congrArg State.requirements run).trans ?_
    rw [State.continue, last]
    dsimp only
    split
    · rfl
    · exact (List.append_nil _).symm

/-- The letters are different, so what is read is not the same for both. -/
theorem not_constant (quote : isQuote mark = true)
    {result : List Requirement} (constant : ∀ letter ∈ ['a', 'b'],
      result = required [⟨mark, [letter]⟩]) : False := by
  have same := (constant 'a' (by simp)).symm.trans (constant 'b' (by simp))
  rw [required_single quote (by simp), required_single quote (by simp)] at same
  exact absurd same (by decide +kernel)

/-- If the element is always read between what is collected, then that gives
nothing. -/
theorem gives_of_reads {rest : List Char}
    (reads : ∀ mark, isQuote mark = true → ∀ letter ∈ ['a', 'b'],
      readQuoted "compile" (opened.text ++ rest ++ ['\n'] ++
        [mark, letter, mark] ++ ['\n'] ++ [']'] ++ ['\n']) =
          required [⟨mark, [letter]⟩])
    (balanced : bracketBalance rest = 0) : Gives rest [] 0 := by
  have start : Gives opened.text [] 1 := gives_opening.append gives_feed
  rcases Requirement.closed_or_exists_open rest with
    closed | ⟨front, mark, back, rfl, closed, quote, absent⟩
  · have plain : 'a' ∈ ['a', 'b'] := by simp
    have double : isQuote '"' = true := by decide
    have given : Gives rest (readQuoted "compile" rest) 0 :=
      ⟨closed, rfl, balanced⟩
    have element : Gives ['"', 'a', '"'] (required [⟨'"', ['a']⟩]) 0 :=
      gives_element (element_wellFormed double plain)
    have whole := (((((start.append given).append gives_feed).append
      element).append gives_feed).append gives_closing).append gives_feed
    have same := whole.reads.symm.trans (reads '"' double 'a' plain)
    have nothing : readQuoted "compile" rest = [] := by simpa using same
    rwa [nothing] at given
  · have constant (letter : Char) (plain : letter ∈ ['a', 'b']) :
        readQuoted "compile" (opened.text ++ front) ++
          (Requirement.read "compile" (back ++ ['\n'])).toList =
            required [⟨mark, [letter]⟩] := by
      rw [← reads mark quote letter plain, ← List.append_assoc opened.text,
        readQuoted_of_open (start.closed.append closed) quote absent plain]
    exact (not_constant quote constant).elim

/-- A comment that changes nothing in front of a single element is silent. -/
theorem silent_of_reads (wellFormed : comment.WellFormed)
    (project : state.table = .project) (idle : state.pending = none)
    (reads : ∀ mark, isQuote mark = true → ∀ letter ∈ ['a', 'b'],
      ((probe comment mark letter).lines.foldl State.step
        state).requirements =
        state.requirements ++ required [⟨mark, [letter]⟩]) :
    comment.Silent := by
  have found (mark : Char) (quote : isQuote mark = true) (letter : Char)
      (plain : letter ∈ ['a', 'b']) :=
    List.append_cancel_left
      ((requirements_probe wellFormed quote plain project idle).symm.trans
        (reads mark quote letter plain))
  have double : isQuote '"' = true := by decide
  by_cases closed :
      opened.depth + bracketBalance (withoutComment comment.spell) ≤ 0
  · simp only [if_pos closed] at found
    exact (not_constant double (found '"' double)).elim
  by_cases balanced :
      opened.depth + bracketBalance (withoutComment comment.spell) - 1 ≤ 0
  · simp only [if_neg closed, if_pos balanced] at found
    refine gives_of_reads found ?_
    simp only [opened] at closed balanced
    omega
  · simp only [if_neg closed, if_neg balanced] at found
    exact (not_constant double (found '"' double)).elim

end Probes

/-! ## Arrays in files -/

/-- The lines end in the table of the project, and with no array open. -/
def InProject (front : List Char) : Prop :=
  ((splitOn '\n' front).foldl State.step {}).table = .project ∧
    ((splitOn '\n' front).foldl State.step {}).pending = none

instance : DecidablePred InProject := fun _ =>
  inferInstanceAs (Decidable (_ ∧ _))

/-- A file with an array between other lines. -/
def placed (front back : List Char) (layout : Layout) : List Char :=
  front ++ '\n' :: (layout.spell ++ '\n' :: back)

section Files

variable {layout : Layout}

theorem step_dropReturn (state : State) (line : List Char) :
    state.step (dropReturn line) = state.step line := by
  rw [State.step, State.step, Requirement.withoutComment_dropReturn]

theorem opening_inLine (wellFormed : layout.WellFormed) {text : List Char}
    (inLine : '\n' ∉ text) : '\n' ∉ layout.opening text := by
  have named : '\n' ∉ key := by decide
  simp [Layout.opening, wellFormed.indent.inLine, wellFormed.before.inLine,
    wellFormed.after.inLine, named, inLine]

theorem Row.inLine {row : Row} (wellFormed : row.WellFormed) :
    '\n' ∉ row.spell := by
  cases row with
  | code tokens => exact tokens_lack (by decide) wellFormed
  | comment comment =>
      obtain ⟨indent, text⟩ := wellFormed
      simp [Row.spell, Comment.spell, indent.inLine, text]

theorem Layout.inLine (wellFormed : layout.WellFormed) :
    ∀ line ∈ layout.lines, '\n' ∉ line := by
  have first : '\n' ∉ layout.first.flatMap Token.spell :=
    tokens_lack (by decide) wellFormed.first
  have ends : '\n' ∉ layout.closing := closing_lacks wellFormed (by decide)
  cases shape : layout.more with
  | none =>
      simpa [Layout.lines, shape] using
        opening_inLine wellFormed (List.not_mem_append first ends)
  | some more =>
      obtain ⟨rows, last⟩ := more
      have final : '\n' ∉ last.flatMap Token.spell :=
        tokens_lack (by decide) (wellFormed.last _ shape)
      intro line member
      simp only [Layout.lines, shape, List.mem_cons, List.mem_append,
        List.mem_map, List.not_mem_nil, or_false] at member
      rcases member with rfl | ⟨row, written, rfl⟩ | rfl
      · exact opening_inLine wellFormed first
      · exact Row.inLine (wellFormed.rows _ shape row written)
      · exact List.not_mem_append final ends

/-- A file is read line by line. -/
theorem readProject_placed (wellFormed : layout.WellFormed)
    (front back : List Char) :
    readProject (placed front back layout) =
      ((lines back).foldl State.step (layout.lines.foldl State.step
        ((splitOn '\n' front).foldl State.step {}))).requirements := by
  have filled : layout.lines ≠ [] := by
    rw [Layout.lines]
    split <;> simp
  have folds (state : State) (pieces : List (List Char)) :
      (pieces.map dropReturn).foldl State.step state =
        pieces.foldl State.step state := by
    rw [List.foldl_map]
    simp only [step_dropReturn]
  rw [readProject, placed, lines_append_cons, List.foldl_append, folds,
    lines_append_cons, List.foldl_append, folds, Layout.spell,
    splitOn_joinWith_of_absent filled (Layout.inLine wellFormed)]

/-- Behind the lines of an array the requirements of its elements are known. -/
theorem readProject_of_silent (wellFormed : layout.WellFormed)
    {front : List Char} (inProject : InProject front) (back : List Char)
    (silent : ∀ comment ∈ layout.comments, comment.Silent) :
    readProject (placed front back layout) =
      ((lines back).foldl State.step
        (((splitOn '\n' front).foldl State.step {}).add
          (required layout.elements))).requirements := by
  rw [readProject_placed wellFormed, foldl_lines_layout wellFormed inProject.1
    inProject.2 silent]

end Files

/-- Arrays whose comments are among given ones are read as if they were written
on one line exactly if these comments are silent. -/
theorem readProject_layout_iff {comments : List Comment}
    (wellFormed : ∀ comment ∈ comments, comment.WellFormed) :
    (∀ front back layout inLine, InProject front → layout.WellFormed →
      inLine.WellFormed → inLine.more = none →
      layout.elements = inLine.elements → layout.comments ⊆ comments →
      readProject (placed front back layout) =
        readProject (placed front back inLine)) ↔
      ∀ comment ∈ comments, comment.Silent := by
  constructor
  · intro same comment member
    let front := "[project]".toList
    have inProject : InProject front := by decide +kernel
    refine silent_of_reads (wellFormed comment member) inProject.1 inProject.2
      fun mark quote letter plain => ?_
    have probed := probe_wellFormed (wellFormed comment member) quote plain
    have lined := single_wellFormed quote plain
    have only : (probe comment mark letter).comments = [comment] := rfl
    have noLines : lines [] = [] := rfl
    have reads := same front [] (probe comment mark letter)
      (single mark letter) inProject probed lined rfl rfl
      (by simpa [only] using member)
    rw [readProject_placed probed, readProject_of_silent lined inProject []
      (by simp [single, Layout.comments]), noLines, List.foldl_nil,
      List.foldl_nil, State.add] at reads
    exact reads
  · intro silent front back layout inLine inProject one two short elements among
    have nothing : inLine.comments = [] := by
      rw [Layout.comments, short]
    rw [readProject_of_silent one inProject back
        fun comment member => silent comment (among member),
      readProject_of_silent two inProject back (by simp [nothing]), elements]

/-- A requirement in double quotes. -/
def quote (text : String) : Token :=
  .element ⟨'"', text.toList⟩

/-- An array over several lines with some comment. -/
def foldedArray (indent text : String) : Layout :=
  ⟨[], [' '], [' '], [],
    some ([.code [.gap [' ', ' '], quote "uvicorn[standard]>=0.29", .comma],
      .code [], .comment ⟨indent.toList, text.toList⟩,
      .code [.gap [' ', ' '], quote "tomli; python_version < '3.11'", .comma]],
      []), []⟩

/-- The same array on one line. -/
def flatArray : Layout :=
  ⟨[], [' '], [' '],
    [quote "uvicorn[standard]>=0.29", .comma, .gap [' '],
      quote "tomli; python_version < '3.11'"], none, []⟩

theorem readProject_layout_iff_foldedArray :
    let comments := (foldedArray "  " " once \"httpx>=0.1\" [old]").comments
    (∀ comment ∈ comments, comment.WellFormed) ∧
      readProject (placed "[project]".toList "version = \"1\"".toList
        (foldedArray "  " " once \"httpx>=0.1\" [old]")) =
      [⟨"uvicorn", some ">=0.29", "compile"⟩, ⟨"tomli", none, "compile"⟩] := by
  intro comments
  have wellFormed : ∀ comment ∈ comments, comment.WellFormed := by
    decide +kernel
  have silent : ∀ comment ∈ comments, comment.Silent := by decide +kernel
  refine ⟨wellFormed, ((readProject_layout_iff wellFormed).mpr silent
    _ _ _ flatArray (by decide +kernel) (by decide +kernel) (by decide +kernel)
    rfl (by decide +kernel) (List.Subset.refl _)).trans ?_⟩
  decide +kernel

/-- A text that a comment at the margin quotes becomes a requirement. -/
theorem not_readProject_layout :
    ¬ ∀ front back layout inLine, InProject front → layout.WellFormed →
      inLine.WellFormed → inLine.more = none →
      layout.elements = inLine.elements →
      readProject (placed front back layout) =
        readProject (placed front back inLine) := by
  intro always
  have reads := always "[project]".toList [] (foldedArray "" " \"httpx>=0.1\"")
    flatArray (by decide +kernel) (by decide +kernel) (by decide +kernel) rfl
    (by decide +kernel)
  revert reads
  decide +kernel

end ArchSurvey.Manifest.TableFile
