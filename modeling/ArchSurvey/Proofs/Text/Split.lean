import ArchSurvey.Text.Split

/-!
# Laws of splitting and searching

A separator parts the pieces before it from those after it.  Searching a text
is the infix relation, and testing its ends are the prefix and suffix
relations.  A text that hardly contains a mark cannot reach across a section
between two marks.
-/

namespace ArchSurvey.Text

section Pieces

variable {p : Char → Bool} {c : Char}

theorem splitFrom_append_cons (separates : p c = true)
    (piece before after : List Char) :
    splitFrom p piece (before ++ c :: after) =
      splitFrom p piece before ++ splitWhen p after := by
  induction before generalizing piece with
  | nil => simp [splitFrom, splitWhen, separates]
  | cons d before ih =>
      rw [List.cons_append, splitFrom, splitFrom]
      split
      · rw [ih [], List.cons_append]
      · exact ih (d :: piece)

theorem splitWhen_append_cons (separates : p c = true)
    (before after : List Char) :
    splitWhen p (before ++ c :: after) =
      splitWhen p before ++ splitWhen p after :=
  splitFrom_append_cons separates [] before after

theorem splitFrom_eq_singleton {text : List Char}
    (whole : ∀ c ∈ text, p c = false) (piece : List Char) :
    splitFrom p piece text = [piece.reverse ++ text] := by
  induction text generalizing piece with
  | nil => simp [splitFrom]
  | cons c text ih =>
      have here : p c = false := whole c List.mem_cons_self
      rw [splitFrom, here, if_neg (by decide : ¬false = true),
        ih fun d member => whole d (List.mem_cons_of_mem c member)]
      simp

theorem splitWhen_eq_singleton {text : List Char}
    (whole : ∀ c ∈ text, p c = false) : splitWhen p text = [text] :=
  splitFrom_eq_singleton whole []

end Pieces

section Last

variable {separator : Char} {text : List Char}

theorem afterLast_append_cons (absent : separator ∉ text)
    (before : List Char) :
    afterLast separator (before ++ separator :: text) = text := by
  have passes : ∀ c ∈ text.reverse, (c != separator) = true := by
    intro c member
    have different : c ≠ separator := fun equal =>
      absent (equal ▸ List.mem_reverse.mp member)
    simpa using different
  rw [afterLast, List.reverse_append, List.reverse_cons, List.append_assoc,
    List.takeWhile_append_of_pos passes, List.singleton_append,
    List.takeWhile_cons_of_neg (by simp), List.append_nil,
    List.reverse_reverse]

theorem afterLast_eq_self (absent : separator ∉ text) :
    afterLast separator text = text := by
  have passes : ∀ c ∈ text.reverse, (c != separator) = true := by
    intro c member
    have different : c ≠ separator := fun equal =>
      absent (equal ▸ List.mem_reverse.mp member)
    simpa using different
  have all : text.reverse.takeWhile (· != separator) = text.reverse := by
    rw [← List.append_nil text.reverse, List.takeWhile_append_of_pos passes]
    rfl
  rw [afterLast, all, List.reverse_reverse]

end Last

section First

variable {separator : Char} {before after text : List Char}

theorem cutAt_append (absent : separator ∉ before) :
    cutAt separator (before ++ separator :: after) = some (before, after) := by
  have others : ∀ c ∈ before, (c != separator) = true := by
    intro c member
    simp only [bne_iff_ne]
    rintro rfl
    exact absent member
  rw [cutAt, List.dropWhile_append_of_pos others,
    List.takeWhile_append_of_pos others]
  simp

theorem cutAt_eq_none (absent : separator ∉ text) :
    cutAt separator text = none := by
  have others : ∀ c ∈ text, (c != separator) = true := by
    intro c member
    simp only [bne_iff_ne]
    rintro rfl
    exact absent member
  have nothing : text.dropWhile (· != separator) = [] := by
    rw [← List.append_nil text, List.dropWhile_append_of_pos others]
    rfl
  rw [cutAt, nothing]

/-- The first separator parts a text in one way. -/
theorem parted_unique {before' after' : List Char}
    (absent : separator ∉ before) (absent' : separator ∉ before')
    (same : before ++ separator :: after = before' ++ separator :: after') :
    before = before' ∧ after = after' := by
  have cuts := @cutAt_append _ _ after absent
  rw [same, cutAt_append absent'] at cuts
  obtain ⟨rfl, rfl⟩ := Prod.mk.inj (Option.some.inj cuts)
  exact ⟨rfl, rfl⟩

end First

section Joining

variable {separator : List Char}

theorem joinWith_cons {first : List Char} {rest : List (List Char)}
    (more : rest ≠ []) :
    joinWith separator (first :: rest) =
      first ++ separator ++ joinWith separator rest :=
  List.intercalate_cons_of_ne_nil more

theorem joinWith_singleton (only : List Char) :
    joinWith separator [only] = only :=
  List.intercalate_singleton

theorem joinWith_append {before after : List (List Char)}
    (first : before ≠ []) (second : after ≠ []) :
    joinWith separator (before ++ after) =
      joinWith separator before ++ separator ++ joinWith separator after := by
  induction before with
  | nil => exact absurd rfl first
  | cons piece before ih =>
      by_cases last : before = []
      · rw [last, List.singleton_append, joinWith_cons second,
          joinWith_singleton]
      · rw [List.cons_append, joinWith_cons (by simp [last]), ih last,
          joinWith_cons last]
        simp

/-- Joining in two steps is joining at once. -/
theorem joinWith_flatten {groups : List (List (List Char))}
    (filled : ∀ group ∈ groups, group ≠ []) :
    joinWith separator groups.flatten =
      joinWith separator (groups.map (joinWith separator)) := by
  induction groups with
  | nil => rfl
  | cons group groups ih =>
      have others : ∀ other ∈ groups, other ≠ [] := fun other member =>
        filled other (List.mem_cons_of_mem group member)
      by_cases last : groups = []
      · rw [last, List.flatten_cons, List.flatten_nil, List.append_nil,
          List.map_singleton, joinWith_singleton]
      · have more : groups.flatten ≠ [] := by
          obtain ⟨next, rest, rfl⟩ := List.exists_cons_of_ne_nil last
          simp [others next List.mem_cons_self]
        rw [List.flatten_cons,
          joinWith_append (filled group List.mem_cons_self) more, ih others,
          List.map_cons, joinWith_cons (by simpa using last)]

end Joining

section Occurrences

theorem dropPrefix?_eq_some_iff {start text rest : List Char} :
    dropPrefix? start text = some rest ↔ text = start ++ rest := by
  induction start generalizing text with
  | nil => simp [dropPrefix?]
  | cons a start ih =>
      cases text with
      | nil => simp [dropPrefix?]
      | cons b text =>
          rw [dropPrefix?]
          by_cases same : a = b
          · subst same
            simp [ih]
          · have different : b ≠ a := fun equal => same equal.symm
            simp [same, different]

theorem dropPrefix?_eq_none_iff {start text : List Char} :
    dropPrefix? start text = none ↔ ¬start <+: text := by
  rw [Option.eq_none_iff_forall_ne_some]
  constructor
  · rintro refused ⟨rest, equal⟩
    exact refused rest (dropPrefix?_eq_some_iff.mpr equal.symm)
  · intro refused rest found
    exact refused ⟨rest, (dropPrefix?_eq_some_iff.mp found).symm⟩

theorem startsWith_iff {start text : List Char} :
    startsWith start text = true ↔ start <+: text := by
  rw [startsWith, Option.isSome_iff_exists]
  constructor
  · rintro ⟨rest, dropped⟩
    exact ⟨rest, (dropPrefix?_eq_some_iff.mp dropped).symm⟩
  · rintro ⟨rest, equal⟩
    exact ⟨rest, dropPrefix?_eq_some_iff.mpr equal.symm⟩

theorem endsWith_iff {ending text : List Char} :
    endsWith ending text = true ↔ ending <:+ text := by
  rw [endsWith, startsWith_iff, List.reverse_prefix]

theorem isSome_cutFrom_iff {needle passed text : List Char} :
    (cutFrom needle passed text).isSome = true ↔ needle <:+: text := by
  induction text generalizing passed with
  | nil =>
      rw [cutFrom, List.infix_nil]
      cases needle <;> simp
  | cons c rest ih =>
      rw [cutFrom, List.infix_cons_iff]
      cases dropped : dropPrefix? needle (c :: rest) with
      | some after =>
          have starts : needle <+: c :: rest :=
            ⟨after, (dropPrefix?_eq_some_iff.mp dropped).symm⟩
          simp [starts]
      | none =>
          have startsNot : ¬needle <+: c :: rest :=
            dropPrefix?_eq_none_iff.mp dropped
          simp only [ih, startsNot, false_or]

theorem occursIn_iff {needle text : List Char} :
    occursIn needle text = true ↔ needle <:+: text :=
  isSome_cutFrom_iff

/-- A text without a separator ends what follows the separator or nothing. -/
theorem endsWith_append_cons {ending before after : List Char}
    {separator : Char} (free : separator ∉ ending) :
    endsWith ending (before ++ separator :: after) = endsWith ending after := by
  rw [Bool.eq_iff_iff, endsWith_iff, endsWith_iff]
  constructor
  · intro ends
    rcases List.suffix_or_suffix_of_suffix ends
      (List.suffix_append before (separator :: after)) with short | long
    · rcases List.suffix_cons_iff.mp short with equal | within
      · exact absurd (equal ▸ List.mem_cons_self) free
      · exact within
    · exact absurd (long.subset List.mem_cons_self) free
  · intro ends
    exact ends.trans ((List.suffix_cons separator after).trans
      (List.suffix_append before _))

/-- A text without a mark lies on one side of the mark. -/
theorem window_cases {mark : Char} {front window back before after : List Char}
    (absent : mark ∉ window)
    (equal : front ++ (window ++ back) = before ++ mark :: after) :
    (∃ rest, before = front ++ (window ++ rest)) ∨
      ∃ rest, front = before ++ rest := by
  rcases List.append_eq_append_iff.mp equal with
    ⟨inside, rfl, parted⟩ | ⟨inside, rfl, -⟩
  · rcases List.append_eq_append_iff.mp parted with
      ⟨more, rfl, -⟩ | ⟨more, rfl, last⟩
    · exact .inl ⟨more, rfl⟩
    · cases more with
      | nil => exact .inl ⟨[], by simp⟩
      | cons c more =>
          obtain ⟨rfl, -⟩ := List.cons.inj last
          exact absurd (by simp) absent
  · exact .inr ⟨inside, rfl⟩

theorem infix_append_cons_iff {mark : Char} {window before after : List Char}
    (absent : mark ∉ window) (filled : window ≠ []) :
    window <:+: before ++ mark :: after ↔
      window <:+: before ∨ window <:+: after := by
  constructor
  · rintro ⟨front, back, equal⟩
    rw [List.append_assoc] at equal
    rcases window_cases absent equal with ⟨rest, rfl⟩ | ⟨rest, rfl⟩
    · exact .inl ⟨front, rest, by simp⟩
    · rw [List.append_assoc, List.append_cancel_left_eq] at equal
      cases rest with
      | nil =>
          obtain ⟨c, window, rfl⟩ := List.exists_cons_of_ne_nil filled
          obtain ⟨rfl, -⟩ := List.cons.inj equal
          exact absurd List.mem_cons_self absent
      | cons c rest =>
          obtain ⟨-, rfl⟩ := List.cons.inj equal
          exact .inr ⟨rest, back, by simp⟩
  · rintro (within | within)
    · exact within.trans (List.prefix_append before _).isInfix
    · exact within.trans ((List.suffix_cons mark after).trans
        (List.suffix_append before _)).isInfix

/-- Two characters next to each other stand in one of two texts or where the
texts meet. -/
theorem pair_infix_append_iff {x y : Char} {before after : List Char} :
    [x, y] <:+: before ++ after ↔
      [x, y] <:+: before ∨ [x, y] <:+: after ∨
        before.getLast? = some x ∧ after.head? = some y := by
  induction before with
  | nil => simp
  | cons c before ih =>
      rw [List.cons_append, List.infix_cons_iff, List.infix_cons_iff, ih]
      cases before with
      | nil =>
          have meets : [x, y] <+: c :: after ↔
              some c = some x ∧ after.head? = some y := by
            cases after <;> simp [eq_comm]
          simp [meets, or_comm]
      | cons d before => simp [or_assoc]

/-- A text with at most one mark inside occurs on one side of a section between
two marks, the marks included. -/
theorem infix_section_iff {needle : List Char} {mark : Char}
    (before inner after : List Char)
    (few : needle.tail.dropLast.count mark ≤ 1) :
    needle <:+: before ++ (mark :: inner ++ mark :: after) ↔
      needle <:+: before ++ (mark :: inner ++ [mark]) ∨
        needle <:+: mark :: inner ++ mark :: after := by
  constructor
  · rintro ⟨front, back, equal⟩
    rw [List.append_assoc] at equal
    rcases List.append_eq_append_iff.mp equal with
      ⟨inside, rfl, rest⟩ | ⟨inside, rfl, rest⟩
    · cases inside with
      | nil => exact Or.inr ⟨[], back, by simpa using rest⟩
      | cons c inside =>
          -- The occurrence starts before the section, so it ends inside it.
          have rest : needle ++ back =
              (c :: inside ++ (mark :: inner ++ [mark])) ++ after := by
            simpa using rest
          rcases List.append_eq_append_iff.mp rest with
            ⟨left, whole, -⟩ | ⟨beyond, whole, -⟩
          · exact Or.inl ⟨front, left, by simp [← whole]⟩
          · cases beyond with
            | nil => exact Or.inl ⟨front, [], by simp [whole]⟩
            | cons d beyond =>
                exfalso
                have shape : needle.tail.dropLast =
                    inside ++ (mark :: inner ++ [mark]) ++
                      (d :: beyond).dropLast := by
                  rw [whole, List.cons_append, List.cons_append,
                    List.tail_cons, List.dropLast_append_of_ne_nil (by simp)]
                rw [shape, List.count_append, List.count_append,
                  List.count_append, List.count_cons_self,
                  List.count_singleton_self] at few
                omega
    · exact Or.inr ⟨inside, back, by simp [rest]⟩
  · rintro (⟨front, back, equal⟩ | within)
    · refine ⟨front, back ++ after, ?_⟩
      rw [← List.append_assoc, equal]
      simp
    · exact within.trans (List.suffix_append before _).isInfix

end Occurrences

section Cutting

variable {needle before after text : List Char} {c : Char}

/-- A text is cut at an occurrence that has none before it. -/
theorem cutFrom_append {passed : List Char}
    (lacks : ¬needle <:+: before ++ needle.dropLast) :
    cutFrom needle passed (before ++ (needle ++ after)) =
      some (passed.reverse ++ before, after) := by
  induction before generalizing passed with
  | nil =>
      rw [List.nil_append, List.append_nil]
      cases needle with
      | nil => cases after <;> rfl
      | cons c needle =>
          have found : dropPrefix? (c :: needle) (c :: (needle ++ after)) =
              some after := dropPrefix?_eq_some_iff.mpr rfl
          rw [List.cons_append, cutFrom, found]
  | cons c before ih =>
      have refused : dropPrefix? needle (c :: (before ++ (needle ++ after))) =
          none := by
        refine dropPrefix?_eq_none_iff.mpr fun starts => ?_
        have within : c :: before ++ needle.dropLast <+:
            c :: (before ++ (needle ++ after)) := by
          rw [← List.cons_append, List.prefix_append_right_inj]
          exact (List.dropLast_prefix needle).trans (List.prefix_append _ _)
        refine lacks (List.prefix_of_prefix_length_le starts within ?_).isInfix
        simp
        omega
      rw [List.cons_append, cutFrom, refused]
      dsimp only
      rw [ih fun holds => lacks (holds.trans (List.suffix_cons c _).isInfix)]
      simp

theorem cut_append (lacks : ¬needle <:+: before ++ needle.dropLast) :
    cut needle (before ++ (needle ++ after)) = some (before, after) :=
  cutFrom_append lacks

theorem cut_eq_none_iff : cut needle text = none ↔ ¬needle <:+: text := by
  rw [← occursIn_iff, occursIn, Bool.not_eq_true, Option.isSome_eq_false_iff,
    Option.isNone_iff_eq_none]

theorem beforeFirst_append (lacks : ¬needle <:+: before ++ needle.dropLast) :
    beforeFirst needle (before ++ (needle ++ after)) = before := by
  rw [beforeFirst, cut_append lacks]

theorem beforeFirst_eq_self (lacks : ¬needle <:+: text) :
    beforeFirst needle text = text := by
  rw [beforeFirst, cut_eq_none_iff.mpr lacks]

/-- A text that occurs has a first occurrence. -/
theorem exists_first_of_infix (filled : needle ≠ [])
    (holds : needle <:+: text) :
    ∃ before after, text = before ++ (needle ++ after) ∧
      ¬needle <:+: before ++ needle.dropLast := by
  obtain ⟨before, after, split⟩ := holds
  rw [List.append_assoc] at split
  induction measured : before.length using Nat.strongRecOn
      generalizing before after with
  | _ length ih =>
      by_cases again : needle <:+: before ++ needle.dropLast
      · obtain ⟨front, back, equal⟩ := again
        have last : needle.dropLast <+: needle := List.dropLast_prefix needle
        obtain ⟨rest, whole⟩ := last
        refine ih front.length ?_ front (back ++ rest ++ after) ?_ rfl
        · have lengths := congrArg List.length equal
          have some := List.length_pos_iff.mpr filled
          simp at lengths
          omega
        · calc front ++ (needle ++ (back ++ rest ++ after))
              = (front ++ needle ++ back) ++ (rest ++ after) := by simp
            _ = before ++ ((needle.dropLast ++ rest) ++ after) := by
                rw [equal]; simp
            _ = text := by rw [whole, split]
      · exact ⟨before, after, split.symm, again⟩

theorem beforeFirst_isPrefix (needle text : List Char) :
    beforeFirst needle text <+: text := by
  by_cases filled : needle = []
  · subst filled
    have nothing : beforeFirst [] text = [] := by cases text <;> rfl
    rw [nothing]
    exact List.nil_prefix
  by_cases holds : needle <:+: text
  · obtain ⟨before, after, rfl, lacks⟩ := exists_first_of_infix filled holds
    rw [beforeFirst_append lacks]
    exact List.prefix_append before _
  · simp only [beforeFirst_eq_self holds, List.prefix_rfl]

/-- What follows an occurrence does not change what is before the first. -/
theorem beforeFirst_append_of_infix (filled : needle ≠ [])
    (holds : needle <:+: text) (more : List Char) :
    beforeFirst needle (text ++ more) = beforeFirst needle text := by
  obtain ⟨before, after, rfl, lacks⟩ := exists_first_of_infix filled holds
  rw [beforeFirst_append lacks, List.append_assoc, List.append_assoc,
    beforeFirst_append lacks]

/-- What occurs in a text with a character that it has at its end only ends
with that character or stands behind it. -/
theorem infix_append_cons_cases (ends : c ∉ needle.dropLast)
    (holds : needle <:+: before ++ c :: after) :
    needle <:+: before ++ [c] ∨ needle <:+: after := by
  obtain ⟨front, back, equal⟩ := holds
  rcases List.append_eq_append_iff.mp equal with
    ⟨between, rfl, split⟩ | ⟨between, whole, split⟩
  · exact .inl ⟨front, between ++ [c], by simp⟩
  · cases between with
    | nil =>
        obtain rfl : front ++ needle = before := by simpa using whole
        exact .inl ⟨front, [c], by simp⟩
    | cons d between =>
        obtain ⟨rfl, rfl⟩ := List.cons.inj split
        rcases List.append_eq_append_iff.mp whole with
          ⟨inner, rfl, rfl⟩ | ⟨inner, rfl, rest⟩
        · cases between with
          | nil => exact .inl ⟨front, [], by simp⟩
          | cons e between =>
              refine absurd ?_ ends
              rw [List.dropLast_append_of_ne_nil (by simp)]
              simp
        · cases inner with
          | nil =>
              obtain rfl : c :: between = needle := by simpa using rest
              cases between with
              | nil => exact .inl ⟨before, [], by simp⟩
              | cons e between => exact absurd (by simp) ends
          | cons e inner =>
              obtain ⟨-, rfl⟩ := List.cons.inj rest
              exact .inr ⟨inner, back, by simp⟩

/-- A cut behind a character that is not inside of what is searched for. -/
theorem beforeFirst_append_cons (ends : c ∉ needle.dropLast)
    (lacks : ¬needle <:+: before ++ [c]) :
    beforeFirst needle (before ++ c :: after) =
      before ++ c :: beforeFirst needle after := by
  have filled : needle ≠ [] := by
    rintro rfl
    exact lacks List.nil_infix
  by_cases holds : needle <:+: after
  · obtain ⟨front, back, rfl, first⟩ := exists_first_of_infix filled holds
    have whole : ¬needle <:+: before ++ c :: front ++ needle.dropLast := by
      intro occurs
      rw [List.append_assoc, List.cons_append] at occurs
      exact (infix_append_cons_cases ends occurs).elim lacks first
    rw [beforeFirst_append first, ← List.cons_append, ← List.append_assoc,
      beforeFirst_append whole]
  · have whole : ¬needle <:+: before ++ c :: after := fun occurs =>
      (infix_append_cons_cases ends occurs).elim lacks holds
    rw [beforeFirst_eq_self holds, beforeFirst_eq_self whole]

end Cutting

end ArchSurvey.Text
