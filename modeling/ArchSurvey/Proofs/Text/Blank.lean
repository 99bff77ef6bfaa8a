import ArchSurvey.Proofs.Text.Split
import ArchSurvey.Text.LetterCase
import Mathlib.Data.List.TakeWhile

/-!
# Laws of characters

What is claimed of all characters of a class is checked over their codes.  White
space is no part of words and has no case.  It separates the runs that `words`
finds, and trimming takes it away at the ends of a text.
-/

namespace ArchSurvey.Text

/-! ## Characters of ASCII -/

theorem toNat_lt_of_isAsciiAlphanumeric {c : Char}
    (plain : isAsciiAlphanumeric c = true) : c.toNat < 128 := by
  simp only [isAsciiAlphanumeric, Bool.or_eq_true, Bool.and_eq_true,
    decide_eq_true_eq, Char.le_def, UInt32.le_iff_toNat_le] at plain
  rcases plain with (⟨-, most⟩ | ⟨-, most⟩) | ⟨-, most⟩
  · exact Nat.lt_of_le_of_lt most (by decide)
  · exact Nat.lt_of_le_of_lt most (by decide)
  · exact Nat.lt_of_le_of_lt most (by decide)

theorem forall_ascii (property : Char → Prop)
    (each : ∀ code < 128, property (Char.ofNat code)) {c : Char}
    (ascii : c.toNat < 128) : property c := by
  have here := each c.toNat ascii
  rwa [Char.ofNat_toNat] at here

/-! ## Blank characters -/

/-- The code points of blank characters. -/
def blankCodes : List Nat :=
  [9, 10, 11, 12, 13, 32, 0x85, 0xA0, 0x1680, 0x2000, 0x2001, 0x2002, 0x2003,
    0x2004, 0x2005, 0x2006, 0x2007, 0x2008, 0x2009, 0x200A, 0x2028, 0x2029,
    0x202F, 0x205F, 0x3000]

theorem toNat_mem_blankCodes {c : Char} (white : isBlank c = true) :
    c.toNat ∈ blankCodes := by
  simp only [isBlank, Bool.or_eq_true, Bool.and_eq_true, decide_eq_true_eq,
    beq_iff_eq] at white
  simp only [blankCodes, List.mem_cons, List.not_mem_nil, or_false]
  omega

theorem forall_blank (property : Char → Prop)
    (each : ∀ code ∈ blankCodes, property (Char.ofNat code)) {c : Char}
    (white : isBlank c = true) : property c := by
  have here := each c.toNat (toNat_mem_blankCodes white)
  rwa [Char.ofNat_toNat] at here

theorem isWordChar_of_isBlank {c : Char} (white : isBlank c = true) :
    isWordChar c = false :=
  forall_blank (isWordChar · = false) (by decide +kernel) white

theorem isBlank_of_isWordChar {c : Char} (member : isWordChar c = true) :
    isBlank c = false := by
  cases white : isBlank c with
  | false => rfl
  | true =>
      rw [isWordChar_of_isBlank white] at member
      cases member

theorem upperChar_of_isBlank {c : Char} (white : isBlank c = true) :
    upperChar c = [c] :=
  forall_blank (fun c => upperChar c = [c]) (by decide +kernel) white

/-- Blank characters are no punctuation. -/
theorem ne_of_isBlank {c mark : Char} (white : isBlank c = true)
    (solid : isBlank mark = false) : c ≠ mark := by
  rintro rfl
  simp [white] at solid

section Words

variable {gap : List Char}

theorem wordsFrom_append {c : Char} (white : isBlank c = true)
    (word before after : List Char) :
    wordsFrom word (before ++ c :: after) =
      wordsFrom word before ++ words after := by
  induction before generalizing word with
  | nil =>
      simp only [List.nil_append, wordsFrom, white, if_true]
      split <;> rfl
  | cons d before ih =>
      rw [List.cons_append, wordsFrom, wordsFrom]
      split
      · split
        · exact ih []
        · rw [ih [], List.cons_append]
      · exact ih (d :: word)

theorem words_gap_append (white : ∀ c ∈ gap, isBlank c = true)
    (text : List Char) : words (gap ++ text) = words text := by
  induction gap with
  | nil => rfl
  | cons c gap ih =>
      have here : isBlank c = true := white c List.mem_cons_self
      have later := ih fun d member => white d (List.mem_cons_of_mem c member)
      rw [words, List.cons_append, wordsFrom, if_pos here]
      exact later

/-- White space separates words. -/
theorem words_append_space (filled : gap ≠ [])
    (white : ∀ c ∈ gap, isBlank c = true) (before after : List Char) :
    words (before ++ gap ++ after) = words before ++ words after := by
  obtain ⟨c, rest, rfl⟩ := List.exists_cons_of_ne_nil filled
  have here : isBlank c = true := white c List.mem_cons_self
  have others : ∀ d ∈ rest, isBlank d = true :=
    fun d member => white d (List.mem_cons_of_mem c member)
  rw [List.append_assoc, List.cons_append, words, wordsFrom_append here,
    words_gap_append others]
  rfl

theorem words_append_gap (white : ∀ c ∈ gap, isBlank c = true)
    (text : List Char) : words (text ++ gap) = words text := by
  by_cases filled : gap = []
  · rw [filled, List.append_nil]
  · have parted := words_append_space filled white text []
    rw [List.append_nil] at parted
    rw [parted]
    exact List.append_nil _

theorem wordsFrom_solid {text : List Char}
    (solid : ∀ c ∈ text, isBlank c = false) {word : List Char}
    (filled : word ++ text ≠ []) :
    wordsFrom word text = [word.reverse ++ text] := by
  induction text generalizing word with
  | nil =>
      have begun : word ≠ [] := by simpa using filled
      simp [wordsFrom, begun]
  | cons c text ih =>
      have here : isBlank c = false := solid c List.mem_cons_self
      rw [wordsFrom, here, if_neg (by decide : ¬false = true),
        ih (fun d member => solid d (List.mem_cons_of_mem c member))
          (by simp)]
      simp

theorem words_solid {text : List Char} (filled : text ≠ [])
    (solid : ∀ c ∈ text, isBlank c = false) : words text = [text] := by
  rw [words, wordsFrom_solid solid (by simpa using filled)]
  rfl

end Words

/-- The text begins with a character that is not blank. -/
def Starts (text : List Char) : Prop :=
  ∃ c ∈ text.head?, isBlank c = false

/-- The text ends with a character that is not blank. -/
def Ends (text : List Char) : Prop :=
  ∃ c ∈ text.getLast?, isBlank c = false

-- One character is looked at, not all that there are.
instance : DecidablePred Starts := fun _ => Option.decidableExistsMem _

instance : DecidablePred Ends := fun _ => Option.decidableExistsMem _

section Bounds

variable {before after text : List Char}

theorem Starts.append (starts : Starts before) : Starts (before ++ after) := by
  obtain ⟨c, first, solid⟩ := starts
  refine ⟨c, ?_, solid⟩
  simp only [Option.mem_def] at first ⊢
  simp [first]

theorem Ends.append (ends : Ends after) : Ends (before ++ after) := by
  obtain ⟨c, last, solid⟩ := ends
  refine ⟨c, ?_, solid⟩
  simp only [Option.mem_def] at last ⊢
  simp [last]

theorem Ends.of_append (ends : Ends (before ++ after)) (filled : after ≠ []) :
    Ends after := by
  obtain ⟨c, last, solid⟩ := ends
  rw [List.getLast?_append, List.getLast?_eq_some_getLast filled] at last
  exact ⟨c, by rwa [List.getLast?_eq_some_getLast filled], solid⟩

theorem starts_of_solid (filled : text ≠ [])
    (solid : ∀ c ∈ text, isBlank c = false) : Starts text := by
  refine ⟨text.head filled, by simp [List.head?_eq_some_head filled], ?_⟩
  exact solid _ (List.head_mem filled)

theorem ends_of_solid (filled : text ≠ [])
    (solid : ∀ c ∈ text, isBlank c = false) : Ends text := by
  refine ⟨text.getLast filled, by simp [List.getLast?_eq_some_getLast filled],
    ?_⟩
  exact solid _ (List.getLast_mem filled)

theorem Starts.filled (starts : Starts text) : text ≠ [] := by
  obtain ⟨c, first, -⟩ := starts
  rintro rfl
  simp at first

theorem Ends.filled (ends : Ends text) : text ≠ [] := by
  obtain ⟨c, last, -⟩ := ends
  rintro rfl
  simp at last

theorem Starts.head (starts : Starts text) :
    ∀ c ∈ text.head?, isBlank c = false := by
  obtain ⟨c, first, solid⟩ := starts
  intro d member
  simp only [Option.mem_def] at first member
  rw [first, Option.some.injEq] at member
  exact member ▸ solid

theorem Starts.isAllBlank (starts : Starts text) :
    isAllBlank (before ++ text ++ after) = false := by
  obtain ⟨c, first, solid⟩ := starts
  have member : c ∈ text := List.mem_of_mem_head? first
  rw [ArchSurvey.Text.isAllBlank, List.all_eq_false]
  exact ⟨c, by simp [member], by simp [solid]⟩

theorem trimWhile_append_left {p : Char → Bool}
    (front : ∀ c ∈ before, p c = true) :
    trimWhile p (before ++ text) = trimWhile p text := by
  rw [trimWhile, List.dropWhile_append_of_pos front]
  rfl

theorem trimWhile_append_right {p : Char → Bool}
    (back : ∀ c ∈ after, p c = true) :
    trimWhile p (text ++ after) = trimWhile p text := by
  rw [trimWhile, trimWhile, List.dropWhile_append]
  split
  · rename_i empty
    have gone : after.dropWhile p = [] := List.dropWhile_eq_nil_iff.mpr back
    rw [List.isEmpty_iff.mp empty, gone]
  · rw [dropEndWhile, List.reverse_append,
      List.dropWhile_append_of_pos (by simpa using back)]
    rfl

theorem trimWhile_eq_self {p : Char → Bool}
    (first : ∃ c ∈ text.head?, p c = false)
    (last : ∃ c ∈ text.getLast?, p c = false) : trimWhile p text = text := by
  obtain ⟨c, head, keptFirst⟩ := first
  obtain ⟨d, tail, keptLast⟩ := last
  obtain ⟨rest, rfl⟩ := List.head?_eq_some_iff.mp head
  have reversed : (c :: rest).reverse.head? = some d := by
    rw [List.head?_reverse]
    exact tail
  obtain ⟨others, equal⟩ := List.head?_eq_some_iff.mp reversed
  rw [trimWhile, List.dropWhile_cons_of_neg (by simp [keptFirst]),
    dropEndWhile, equal, List.dropWhile_cons_of_neg (by simp [keptLast]),
    ← equal, List.reverse_reverse]

theorem trimWhile_append {p : Char → Bool}
    (front : ∀ c ∈ before, p c = true) (back : ∀ c ∈ after, p c = true)
    (first : ∃ c ∈ text.head?, p c = false)
    (last : ∃ c ∈ text.getLast?, p c = false) :
    trimWhile p (before ++ text ++ after) = text := by
  rw [trimWhile_append_right back, trimWhile_append_left front,
    trimWhile_eq_self first last]

/-- Trimming takes away the white space around a text. -/
theorem trim_append (front : ∀ c ∈ before, isBlank c = true)
    (back : ∀ c ∈ after, isBlank c = true) (starts : Starts text)
    (ends : Ends text) : trim (before ++ text ++ after) = text :=
  trimWhile_append front back starts ends

theorem trim_eq_self (starts : Starts text) (ends : Ends text) :
    trim text = text := by
  have trimmed : trim ([] ++ text ++ []) = text :=
    trim_append (by simp) (by simp) starts ends
  simpa using trimmed

/-- A text with single spaces is the text of its words. -/
theorem joinWith_wordsFrom {word : List Char}
    (spaces : ∀ c ∈ text, isBlank c = true → c = ' ')
    (single : ¬[' ', ' '] <:+: text)
    (starts : word = [] → text = [] ∨ Starts text)
    (ends : text = [] ∨ Ends text) :
    joinWith [' '] (wordsFrom word text) = word.reverse ++ text := by
  induction text generalizing word with
  | nil => by_cases begun : word = [] <;> simp [wordsFrom, begun, joinWith]
  | cons c text ih =>
      have later : ∀ d ∈ text, isBlank d = true → d = ' ' := fun d member =>
        spaces d (List.mem_cons_of_mem c member)
      rw [List.infix_cons_iff, not_or] at single
      have endsToo : text = [] ∨ Ends text := by
        obtain impossible | ⟨d, last, solid⟩ := ends
        · cases impossible
        · by_cases empty : text = []
          · exact .inl empty
          · rw [List.getLast?_cons_of_ne_nil empty] at last
            exact .inr ⟨d, last, solid⟩
      cases white : isBlank c with
      | false =>
          rw [wordsFrom, white, if_neg (by decide : ¬false = true),
            ih later single.2 (by simp) endsToo]
          simp
      | true =>
          have space : c = ' ' := spaces c List.mem_cons_self white
          have begun : word ≠ [] := by
            intro empty
            rcases starts empty with impossible | solid
            · cases impossible
            · rw [solid.head c rfl] at white
              cases white
          have more : Ends text := by
            obtain impossible | ⟨d, last, solid⟩ := ends
            · cases impossible
            · by_cases empty : text = []
              · subst empty
                simp only [List.getLast?_singleton, Option.mem_def,
                  Option.some.injEq] at last
                rw [last, solid] at white
                cases white
              · rw [List.getLast?_cons_of_ne_nil empty] at last
                exact ⟨d, last, solid⟩
          have fresh : Starts text := by
            obtain ⟨d, rest, rfl⟩ := List.exists_cons_of_ne_nil more.filled
            refine ⟨d, rfl, ?_⟩
            cases blank : isBlank d with
            | false => rfl
            | true =>
                have again : d = ' ' := later d List.mem_cons_self blank
                exact absurd ⟨rest, by simp [space, again]⟩ single.1
          have tail : joinWith [' '] (wordsFrom [] text) = text :=
            ih later single.2 (fun _ => .inr fresh) (.inr more)
          have filled : wordsFrom [] text ≠ [] := by
            intro empty
            rw [empty] at tail
            exact fresh.filled (by simpa [joinWith] using tail.symm)
          rw [wordsFrom, if_pos white, List.isEmpty_eq_false_iff.mpr begun,
            if_neg (by decide : ¬false = true), joinWith_cons filled, tail]
          simp [space]

theorem joinWith_words (spaces : ∀ c ∈ text, isBlank c = true → c = ' ')
    (single : ¬[' ', ' '] <:+: text) (starts : Starts text)
    (ends : Ends text) : joinWith [' '] (words text) = text := by
  rw [words, joinWith_wordsFrom spaces single (fun _ => .inr starts)
    (.inr ends)]
  rfl

end Bounds

section Trimming

variable {p : Char → Bool} {mark : Char} {needle text : List Char}

theorem dropWhile_append_mark (refused : p mark = false)
    (text tail : List Char) :
    (text ++ mark :: tail).dropWhile p = text.dropWhile p ++ mark :: tail := by
  induction text with
  | nil => simp [refused]
  | cons c text ih => by_cases passes : p c = true <;> simp [passes, ih]

/-- Trimming does not reach beyond a character that is not blank. -/
theorem trim_append_mark (solid : isBlank mark = false)
    (text tail : List Char) :
    trim (text ++ mark :: tail) = trimStart text ++ mark :: trimEnd tail := by
  rw [trim, trimWhile, dropWhile_append_mark solid, dropEndWhile,
    List.reverse_append, List.reverse_cons, List.append_assoc,
    List.singleton_append, dropWhile_append_mark solid, List.reverse_append,
    List.reverse_cons, List.reverse_reverse, List.append_assoc]
  rfl

/-- A text is what is left of it by trimming its end, and white space. -/
theorem exists_trimEnd (text : List Char) :
    ∃ gap, (∀ c ∈ gap, isBlank c = true) ∧ text = trimEnd text ++ gap ∧
      (trimEnd text = [] ∨ Ends (trimEnd text)) := by
  refine ⟨(text.reverse.takeWhile isBlank).reverse, ?_, ?_, ?_⟩
  · intro c member
    exact List.mem_takeWhile_imp (List.mem_reverse.mp member)
  · rw [trimEnd, dropEndWhile, ← List.reverse_append,
      List.takeWhile_append_dropWhile, List.reverse_reverse]
  · rw [trimEnd, dropEndWhile]
    cases left : text.reverse.dropWhile isBlank with
    | nil => exact .inl rfl
    | cons c rest =>
        refine .inr ⟨c, by simp, ?_⟩
        have head := List.head?_dropWhile_not isBlank text.reverse
        simpa [left] using head

/-- A text is what is left of it by trimming, between white space. -/
theorem exists_trim (text : List Char) :
    ∃ front back, (∀ c ∈ front, isBlank c = true) ∧
      (∀ c ∈ back, isBlank c = true) ∧
      text = front ++ (trim text ++ back) := by
  obtain ⟨gap, white, split, -⟩ := exists_trimEnd (trimStart text)
  refine ⟨text.takeWhile isBlank, gap,
    fun c member => List.mem_takeWhile_imp member, white, ?_⟩
  have left : trim text ++ gap = trimStart text := split.symm
  rw [left]
  exact List.takeWhile_append_dropWhile.symm

/-- A cut behind a character that is not blank, and the trimming of what is
left. -/
theorem exists_trim_beforeFirst {before : List Char}
    (solid : isBlank mark = false) (ends : mark ∉ needle.dropLast)
    (lacks : ¬needle <:+: before ++ [mark]) (after : List Char) :
    ∃ rest, rest <+: after ∧ (rest = [] ∨ Ends rest) ∧
      trim (beforeFirst needle (before ++ mark :: after)) =
        trimStart before ++ mark :: rest := by
  obtain ⟨gap, -, split, last⟩ := exists_trimEnd (beforeFirst needle after)
  refine ⟨trimEnd (beforeFirst needle after), ?_, last, ?_⟩
  · have kept : trimEnd (beforeFirst needle after) <+:
        beforeFirst needle after := ⟨gap, split.symm⟩
    exact kept.trans (beforeFirst_isPrefix needle after)
  · rw [beforeFirst_append_cons ends lacks, trim_append_mark solid]

theorem infix_dropWhile (filled : needle ≠ [])
    (kept : ∀ c ∈ needle, p c = false) (holds : needle <:+: text) :
    needle <:+: text.dropWhile p := by
  induction text with
  | nil => exact holds
  | cons c text ih =>
      rw [List.dropWhile_cons]
      split
      · rename_i dropped
        rcases List.infix_cons_iff.mp holds with starts | within
        · obtain ⟨d, needle, rfl⟩ := List.exists_cons_of_ne_nil filled
          obtain ⟨rfl, -⟩ := List.cons_prefix_cons.mp starts
          simp [kept d List.mem_cons_self] at dropped
        · exact ih within
      · exact holds

/-- Trimming keeps what has nothing that is trimmed. -/
theorem infix_trimWhile (filled : needle ≠ [])
    (kept : ∀ c ∈ needle, p c = false) (holds : needle <:+: text) :
    needle <:+: trimWhile p text := by
  have front := infix_dropWhile filled kept holds
  have back := @infix_dropWhile p _ _ (List.reverse_ne_nil_iff.mpr filled)
    (fun c member => kept c (List.mem_reverse.mp member))
    (List.reverse_infix.mpr front)
  rw [trimWhile, dropEndWhile, ← List.reverse_infix, List.reverse_reverse]
  exact back

end Trimming

end ArchSurvey.Text
