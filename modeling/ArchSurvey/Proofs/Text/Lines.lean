import ArchSurvey.Proofs.Text.Blank
import Mathlib.Data.List.Basic

/-!
# Laws of lines

A text that is put together from lines is read back as these lines, but for the
carriage returns at their ends and an empty last one.  A reader that trims its
lines and passes over empty ones does not see the difference, so a run of it
over the text is a run over the lines that were put together.
-/

namespace ArchSurvey.Text

section Pieces

variable {separator : Char} {pieces : List (List Char)}

theorem splitOn_joinWith (filled : pieces ≠ []) :
    splitOn separator (joinWith [separator] pieces) =
      pieces.flatMap (splitOn separator) := by
  induction pieces with
  | nil => exact absurd rfl filled
  | cons piece pieces ih =>
      by_cases last : pieces = []
      · simp [last, joinWith_singleton]
      · rw [joinWith_cons last, List.append_assoc, List.singleton_append,
          splitOn, splitWhen_append_cons (by simp), ← splitOn, ← splitOn,
          ih last, List.flatMap_cons]

theorem splitOn_eq_singleton {piece : List Char} (absent : separator ∉ piece) :
    splitOn separator piece = [piece] :=
  splitWhen_eq_singleton fun c member => by
    have different : c ≠ separator := fun same => absent (same ▸ member)
    simpa using different

theorem splitOn_joinWith_of_absent (filled : pieces ≠ [])
    (absent : ∀ piece ∈ pieces, separator ∉ piece) :
    splitOn separator (joinWith [separator] pieces) = pieces := by
  rw [splitOn_joinWith filled, List.flatMap_congr fun piece member =>
    splitOn_eq_singleton (absent piece member), List.flatMap_singleton']

end Pieces

/-- The lines of a text are the pieces between its line feeds, without carriage
returns in front of them and without an empty piece behind the last one. -/
theorem exists_lines (text : List Char) :
    ∃ front last, splitOn '\n' text = front ++ [last] ∧
      lines text =
        front.map dropReturn ++ if last = [] then [] else [last] := by
  have filled : splitOn '\n' text ≠ [] := splitFrom_ne_nil _ [] text
  refine ⟨(splitOn '\n' text).dropLast, (splitOn '\n' text).getLast filled,
    (List.dropLast_concat_getLast filled).symm, ?_⟩
  rw [lines, List.getLast?_eq_some_getLast filled]
  cases (splitOn '\n' text).getLast filled <;> simp

theorem lines_append_cons (before after : List Char) :
    lines (before ++ '\n' :: after) =
      (splitOn '\n' before).map dropReturn ++ lines after := by
  have pieces : splitOn '\n' (before ++ '\n' :: after) =
      splitOn '\n' before ++ splitOn '\n' after :=
    splitWhen_append_cons (by simp) before after
  have filled : splitOn '\n' after ≠ [] := splitFrom_ne_nil _ [] after
  rw [lines, lines, pieces, List.dropLast_append_of_ne_nil filled,
    List.getLast?_append, List.getLast?_eq_some_getLast filled, Option.some_or]
  cases (splitOn '\n' after).getLast filled <;> simp

theorem exists_dropReturn (line : List Char) :
    dropReturn line = line ∨ line = dropReturn line ++ ['\r'] := by
  rw [dropReturn]
  split
  · rename_i rest returns
    right
    rw [← List.reverse_reverse line, returns, List.reverse_cons]
  · exact .inl rfl

theorem trim_dropReturn (line : List Char) :
    trim (dropReturn line) = trim line := by
  rcases exists_dropReturn line with same | returns
  · rw [same]
  · rw [trim, trim, returns, trimWhile_append_right (by decide), ← returns]

/-- A reader that finds nothing in empty lines and does not mind carriage
returns finds in the lines what it finds in the pieces between line feeds. -/
theorem flatMap_lines {α : Type} {read : List Char → List α}
    (returns : ∀ line, read (dropReturn line) = read line)
    (blank : read [] = []) (text : List Char) :
    (lines text).flatMap read = (splitOn '\n' text).flatMap read := by
  obtain ⟨front, last, pieces, shape⟩ := exists_lines text
  rw [pieces, shape, List.flatMap_append, List.flatMap_append, List.flatMap_map]
  simp only [returns]
  split
  · rename_i empty
    simp [empty, blank]
  · rfl

/-- A text up to its first line feed. -/
def firstLine (text : List Char) : List Char :=
  text.takeWhile (· != '\n')

theorem firstLine_append {before after : List Char} (inLine : '\n' ∉ before) :
    firstLine (before ++ after) = before ++ firstLine after := by
  refine List.takeWhile_append_of_pos fun c member => ?_
  have other : c ≠ '\n' := fun same => inLine (same ▸ member)
  simpa using other

theorem firstLine_eq_self {text : List Char} (inLine : '\n' ∉ text) :
    firstLine text = text := by
  simpa [firstLine] using @firstLine_append text [] inLine

theorem not_mem_firstLine (text : List Char) : '\n' ∉ firstLine text := by
  intro member
  have other := List.mem_takeWhile_imp member
  simp at other

/-- White space inside a line. -/
def IsGap (gap : List Char) : Prop :=
  ∀ c ∈ gap, isBlank c = true ∧ c ≠ '\n'

instance : DecidablePred IsGap := fun _ =>
  inferInstanceAs (Decidable (∀ _ ∈ _, _ ∧ _))

section Gaps

variable {gap text : List Char}

theorem isGap_nil : IsGap [] := by
  simp [IsGap]

theorem IsGap.blank (isGap : IsGap gap) : ∀ c ∈ gap, isBlank c = true :=
  fun c member => (isGap c member).1

theorem IsGap.inLine (isGap : IsGap gap) : '\n' ∉ gap :=
  fun member => (isGap _ member).2 rfl

theorem IsGap.tail (isGap : IsGap gap) : IsGap gap.tail :=
  fun c member => isGap c (List.mem_of_mem_tail member)

/-- White space has no character that is not blank. -/
theorem IsGap.not_mem {mark : Char} (isGap : IsGap gap)
    (solid : isBlank mark = false) : mark ∉ gap :=
  fun member => ne_of_isBlank (isGap.blank _ member) solid rfl

theorem IsGap.trim_append (isGap : IsGap gap) (starts : Starts text)
    (ends : Ends text) : trim (gap ++ text) = text := by
  rw [trim, trimWhile_append_left isGap.blank]
  exact trim_eq_self starts ends

end Gaps

section Reading

variable {σ : Type} {step : σ → List Char → σ}
  (returns : ∀ state line, step state (dropReturn line) = step state line)
  (blank : ∀ state, step state [] = state)

include returns blank

/-- A reader that does not mind carriage returns and passes over empty lines
reads the pieces between line feeds. -/
theorem foldl_lines (state : σ) (text : List Char) :
    (lines text).foldl step state =
      (splitOn '\n' text).foldl step state := by
  obtain ⟨front, last, pieces, shape⟩ := exists_lines text
  rw [pieces, shape, List.foldl_append, List.foldl_append, List.foldl_map]
  simp only [returns]
  split
  · rename_i empty
    rw [empty, List.foldl_cons, List.foldl_nil, List.foldl_nil, blank]
  · rfl

theorem foldl_lines_joinWith {pieces : List (List Char)}
    (filled : pieces ≠ []) (absent : ∀ piece ∈ pieces, '\n' ∉ piece)
    (state : σ) :
    (lines (joinWith ['\n'] pieces)).foldl step state =
      pieces.foldl step state := by
  rw [foldl_lines returns blank, splitOn_joinWith_of_absent filled absent]

end Reading

end ArchSurvey.Text
