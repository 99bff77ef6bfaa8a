import ArchSurvey.Proofs.Text.Pattern
import ArchSurvey.Text.Split

/-!
# Images of texts

A function that only tests characters commutes with every change of the
characters that the tests do not notice.  Hence the text is trimmed, split and
searched in the same places before and after such a change.
-/

namespace ArchSurvey.Text

variable {f : Char → Char}

section Trimming

variable {p : Char → Bool}

theorem dropWhile_image (same : ∀ c, p (f c) = p c) (text : List Char) :
    (text.map f).dropWhile p = (text.dropWhile p).map f := by
  have equal : p ∘ f = p := funext same
  rw [List.dropWhile_map, equal]

theorem takeWhile_image (same : ∀ c, p (f c) = p c) (text : List Char) :
    (text.map f).takeWhile p = (text.takeWhile p).map f := by
  have equal : p ∘ f = p := funext same
  rw [List.takeWhile_map, equal]

theorem trimWhile_image (same : ∀ c, p (f c) = p c) (text : List Char) :
    trimWhile p (text.map f) = (trimWhile p text).map f := by
  rw [trimWhile, trimWhile, dropEndWhile, dropEndWhile, dropWhile_image same,
    ← List.map_reverse, dropWhile_image same, List.map_reverse]

theorem trim_image (same : ∀ c, isBlank (f c) = isBlank c)
    (text : List Char) : trim (text.map f) = (trim text).map f :=
  trimWhile_image same text

theorem trimStart_image (same : ∀ c, isBlank (f c) = isBlank c)
    (text : List Char) : trimStart (text.map f) = (trimStart text).map f :=
  dropWhile_image same text

theorem isAllBlank_image (same : ∀ c, isBlank (f c) = isBlank c)
    (text : List Char) : isAllBlank (text.map f) = isAllBlank text := by
  simp [isAllBlank, Function.comp_def, same]

end Trimming

section Splitting

theorem wordsFrom_image (same : ∀ c, isBlank (f c) = isBlank c)
    (word text : List Char) :
    wordsFrom (word.map f) (text.map f) =
      (wordsFrom word text).map (List.map f) := by
  fun_induction wordsFrom word text with
  | case1 word empty => simp [wordsFrom, List.isEmpty_iff.mp empty]
  | case2 word filled => simp [wordsFrom, filled]
  | case3 word c rest white empty ih =>
      simpa [wordsFrom, same, white, empty] using ih
  | case4 word c rest white filled ih =>
      simpa [wordsFrom, same, white, filled] using ih
  | case5 word c rest solid ih => simpa [wordsFrom, same, solid] using ih

theorem words_image (same : ∀ c, isBlank (f c) = isBlank c)
    (text : List Char) :
    words (text.map f) = (words text).map (List.map f) :=
  wordsFrom_image same [] text

theorem splitFrom_image {p : Char → Bool} (same : ∀ c, p (f c) = p c)
    (piece text : List Char) :
    splitFrom p (piece.map f) (text.map f) =
      (splitFrom p piece text).map (List.map f) := by
  fun_induction splitFrom p piece text with
  | case1 piece => simp [splitFrom]
  | case2 piece c rest hit ih => simpa [splitFrom, same, hit] using ih
  | case3 piece c rest miss ih => simpa [splitFrom, same, miss] using ih

variable {separator : Char} (same : ∀ c, (f c == separator) = (c == separator))

include same

theorem splitOn_image (text : List Char) :
    splitOn separator (text.map f) =
      (splitOn separator text).map (List.map f) :=
  splitFrom_image same [] text

theorem afterLast_image (text : List Char) :
    afterLast separator (text.map f) = (afterLast separator text).map f := by
  have different : ∀ c, (f c != separator) = (c != separator) := fun c => by
    rw [bne, bne, same]
  rw [afterLast, afterLast, ← List.map_reverse, takeWhile_image different,
    List.map_reverse]

end Splitting

namespace Pattern

section Places

/-- A place with the characters of its texts changed. -/
def Place.image (f : Char → Char) (place : Place) : Place :=
  { before := place.before.map f
    rest := place.rest.map f
    read := place.read
    groups := place.groups.map fun (number, text, length) =>
      (number, text.map f, length) }

@[simp] theorem Place.read_image (place : Place) :
    (place.image f).read = place.read := rfl

/-- An occurrence with the characters of its texts changed. -/
def Match.image (f : Char → Char) (found : Match) : Match :=
  { before := found.before.map f
    text := found.text.map f
    after := found.after.map f
    groups := found.groups.map fun (number, text) => (number, text.map f) }

theorem ending_image (passed start : List Char) (place : Place) :
    Match.ending (passed.map f) (start.map f) (place.image f) =
      (Match.ending passed start place).image f := by
  simp [Match.ending, Match.image, Place.image, Function.comp_def]

theorem group?_image (found : Match) (number : Nat) :
    (found.image f).group? number = (found.group? number).map (List.map f) := by
  obtain ⟨before, text, after, groups⟩ := found
  simp only [Match.group?, Match.image]
  induction groups with
  | nil => rfl
  | cons group groups ih =>
      obtain ⟨other, kept⟩ := group
      by_cases same : number = other
      · simp [same]
      · have different : (number == other) = false := by simpa using same
        simp [List.lookup_cons, different, ih]

@[simp] theorem group_image (found : Match) (number : Nat) :
    (found.image f).group number = (found.group number).map f := by
  rw [Match.group, Match.group, group?_image]
  cases found.group? number <;> rfl

@[simp] theorem after_image (found : Match) :
    (found.image f).after = found.after.map f := rfl

end Places

/-- No test of the pattern tells a character from its image. -/
def Overlooks (f : Char → Char) : Pattern → Prop
  | empty => True
  | char test => ∀ c, test (f c) = test c
  | seq first second => first.Overlooks f ∧ second.Overlooks f
  | alt left right => left.Overlooks f ∧ right.Overlooks f
  | star _ body => body.Overlooks f
  | group _ body => body.Overlooks f
  | textStart => True
  | textEnd => True
  | lineStart => ∀ c, (f c == '\n') = (c == '\n')
  | wordEdge => ∀ c, isWordChar (f c) = isWordChar c

section Overlooking

variable {pattern : Pattern}

/-- A pattern matches a changed text in the ways it matches the text. -/
theorem ways_image (overlooks : pattern.Overlooks f) (place : Place) :
    pattern.ways (place.image f) =
      (pattern.ways place).map (Place.image f) := by
  induction pattern generalizing place with
  | empty => rfl
  | char test =>
      obtain ⟨before, rest, read, groups⟩ := place
      cases rest with
      | nil => rfl
      | cons c rest =>
          have same : test (f c) = test c := overlooks c
          by_cases passes : test c = true <;>
            simp [ways_char, Place.image, same, passes]
  | seq first second first_ih second_ih =>
      rw [ways_seq, ways_seq, first_ih overlooks.1, List.flatMap_map,
        List.map_flatMap]
      exact List.flatMap_congr fun after _ => second_ih overlooks.2 after
  | alt left right left_ih right_ih =>
      rw [ways_alt, ways_alt, left_ih overlooks.1, right_ih overlooks.2,
        List.map_append]
  | star greedy body ih =>
      rw [ways_star, ways_star,
        roundWays_map Place.read_image (ih overlooks)]
      simp [Place.image]
  | group number body ih =>
      rw [ways_group, ways_group, ih overlooks]
      simp [Place.image]
  | textStart =>
      rw [ways_textStart, ways_textStart]
      cases start : place.before <;> simp [Place.image, start]
  | textEnd =>
      rw [ways_textEnd, ways_textEnd]
      cases rest : place.rest <;> simp [Place.image, rest]
  | lineStart =>
      have starts : ((place.image f).before.isNone ||
          (place.image f).before == some '\n') =
            (place.before.isNone || place.before == some '\n') := by
        cases start : place.before with
        | none => simp [Place.image, start]
        | some c => simpa [Place.image, start] using overlooks c
      rw [ways_lineStart, ways_lineStart, starts]
      split <;> rfl
  | wordEdge =>
      obtain ⟨before, rest, read, groups⟩ := place
      have same : ∀ c, isWordChar (f c) = isWordChar c := overlooks
      have beside : ∀ neighbour : Option Char,
          besideWord (neighbour.map f) = besideWord neighbour := by
        intro neighbour
        cases neighbour <;> simp [besideWord, same]
      rw [ways_wordEdge, ways_wordEdge]
      simp only [Place.image, List.head?_map, beside]
      split <;> rfl

theorem searchFrom_image (overlooks : pattern.Overlooks f)
    (previous : Option Char) (passed text : List Char) :
    searchFrom pattern (previous.map f) (passed.map f) (text.map f) =
      (searchFrom pattern previous passed text).map (Match.image f) := by
  have first (previous : Option Char) (text : List Char) :
      pattern.run ⟨previous.map f, text.map f, 0, []⟩ some =
        (pattern.run ⟨previous, text, 0, []⟩ some).map (Place.image f) := by
    rw [run_some, run_some, ← List.head?_map, ← ways_image overlooks]
    rfl
  induction text generalizing previous passed with
  | nil =>
      have here := first previous []
      rw [List.map_nil] at here
      rw [List.map_nil, searchFrom, searchFrom, here]
      cases pattern.run ⟨previous, [], 0, []⟩ some with
      | none => rfl
      | some place => exact congrArg some (ending_image passed [] place)
  | cons c rest ih =>
      have here := first previous (c :: rest)
      rw [List.map_cons] at here
      rw [List.map_cons, searchFrom, searchFrom, here]
      cases pattern.run ⟨previous, c :: rest, 0, []⟩ some with
      | none => exact ih (some c) (c :: passed)
      | some place => exact congrArg some (ending_image passed (c :: rest) place)

/-- A pattern is found in a changed text where it is found in the text. -/
theorem search_image (overlooks : pattern.Overlooks f) (text : List Char) :
    pattern.search (text.map f) = (pattern.search text).map (Match.image f) :=
  searchFrom_image overlooks none [] text

theorem occurs_image (overlooks : pattern.Overlooks f) (text : List Char) :
    pattern.occurs (text.map f) = pattern.occurs text := by
  rw [occurs, occurs, search_image overlooks, Option.isSome_map]

end Overlooking

section Building

variable {first second body : Pattern} {patterns : List Pattern}

@[simp] theorem overlooks_seq :
    (seq first second).Overlooks f ↔
      first.Overlooks f ∧ second.Overlooks f := Iff.rfl

@[simp] theorem overlooks_group {number : Nat} :
    (group number body).Overlooks f ↔ body.Overlooks f := Iff.rfl

@[simp] theorem overlooks_many :
    (many body).Overlooks f ↔ body.Overlooks f := Iff.rfl

@[simp] theorem overlooks_some1 :
    (some1 body).Overlooks f ↔ body.Overlooks f := and_self_iff

@[simp] theorem overlooks_fewest1 :
    (fewest1 body).Overlooks f ↔ body.Overlooks f := and_self_iff

@[simp] theorem overlooks_opt :
    (opt body).Overlooks f ↔ body.Overlooks f :=
  ⟨And.left, fun overlooks => ⟨overlooks, trivial⟩⟩

@[simp] theorem overlooks_any : any.Overlooks f := fun _ => rfl

@[simp] theorem overlooks_textStart : textStart.Overlooks f := trivial

@[simp] theorem overlooks_textEnd : textEnd.Overlooks f := trivial

@[simp] theorem overlooks_concat :
    (concat patterns).Overlooks f ↔
      ∀ pattern ∈ patterns, pattern.Overlooks f := by
  induction patterns with
  | nil => simp [concat, Overlooks]
  | cons first rest ih =>
      cases rest with
      | nil => simp [concat]
      | cons second rest => simp [concat, ih]

@[simp] theorem overlooks_oneOf :
    (oneOf patterns).Overlooks f ↔
      ∀ pattern ∈ patterns, pattern.Overlooks f := by
  induction patterns with
  | nil => simp [oneOf, Overlooks]
  | cons first rest ih =>
      cases rest with
      | nil => simp [oneOf]
      | cons second rest => simp [oneOf, Overlooks, ih]

end Building

end Pattern

end ArchSurvey.Text
