import ArchSurvey.Proofs.Text.Pattern

/-!
# Text behind a mark

A way to match reads a part of the text in front of it.  A pattern that cannot
read a mark and does not look at the end of the text matches in front of the
mark as it matches a text that ends there, whatever follows the mark
(`ways_extend`).
-/

namespace ArchSurvey.Text.Pattern

/-- The groups of a place are texts from their starts on. -/
def Place.Bounded (place : Place) : Prop :=
  ∀ entry ∈ place.groups, entry.2.2 ≤ entry.2.1.length

/-- One place comes after another one, with the text between them read. -/
structure Follows (place after : Place) : Prop where
  reads : ∃ text, place.rest = text ++ after.rest ∧
    after.read = place.read + text.length
  bounded : place.Bounded → after.Bounded

section Following

variable {place after last : Place}

theorem Follows.refl (place : Place) : Follows place place :=
  ⟨⟨[], rfl, rfl⟩, id⟩

theorem Follows.trans (one : Follows place after) (two : Follows after last) :
    Follows place last := by
  obtain ⟨text, split, read⟩ := one.reads
  obtain ⟨more, splitToo, readToo⟩ := two.reads
  refine ⟨⟨text ++ more, ?_, ?_⟩, two.bounded ∘ one.bounded⟩
  · rw [split, splitToo, List.append_assoc]
  · rw [readToo, read, List.length_append, Nat.add_assoc]

theorem follows_of_mem_roundWays {body : Place → List Place}
    (follows : ∀ place, ∀ after ∈ body place, Follows place after)
    {greedy : Bool} {fuel : Nat}
    (way : after ∈ roundWays body greedy fuel place) : Follows place after := by
  induction fuel generalizing place with
  | zero =>
      rw [roundWays, List.mem_singleton] at way
      exact way ▸ .refl after
  | succ fuel ih =>
      rcases mem_roundWays_succ.mp way with rfl | ⟨middle, round, -, others⟩
      · exact .refl after
      · exact (follows place middle round).trans (ih others)

/-- A way to match reads a part of the text. -/
theorem follows_of_mem_ways {pattern : Pattern}
    (way : after ∈ pattern.ways place) : Follows place after := by
  induction pattern generalizing place after with
  | empty =>
      rw [ways_empty, List.mem_singleton] at way
      exact way ▸ .refl after
  | char test =>
      obtain ⟨c, rest, split, -, rfl⟩ := eq_past_of_mem_ways_char way
      exact ⟨⟨[c], split, rfl⟩, id⟩
  | seq first second firstIh secondIh =>
      obtain ⟨middle, one, two⟩ := List.mem_flatMap.mp way
      exact (firstIh one).trans (secondIh two)
  | alt left right leftIh rightIh =>
      rcases List.mem_append.mp way with one | two
      · exact leftIh one
      · exact rightIh two
  | star greedy body ih =>
      exact follows_of_mem_roundWays (fun _ _ => ih) way
  | group number body ih =>
      obtain ⟨middle, inner, rfl⟩ := List.mem_map.mp way
      obtain ⟨⟨text, split, read⟩, bounded⟩ := ih inner
      refine ⟨⟨text, split, read⟩, fun start entry member => ?_⟩
      rcases List.mem_cons.mp member with rfl | older
      · simp [split, read]
      · exact bounded start entry older
  | textStart =>
      rw [ways_textStart, List.mem_ite_nil_right, List.mem_singleton] at way
      exact way.2 ▸ .refl after
  | textEnd =>
      rw [ways_textEnd, List.mem_ite_nil_right, List.mem_singleton] at way
      exact way.2 ▸ .refl after
  | lineStart =>
      rw [ways_lineStart, List.mem_ite_nil_right, List.mem_singleton] at way
      exact way.2 ▸ .refl after
  | wordEdge =>
      rw [ways_wordEdge, List.mem_ite_nil_right, List.mem_singleton] at way
      exact way.2 ▸ .refl after

/-- One more round changes nothing when there are rounds enough to read all of
the text. -/
theorem roundWays_stable {body : Place → List Place}
    (follows : ∀ place, ∀ after ∈ body place, Follows place after)
    {greedy : Bool} {fuel : Nat} (enough : place.rest.length ≤ fuel) :
    roundWays body greedy (fuel + 1) place =
      roundWays body greedy fuel place := by
  induction fuel generalizing place with
  | zero =>
      have none : ((body place).flatMap fun after =>
          if after.read == place.read then []
          else roundWays body greedy 0 after) = [] := by
        rw [List.flatMap_eq_nil_iff]
        intro after way
        obtain ⟨text, split, read⟩ := (follows place after way).reads
        have whole := congrArg List.length split
        rw [List.length_append] at whole
        rw [if_pos (by simp; omega)]
      conv_lhs => rw [roundWays, none]
      cases greedy <;> rfl
  | succ fuel ih =>
      have more : ((body place).flatMap fun after =>
          if after.read == place.read then []
          else roundWays body greedy (fuel + 1) after) =
            (body place).flatMap fun after =>
              if after.read == place.read then []
              else roundWays body greedy fuel after := by
        refine List.flatMap_congr fun after way => ?_
        obtain ⟨text, split, read⟩ := (follows place after way).reads
        have whole := congrArg List.length split
        rw [List.length_append] at whole
        split
        · rfl
        · rename_i different
          have reads : after.read ≠ place.read := by simpa using different
          exact ih (by omega)
      rw [roundWays, more]
      rfl

theorem roundWays_extra {body : Place → List Place}
    (follows : ∀ place, ∀ after ∈ body place, Follows place after)
    {greedy : Bool} {fuel : Nat} (enough : place.rest.length ≤ fuel)
    (extra : Nat) :
    roundWays body greedy (fuel + extra) place =
      roundWays body greedy fuel place := by
  induction extra with
  | zero => rfl
  | succ extra ih =>
      rw [← Nat.add_assoc, roundWays_stable follows (by omega), ih]

end Following

/-- A place with more text at its end. -/
def Place.extend (tail : List Char) (place : Place) : Place :=
  { place with
    rest := place.rest ++ tail
    groups := place.groups.map fun (number, text, length) =>
      (number, text ++ tail, length) }

@[simp] theorem Place.extend_read (tail : List Char) (place : Place) :
    (place.extend tail).read = place.read := rfl

@[simp] theorem Place.extend_rest (tail : List Char) (place : Place) :
    (place.extend tail).rest = place.rest ++ tail := rfl

/-- No way of the pattern reads the mark, and the pattern cannot tell the mark
from the end of the text. -/
def StopsAt (mark : Char) : Pattern → Prop
  | empty => True
  | char test => test mark = false
  | seq first second => first.StopsAt mark ∧ second.StopsAt mark
  | alt left right => left.StopsAt mark ∧ right.StopsAt mark
  | star _ body => body.StopsAt mark
  | group _ body => body.StopsAt mark
  | textStart => True
  | textEnd => False
  | lineStart => True
  | wordEdge => isWordChar mark = false

section Stopping

variable {pattern : Pattern} {mark : Char} {tail : List Char}

/-- In front of a mark a pattern matches as it does where the text ends. -/
theorem ways_extend (stops : pattern.StopsAt mark) (tail : List Char)
    (place : Place) :
    pattern.ways (place.extend (mark :: tail)) =
      (pattern.ways place).map (Place.extend (mark :: tail)) := by
  induction pattern generalizing place with
  | empty => rfl
  | char test =>
      obtain ⟨before, rest, read, groups⟩ := place
      have refused : test mark = false := stops
      cases rest with
      | nil => simp [ways_char, Place.extend, refused]
      | cons c rest =>
          by_cases passes : test c = true <;>
            simp [ways_char, Place.extend, passes]
  | seq first second firstIh secondIh =>
      rw [ways_seq, ways_seq, firstIh stops.1, List.flatMap_map,
        List.map_flatMap]
      exact List.flatMap_congr fun after _ => secondIh stops.2 after
  | alt left right leftIh rightIh =>
      rw [ways_alt, ways_alt, leftIh stops.1, rightIh stops.2, List.map_append]
  | star greedy body ih =>
      -- The longer text allows more rounds, which find nothing more to read.
      rw [ways_star, ways_star, roundWays_map (Place.extend_read _) (ih stops),
        Place.extend_rest, List.length_append,
        roundWays_extra (fun _ _ => follows_of_mem_ways) (Nat.le_refl _)]
  | group number body ih =>
      rw [ways_group, ways_group, ih stops]
      simp [Place.extend]
  | textStart =>
      rw [ways_textStart, ways_textStart]
      cases start : place.before <;> simp [Place.extend, start]
  | textEnd => cases stops
  | lineStart =>
      rw [ways_lineStart, ways_lineStart]
      have same : (place.extend (mark :: tail)).before = place.before := rfl
      rw [same]
      split <;> rfl
  | wordEdge =>
      obtain ⟨before, rest, read, groups⟩ := place
      have refused : isWordChar mark = false := stops
      have same : besideWord (rest ++ mark :: tail).head? =
          besideWord rest.head? := by
        cases rest with
        | nil => exact refused
        | cons c rest => rfl
      simp only [ways_wordEdge, Place.extend, same]
      split <;> rfl

/-- The texts of the groups do not depend on what follows. -/
theorem group_ending_extend {place : Place} (bounded : place.Bounded)
    (passed start before text : List Char) (number : Nat) :
    (Match.ending passed start (place.extend tail)).group number =
      (Match.ending before text place).group number := by
  obtain ⟨previous, rest, read, groups⟩ := place
  rw [Match.group, Match.group, group?_ending, group?_ending]
  congr 1
  induction groups with
  | nil => rfl
  | cons entry groups ih =>
      obtain ⟨other, kept, length⟩ := entry
      have short : length ≤ kept.length := bounded _ List.mem_cons_self
      have others := ih fun entry member =>
        bounded entry (List.mem_cons_of_mem _ member)
      simp only [Place.extend, List.map_cons, List.lookup_cons] at others ⊢
      split
      · simp [List.take_append_of_le_length short]
      · exact others

end Stopping

section Searching

variable {pattern : Pattern} {mark : Char}

theorem bounded_start (text : List Char) : (Place.start [] text).Bounded := by
  simp [Place.Bounded, Place.start]

/-- A pattern bound to the start of a text is found there or nowhere. -/
theorem search_textStart (pattern : Pattern) (text : List Char) :
    (seq textStart pattern).search text =
      (pattern.ways (.start [] text)).head?.map (Match.ending [] text) := by
  cases first : (pattern.ways (.start [] text)).head? with
  | none =>
      rw [Option.map_none]
      exact search_textStart_eq_none (List.head?_eq_none_iff.mp first)
  | some after =>
      refine search_of_leads_start ?_
      rw [Leads, ways_seq, ways_textStart]
      simpa [Place.start] using first

/-- A pattern that stops at a mark finds the groups in front of it that it finds
where the text ends. -/
theorem map_group_search_append (stops : pattern.StopsAt mark)
    (text tail : List Char) :
    ((seq textStart pattern).search (text ++ mark :: tail)).map Match.group =
      ((seq textStart pattern).search text).map Match.group := by
  have start : Place.start [] (text ++ mark :: tail) =
      (Place.start [] text).extend (mark :: tail) := rfl
  rw [search_textStart, search_textStart, start, ways_extend stops,
    List.head?_map]
  cases first : (pattern.ways (.start [] text)).head? with
  | none => rfl
  | some after =>
      have bounded : after.Bounded :=
        (follows_of_mem_ways (List.mem_of_mem_head? first)).bounded
          (bounded_start text)
      exact congrArg some (funext fun number => group_ending_extend bounded ..)

end Searching

section Building

variable {body : Pattern} {patterns : List Pattern} {mark : Char}

@[simp] theorem stopsAt_char {test : Char → Bool} :
    (char test).StopsAt mark ↔ test mark = false := Iff.rfl

@[simp] theorem stopsAt_group {number : Nat} :
    (group number body).StopsAt mark ↔ body.StopsAt mark := Iff.rfl

@[simp] theorem stopsAt_many :
    (many body).StopsAt mark ↔ body.StopsAt mark := Iff.rfl

@[simp] theorem stopsAt_some1 :
    (some1 body).StopsAt mark ↔ body.StopsAt mark := and_self_iff

@[simp] theorem stopsAt_fewest1 :
    (fewest1 body).StopsAt mark ↔ body.StopsAt mark := and_self_iff

@[simp] theorem stopsAt_concat :
    (concat patterns).StopsAt mark ↔
      ∀ pattern ∈ patterns, pattern.StopsAt mark := by
  induction patterns with
  | nil => simp [concat, StopsAt]
  | cons first rest ih =>
      cases rest with
      | nil => simp [concat]
      | cons second rest => simp [concat, StopsAt, ih]

@[simp] theorem stopsAt_oneOf :
    (oneOf patterns).StopsAt mark ↔
      ∀ pattern ∈ patterns, pattern.StopsAt mark := by
  induction patterns with
  | nil => simp [oneOf]
  | cons first rest ih =>
      cases rest with
      | nil => simp [oneOf]
      | cons second rest => simp [oneOf, StopsAt, ih]

end Building

end ArchSurvey.Text.Pattern
