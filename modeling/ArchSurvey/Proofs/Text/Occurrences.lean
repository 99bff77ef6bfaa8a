import ArchSurvey.Proofs.Text.Tail

/-!
# All matches in a text

What the matches of a pattern keep of a text, where they stand in it, and what
is left of it without them.
-/

namespace ArchSurvey.Text.Pattern

/-!
## Matches

The matches in a text are found one after another.  A character at which no
match starts is passed over, and behind a match the search goes on as if the
text started there: `groupsFrom` tells what all matches keep, and `leftFrom`
what is left of a text without them.
-/

section Splitting

variable {pattern : Pattern} {previous : Option Char} {passed text : List Char}
  {found : Match}

theorem text_append_after {before : Option Char} {start : List Char}
    {place : Place} (way : place ∈ pattern.ways ⟨before, start, 0, []⟩)
    (passed : List Char) :
    (Match.ending passed start place).text ++
      (Match.ending passed start place).after = start := by
  obtain ⟨front, split, read⟩ := (follows_of_mem_ways way).reads
  have whole : start = front ++ place.rest := split
  have count : place.read = front.length := by simpa using read
  simp [Match.ending, count, whole]

/-- A match is a way to match from some place of the text on. -/
theorem exists_way_of_searchFrom
    (search : searchFrom pattern previous passed text = some found) :
    ∃ before front start place, text = front ++ start ∧
      place ∈ pattern.ways ⟨before, start, 0, []⟩ ∧
      found = Match.ending (front.reverse ++ passed) start place := by
  induction text generalizing previous passed with
  | nil =>
      obtain ⟨place, runs, rfl⟩ := Option.map_eq_some_iff.mp search
      rw [run_some] at runs
      exact ⟨previous, [], [], place, rfl, List.mem_of_head? runs, rfl⟩
  | cons c rest ih =>
      rw [searchFrom] at search
      split at search
      · rename_i place runs
        rw [run_some] at runs
        exact ⟨previous, [], c :: rest, place, rfl, List.mem_of_head? runs,
          (Option.some.inj search).symm⟩
      · obtain ⟨before, front, start, place, rfl, way, rfl⟩ := ih search
        exact ⟨before, c :: front, start, place, rfl, way, by simp⟩

/-- A match splits the text into what is before, in and after it. -/
theorem split_of_searchFrom
    (search : searchFrom pattern previous passed text = some found) :
    passed.reverse ++ text = found.before ++ (found.text ++ found.after) := by
  obtain ⟨before, front, start, place, rfl, way, rfl⟩ :=
    exists_way_of_searchFrom search
  rw [text_append_after way]
  simp [Match.ending]

/-- What was passed before a search is kept in front of the match. -/
theorem searchFrom_passed (previous : Option Char) (passed text : List Char) :
    searchFrom pattern previous passed text =
      (searchFrom pattern previous [] text).map fun found =>
        { found with before := passed.reverse ++ found.before } := by
  have shift : ∀ previous passed more,
      searchFrom pattern previous (passed ++ more) text =
        (searchFrom pattern previous passed text).map fun found =>
          { found with before := more.reverse ++ found.before } := by
    induction text with
    | nil =>
        intro previous passed more
        rw [searchFrom, searchFrom, Option.map_map]
        congr 1
        funext place
        simp [Match.ending]
    | cons c rest ih =>
        intro previous passed more
        rw [searchFrom, searchFrom]
        split
        · simp [Match.ending]
        · exact ih (some c) (c :: passed) more
  exact shift previous [] passed

theorem length_after_lt
    (search : searchFrom pattern previous [] text = some found)
    (filled : found.text.isEmpty = false) :
    found.after.length < text.length := by
  have whole := congrArg List.length (split_of_searchFrom search)
  have more : 0 < found.text.length := by
    rw [List.length_pos_iff]
    rintro empty
    simp [empty] at filled
  simp only [List.length_append, List.reverse_nil, List.nil_append] at whole
  omega

theorem searchAllFrom_nil (fuel : Nat) (previous : Option Char) :
    searchAllFrom pattern fuel previous [] = [] := by
  cases fuel with
  | zero => rfl
  | succ fuel =>
      rw [searchAllFrom]
      cases search : searchFrom pattern previous [] [] with
      | none => rfl
      | some found =>
          cases filled : found.text.isEmpty with
          | true => simp [filled]
          | false => simpa using length_after_lt search filled

/-- There are no more matches than characters. -/
theorem searchAllFrom_enough {fuel other : Nat} (enough : text.length ≤ fuel)
    (enoughToo : text.length ≤ other) :
    searchAllFrom pattern fuel previous text =
      searchAllFrom pattern other previous text := by
  induction fuel generalizing other previous text with
  | zero =>
      obtain rfl : text = [] := by simpa using enough
      rw [searchAllFrom_nil, searchAllFrom_nil]
  | succ fuel ih =>
      cases other with
      | zero =>
          obtain rfl : text = [] := by simpa using enoughToo
          rw [searchAllFrom_nil, searchAllFrom_nil]
      | succ other =>
          rw [searchAllFrom, searchAllFrom]
          cases search : searchFrom pattern previous [] text with
          | none => rfl
          | some found =>
              cases filled : found.text.isEmpty with
              | true => simp [filled]
              | false =>
                  have shorter := length_after_lt search filled
                  have later := @ih (found.lastRead previous) found.after
                    other (by omega) (by omega)
                  simp [filled, later]

end Splitting

/-- The matches in a text that stands behind a character. -/
def matchesFrom (pattern : Pattern) (previous : Option Char)
    (text : List Char) : List Match :=
  searchAllFrom pattern text.length previous text

/-- What the matches keep. -/
def groupsFrom (pattern : Pattern) (previous : Option Char)
    (text : List Char) : List (Nat → List Char) :=
  (matchesFrom pattern previous text).map Match.group

/-- A text with some matches replaced by what is made of them. -/
def replacedOf (image : Match → List Char) (text : List Char)
    (found : List Match) : List Char :=
  (found.flatMap fun hit => hit.before ++ image hit) ++
    match found.getLast? with
    | none => text
    | some last => last.after

/-- A text with its matches replaced by what is made of them. -/
def replacedFrom (pattern : Pattern) (image : Match → List Char)
    (previous : Option Char) (text : List Char) : List Char :=
  replacedOf image text (matchesFrom pattern previous text)

/-- What is left without some matches. -/
def leftOf (text : List Char) (found : List Match) : List Char :=
  (found.flatMap Match.before) ++
    match found.getLast? with
    | none => text
    | some last => last.after

/-- What is left of a text without its matches. -/
def leftFrom (pattern : Pattern) (previous : Option Char)
    (text : List Char) : List Char :=
  leftOf text (matchesFrom pattern previous text)

section Matches

variable {pattern : Pattern} {previous : Option Char} {c : Char}
  {text rest : List Char} {after : Place}

theorem matchesFrom_eq (pattern : Pattern) (previous : Option Char)
    (text : List Char) :
    matchesFrom pattern previous text =
      match searchFrom pattern previous [] text with
      | none => []
      | some found =>
          if found.text.isEmpty then []
          else found ::
            matchesFrom pattern (found.lastRead previous) found.after := by
  have more : matchesFrom pattern previous text =
      searchAllFrom pattern (text.length + 1) previous text :=
    searchAllFrom_enough (Nat.le_refl _) (Nat.le_succ _)
  rw [more, searchAllFrom]
  cases search : searchFrom pattern previous [] text with
  | none => rfl
  | some found =>
      cases filled : found.text.isEmpty with
      | true => simp [filled]
      | false =>
          have shorter := length_after_lt search filled
          have later : searchAllFrom pattern text.length
              (found.lastRead previous) found.after =
                matchesFrom pattern (found.lastRead previous) found.after :=
            searchAllFrom_enough (by omega) (Nat.le_refl _)
          simp [filled, later]

theorem searchAll_eq (pattern : Pattern) (text : List Char) :
    pattern.searchAll text = matchesFrom pattern none text := rfl

/-- A character at which no match starts belongs to what is in front of the
next match. -/
theorem searchFrom_cons
    (fails : pattern.ways ⟨previous, c :: rest, 0, []⟩ = []) :
    searchFrom pattern previous [] (c :: rest) =
      (searchFrom pattern (some c) [] rest).map fun found =>
        { found with before := c :: found.before } := by
  have none : pattern.run ⟨previous, c :: rest, 0, []⟩ some = none := by
    rw [run_some]
    exact congrArg List.head? fails
  rw [searchFrom, none]
  exact searchFrom_passed (some c) [c] rest

theorem matchesFrom_cons
    (fails : pattern.ways ⟨previous, c :: rest, 0, []⟩ = []) :
    matchesFrom pattern previous (c :: rest) =
      match matchesFrom pattern (some c) rest with
      | [] => []
      | found :: others =>
          { found with before := c :: found.before } :: others := by
  rw [matchesFrom_eq, searchFrom_cons fails, matchesFrom_eq pattern (some c)]
  cases searchFrom pattern (some c) [] rest with
  | none => rfl
  | some found =>
      cases filled : found.text with
      | nil => simp [filled]
      | cons d tail => simp [filled, Match.lastRead, List.getLast?_cons]

theorem matchesFrom_of_leads (filled : text ≠ [])
    (leads : Leads pattern ⟨previous, text ++ rest, 0, []⟩ after)
    (reads : after.read = text.length) (ends : after.rest = rest) :
    matchesFrom pattern previous (text ++ rest) =
      Match.ending [] (text ++ rest) after ::
        matchesFrom pattern text.getLast? rest := by
  have found : (Match.ending [] (text ++ rest) after).text = text := by
    simp [Match.ending, reads]
  have last : (Match.ending [] (text ++ rest) after).lastRead previous =
      text.getLast? := by
    rw [Match.lastRead, found]
    cases ends : text.getLast? with
    | none => exact absurd (List.getLast?_eq_none_iff.mp ends) filled
    | some c => rfl
  rw [matchesFrom_eq, searchFrom_of_leads leads]
  simp only [found, last, ending_after, ends, List.isEmpty_iff, filled,
    if_false]

/-- Each match is found by a search, and reads something. -/
theorem exists_search_of_mem_matchesFrom {found : Match}
    (member : found ∈ matchesFrom pattern previous text) :
    found.text ≠ [] ∧ ∃ previous text,
      searchFrom pattern previous [] text = some found := by
  have count : ∀ fuel previous text,
      found ∈ searchAllFrom pattern fuel previous text →
        found.text ≠ [] ∧ ∃ previous text,
          searchFrom pattern previous [] text = some found := by
    intro fuel
    induction fuel with
    | zero => simp [searchAllFrom]
    | succ fuel ih =>
        intro previous text member
        rw [searchAllFrom] at member
        split at member
        · simp at member
        · rename_i hit search
          split at member
          · simp at member
          · rename_i filled
            rcases List.mem_cons.mp member with rfl | later
            · exact ⟨by simpa using filled, previous, text, search⟩
            · exact ih _ _ later
  exact count _ _ _ member

theorem groupsFrom_cons
    (fails : pattern.ways ⟨previous, c :: rest, 0, []⟩ = []) :
    groupsFrom pattern previous (c :: rest) =
      groupsFrom pattern (some c) rest := by
  rw [groupsFrom, groupsFrom, matchesFrom_cons fails]
  cases matchesFrom pattern (some c) rest <;> rfl

theorem groupsFrom_of_leads (filled : text ≠ [])
    (leads : Leads pattern ⟨previous, text ++ rest, 0, []⟩ after)
    (reads : after.read = text.length) (ends : after.rest = rest) :
    groupsFrom pattern previous (text ++ rest) =
      (Match.ending [] (text ++ rest) after).group ::
        groupsFrom pattern text.getLast? rest := by
  rw [groupsFrom, matchesFrom_of_leads filled leads reads ends]
  rfl

section Replacing

variable {image : Match → List Char}

theorem replaceAll_eq (pattern : Pattern) (image : Match → List Char)
    (text : List Char) :
    pattern.replaceAll image text = replacedFrom pattern image none text := rfl

theorem replacedFrom_nil (pattern : Pattern) (image : Match → List Char)
    (previous : Option Char) : replacedFrom pattern image previous [] = [] :=
  rfl

theorem replacedOf_cons (image : Match → List Char) (text : List Char)
    (found : Match) (others : List Match) :
    replacedOf image text (found :: others) =
      found.before ++ image found ++
        replacedOf image found.after others := by
  cases others <;> simp [replacedOf, List.getLast?_cons]

/-- A character at which no match starts stays where it is. -/
theorem replacedFrom_cons
    (blind : ∀ hit before, image { hit with before } = image hit)
    (fails : pattern.ways ⟨previous, c :: rest, 0, []⟩ = []) :
    replacedFrom pattern image previous (c :: rest) =
      c :: replacedFrom pattern image (some c) rest := by
  rw [replacedFrom, replacedFrom, matchesFrom_cons fails]
  cases matchesFrom pattern (some c) rest with
  | nil => rfl
  | cons found others =>
      rw [replacedOf_cons, replacedOf_cons, blind]
      rfl

/-- A text in which no match starts stays as it is. -/
theorem replacedFrom_skip
    (blind : ∀ hit before, image { hit with before } = image hit)
    (barren : ∀ front back, text = front ++ back → back ≠ [] →
      pattern.ways ⟨front.getLast?.or previous, back ++ rest, 0, []⟩ = []) :
    replacedFrom pattern image previous (text ++ rest) =
      text ++ replacedFrom pattern image (text.getLast?.or previous) rest := by
  induction text generalizing previous with
  | nil => rfl
  | cons c text ih =>
      have fails : pattern.ways ⟨previous, c :: (text ++ rest), 0, []⟩ = [] :=
        barren [] (c :: text) rfl (by simp)
      have later := @ih (some c) fun front back split filled => by
        have here := barren (c :: front) back (by simp [split]) filled
        simpa [List.getLast?_cons, Option.or_some] using here
      rw [List.cons_append, replacedFrom_cons blind fails, later]
      simp [List.getLast?_cons, Option.or_some]

theorem replacedFrom_of_leads (filled : text ≠ [])
    (leads : Leads pattern ⟨previous, text ++ rest, 0, []⟩ after)
    (reads : after.read = text.length) (ends : after.rest = rest) :
    replacedFrom pattern image previous (text ++ rest) =
      image (Match.ending [] (text ++ rest) after) ++
        replacedFrom pattern image text.getLast? rest := by
  rw [replacedFrom, replacedFrom,
    matchesFrom_of_leads filled leads reads ends, replacedOf_cons,
    ending_after, ends]
  rfl

/-- Matches that are replaced by their own texts change nothing. -/
theorem replaceAll_text (pattern : Pattern) (text : List Char) :
    pattern.replaceAll Match.text text = text := by
  rw [replaceAll_eq]
  generalize (none : Option Char) = previous
  induction size : text.length using Nat.strongRecOn
    generalizing previous text with
  | ind size ih =>
      rw [replacedFrom, matchesFrom_eq]
      cases search : searchFrom pattern previous [] text with
      | none => simp [replacedOf]
      | some found =>
          cases filled : found.text.isEmpty with
          | true => simp [replacedOf, filled]
          | false =>
              have shorter := length_after_lt search filled
              have later := ih _ (size ▸ shorter) found.after
                (found.lastRead previous) rfl
              rw [replacedFrom] at later
              simp only [filled, Bool.false_eq_true, if_false]
              rw [replacedOf_cons, later, List.append_assoc]
              simpa using (split_of_searchFrom search).symm

end Replacing

theorem leftFrom_eq_replacedFrom (pattern : Pattern)
    (previous : Option Char) (text : List Char) :
    leftFrom pattern previous text =
      replacedFrom pattern (fun _ => []) previous text := by
  simp [leftFrom, leftOf, replacedFrom, replacedOf]

theorem removeAll_eq (pattern : Pattern) (text : List Char) :
    pattern.removeAll text = leftFrom pattern none text :=
  (leftFrom_eq_replacedFrom pattern none text).symm

theorem leftFrom_nil (pattern : Pattern) (previous : Option Char) :
    leftFrom pattern previous [] = [] := rfl

theorem leftFrom_cons
    (fails : pattern.ways ⟨previous, c :: rest, 0, []⟩ = []) :
    leftFrom pattern previous (c :: rest) =
      c :: leftFrom pattern (some c) rest := by
  rw [leftFrom_eq_replacedFrom, leftFrom_eq_replacedFrom,
    replacedFrom_cons (fun _ _ => rfl) fails]

theorem leftFrom_of_leads (filled : text ≠ [])
    (leads : Leads pattern ⟨previous, text ++ rest, 0, []⟩ after)
    (reads : after.read = text.length) (ends : after.rest = rest) :
    leftFrom pattern previous (text ++ rest) =
      leftFrom pattern text.getLast? rest := by
  rw [leftFrom_eq_replacedFrom, leftFrom_eq_replacedFrom,
    replacedFrom_of_leads filled leads reads ends, List.nil_append]

end Matches

/-- The numbers of the groups of a pattern. -/
def numbers : Pattern → List Nat
  | seq first second => first.numbers ++ second.numbers
  | alt left right => left.numbers ++ right.numbers
  | star _ body => body.numbers
  | group number body => number :: body.numbers
  | _ => []

section Groups

variable {pattern body : Pattern} {patterns : List Pattern} {number : Nat}
  {place after : Place} {previous : Option Char} {text : List Char}
  {found : Match}

theorem lookup_of_mem_roundWays {ways : Place → List Place}
    (keeps : ∀ place, ∀ after ∈ ways place,
      after.groups.lookup number = place.groups.lookup number)
    {greedy : Bool} {fuel : Nat}
    (way : after ∈ roundWays ways greedy fuel place) :
    after.groups.lookup number = place.groups.lookup number := by
  induction fuel generalizing place with
  | zero =>
      rw [roundWays, List.mem_singleton] at way
      rw [way]
  | succ fuel ih =>
      rcases mem_roundWays_succ.mp way with rfl | ⟨middle, round, -, others⟩
      · rfl
      · exact (ih others).trans (keeps place middle round)

/-- A pattern leaves the groups of other numbers alone. -/
theorem lookup_of_mem_ways (absent : number ∉ pattern.numbers)
    (way : after ∈ pattern.ways place) :
    after.groups.lookup number = place.groups.lookup number := by
  induction pattern generalizing place after with
  | empty =>
      rw [ways_empty, List.mem_singleton] at way
      rw [way]
  | char test =>
      obtain ⟨c, rest, split, -, rfl⟩ := eq_past_of_mem_ways_char way
      rfl
  | seq first second firstIh secondIh =>
      obtain ⟨one, two⟩ := not_or.mp (mt List.mem_append.mpr absent)
      obtain ⟨middle, here, later⟩ := List.mem_flatMap.mp way
      exact (secondIh two later).trans (firstIh one here)
  | alt left right leftIh rightIh =>
      obtain ⟨one, two⟩ := not_or.mp (mt List.mem_append.mpr absent)
      rcases List.mem_append.mp way with here | there
      · exact leftIh one here
      · exact rightIh two there
  | star greedy body ih =>
      exact lookup_of_mem_roundWays (fun _ _ => ih absent) way
  | group other body ih =>
      obtain ⟨different, inner⟩ := not_or.mp (mt List.mem_cons.mpr absent)
      obtain ⟨middle, within, rfl⟩ := List.mem_map.mp way
      have unlike : (number == other) = false := by simpa using different
      rw [List.lookup_cons, unlike]
      exact ih inner within
  | textStart =>
      rw [ways_textStart, List.mem_ite_nil_right, List.mem_singleton] at way
      rw [way.2]
  | textEnd =>
      rw [ways_textEnd, List.mem_ite_nil_right, List.mem_singleton] at way
      rw [way.2]
  | lineStart =>
      rw [ways_lineStart, List.mem_ite_nil_right, List.mem_singleton] at way
      rw [way.2]
  | wordEdge =>
      rw [ways_wordEdge, List.mem_ite_nil_right, List.mem_singleton] at way
      rw [way.2]

/-- What a group keeps is a way to match its pattern, if no group behind it has
its number. -/
theorem exists_way_of_group {firsts : List Pattern}
    (absent : number ∉ (concat patterns).numbers)
    (member : found ∈ matchesFrom
      (concat (firsts ++ group number body :: patterns)) previous text) :
    ∃ before after, after ∈ body.ways before ∧
      found.group number = before.rest.take (after.read - before.read) := by
  obtain ⟨-, previous, text, search⟩ :=
    exists_search_of_mem_matchesFrom member
  obtain ⟨before, front, start, place, -, way, rfl⟩ :=
    exists_way_of_searchFrom search
  rw [ways_concat_append] at way
  obtain ⟨first, -, way⟩ := List.mem_flatMap.mp way
  rw [ways_concat_cons] at way
  obtain ⟨middle, inner, others⟩ := List.mem_flatMap.mp way
  obtain ⟨last, within, rfl⟩ := List.mem_map.mp inner
  -- What comes behind the group does not touch it.
  have kept := lookup_of_mem_ways absent others
  exact ⟨first, last, within, by simp [Match.group, group?_ending, kept]⟩

/-- The group that a pattern begins with stands at the start of the match. -/
theorem group_starts (absent : number ∉ (concat patterns).numbers)
    (member : found ∈ matchesFrom (concat (group number body :: patterns))
      previous text) :
    found.group number <+: found.text ++ found.after := by
  obtain ⟨-, previous, text, search⟩ :=
    exists_search_of_mem_matchesFrom member
  obtain ⟨before, front, start, place, -, way, rfl⟩ :=
    exists_way_of_searchFrom search
  rw [text_append_after way]
  rw [ways_concat_cons] at way
  obtain ⟨middle, first, others⟩ := List.mem_flatMap.mp way
  obtain ⟨inner, -, rfl⟩ := List.mem_map.mp first
  -- What comes behind the group does not touch it.
  have kept := lookup_of_mem_ways absent others
  rw [Match.group, group?_ending, kept]
  simp [List.take_prefix]

end Groups

/-- Some matches, each with the number of characters in front of it. -/
def placed : Nat → List Match → List (Nat × Match)
  | _, [] => []
  | passed, found :: others =>
      let start := passed + found.before.length
      (start, found) :: placed (start + found.text.length) others

section Places

variable {pattern : Pattern} {previous : Option Char} {text : List Char}
  {found : List Match} {passed : Nat} {place : Nat × Match}

theorem placed_snd (passed : Nat) (found : List Match) :
    (placed passed found).map Prod.snd = found := by
  induction found generalizing passed with
  | nil => rfl
  | cons first others ih => exact congrArg (first :: ·) (ih _)

theorem le_of_mem_placed (member : place ∈ placed passed found) :
    passed ≤ place.1 := by
  induction found generalizing passed with
  | nil => simp [placed] at member
  | cons first others ih =>
      rcases List.mem_cons.mp member with rfl | later
      · exact Nat.le_add_right _ _
      · have behind := ih later
        omega

/-- Matches that are not empty start one behind another. -/
theorem placed_pairwise (filled : ∀ hit ∈ found, hit.text ≠ []) :
    (placed passed found).Pairwise fun one other => one.1 < other.1 := by
  induction found generalizing passed with
  | nil => exact List.Pairwise.nil
  | cons first others ih =>
      refine List.Pairwise.cons ?_
        (ih fun hit member => filled hit (List.mem_cons_of_mem _ member))
      intro later member
      have behind := le_of_mem_placed member
      have long := List.length_pos_iff.mpr (filled first List.mem_cons_self)
      dsimp only at behind ⊢
      omega

/-- The place of a match is where its text stands. -/
theorem drop_placed {whole : List Char} (stands : whole.drop passed = text)
    (member : place ∈ placed passed (matchesFrom pattern previous text)) :
    whole.drop place.1 = place.2.text ++ place.2.after := by
  induction size : text.length using Nat.strongRecOn
    generalizing passed previous text with
  | ind size ih =>
      rw [matchesFrom_eq] at member
      split at member
      · simp [placed] at member
      · rename_i hit search
        split at member
        · simp [placed] at member
        · rename_i filled
          have split : text = hit.before ++ (hit.text ++ hit.after) := by
            simpa using split_of_searchFrom search
          have here : whole.drop (passed + hit.before.length) =
              hit.text ++ hit.after := by
            rw [← List.drop_drop, stands, split, List.drop_left]
          rcases List.mem_cons.mp member with rfl | later
          · exact here
          · have behind : whole.drop
                (passed + hit.before.length + hit.text.length) =
                  hit.after := by
              rw [← List.drop_drop, here, List.drop_left]
            have shorter := length_after_lt search (by simpa using filled)
            exact ih _ (size ▸ shorter) behind later rfl

/-- The group that a pattern begins with stands at the place of the match. -/
theorem group_stands {body : Pattern} {patterns : List Pattern} {number : Nat}
    (absent : number ∉ (concat patterns).numbers)
    (member : place ∈
      placed 0 ((concat (group number body :: patterns)).searchAll text)) :
    place.2.group number <+: text.drop place.1 := by
  have found := List.mem_map_of_mem (f := Prod.snd) member
  rw [placed_snd] at found
  rw [drop_placed List.drop_zero member]
  exact group_starts absent found

end Places

/-!
## Passages of a text

A passage reaches from an opening word to the next closing word.  In a text
that is given in pieces, each of them a word or free of words, taking the
passages out is a walk over the pieces that knows only whether it stands in a
passage.
-/

/-- The pattern reads one of some words, in one way if at all. -/
structure ReadsWords (pattern : Pattern) (words : List (List Char)) :
    Prop where
  reads : ∀ {place : Place} {word rest : List Char}, word ∈ words →
    place.rest = word ++ rest → Leads pattern place (place.past word rest)
  stops : ∀ {place : Place}, (∀ word ∈ words, ¬ word <+: place.rest) →
    pattern.ways place = []

/-- Neither of two words starts with the other. -/
def Apart (one other : List Char) : Prop :=
  ¬ one <+: other ∧ ¬ other <+: one

instance (one other : List Char) : Decidable (Apart one other) :=
  inferInstanceAs (Decidable (_ ∧ _))

/-- No word starts in a text, whatever follows it. -/
def Free (words : List (List Char)) (text : List Char) : Prop :=
  ∀ front back, text = front ++ back → back ≠ [] →
    ∀ rest, ∀ word ∈ words, ¬ word <+: back ++ rest

section Words

variable {words others : List (List Char)} {first last left right : Pattern}
  {text rest : List Char}

theorem leads_letters_is {letters : List Char} {place : Place}
    (split : place.rest = letters ++ rest) :
    Leads (concat (letters.map is)) place (place.past letters rest) := by
  induction letters generalizing place with
  | nil =>
      have stays : place.past [] rest = place := Place.past_nil split
      rw [stays]
      rfl
  | cons c letters ih =>
      have step : Leads (is c) place (place.past [c] (letters ++ rest)) :=
        (readsOne_char (· == c)).reads split (by simp)
      have others := @ih (place.past [c] (letters ++ rest)) rfl
      rw [Place.past_past] at others
      rw [Leads, List.map_cons, ways_concat_cons]
      exact step.seq others

theorem ways_letters_eq_nil {letters : List Char} {place : Place}
    (refused : ¬ letters <+: place.rest) :
    (concat (letters.map is)).ways place = [] := by
  induction letters generalizing place with
  | nil => exact absurd List.nil_prefix refused
  | cons c letters ih =>
      rw [List.map_cons, ways_concat_cons]
      refine ways_seq_eq_nil.mpr fun after way => ih fun further => ?_
      obtain ⟨d, rest, split, same, rfl⟩ := eq_past_of_mem_ways_char way
      obtain rfl := beq_iff_eq.mp same
      exact refused (by simpa [split] using further)

theorem readsWords_letters (letters : List Char) :
    ReadsWords (concat (letters.map is)) [letters] where
  reads member split := by
    obtain rfl := List.mem_singleton.mp member
    exact leads_letters_is split
  stops refused :=
    ways_letters_eq_nil (refused letters (List.mem_singleton_self letters))

theorem readsWords_literal (word : String) :
    ReadsWords (literal word) [word.toList] :=
  readsWords_letters word.toList

theorem ReadsWords.alt (one : ReadsWords left words)
    (other : ReadsWords right others)
    (apart : ∀ word ∈ words, ∀ further ∈ others, Apart word further) :
    ReadsWords (alt left right) (words ++ others) where
  reads {place word rest} member split := by
    rcases List.mem_append.mp member with here | there
    · exact (one.reads here split).left
    · refine Leads.right (one.stops fun before member starts => ?_)
        (other.reads there split)
      rw [split] at starts
      rcases List.prefix_or_prefix_of_prefix starts
        (List.prefix_append word rest) with within | within
      · exact (apart before member word there).1 within
      · exact (apart before member word there).2 within
  stops refused := by
    rw [List.forall_mem_append] at refused
    exact ways_alt_eq_nil (one.stops refused.1) (other.stops refused.2)

/-- A text without a character that all words start with. -/
theorem free_of_not_mem {c : Char} (starts : ∀ word ∈ words, ∃ rest,
    word = c :: rest) (lacks : c ∉ text) : Free words text := by
  rintro front back rfl filled rest word member ⟨more, within⟩
  obtain ⟨tail, rfl⟩ := starts word member
  obtain ⟨d, back, rfl⟩ := List.exists_cons_of_ne_nil filled
  obtain rfl : c = d := (List.cons.inj within).1
  simp at lacks

/-- A text with the character that all words start with in front only. -/
theorem free_cons {c : Char} (starts : ∀ word ∈ words, ∃ rest,
    word = c :: rest) (lacks : c ∉ text)
    (refused : ∀ rest, ∀ word ∈ words, ¬ word <+: c :: text ++ rest) :
    Free words (c :: text) := by
  intro front back split filled
  cases front with
  | nil =>
      obtain rfl : c :: text = back := split
      exact refused
  | cons d front =>
      obtain ⟨-, rfl⟩ := List.cons.inj split
      exact free_of_not_mem starts lacks front back rfl filled

/-- A text that holds no word and ends with a character that words have at
their end only. -/
theorem free_of_lacks {c : Char}
    (ends : ∀ word ∈ words, c ∉ word.dropLast)
    (lacks : ∀ word ∈ words, ¬ word <:+: text ++ [c]) :
    Free words (text ++ [c]) := by
  intro front back split filled rest word member starts
  rcases List.prefix_or_prefix_of_prefix starts
    (List.prefix_append back rest) with within | ⟨more, within⟩
  · refine lacks word member (within.isInfix.trans ?_)
    rw [split]
    exact (List.suffix_append front back).isInfix
  · have last : c ∈ back := by
      have same := congrArg List.getLast? split
      rw [List.getLast?_append_of_ne_nil _ filled,
        List.getLast?_concat] at same
      exact List.mem_of_getLast? same.symm
    cases more with
    | nil =>
        refine lacks word member ?_
        rw [← within, List.append_nil, split]
        exact (List.suffix_append front back).isInfix
    | cons d more =>
        refine ends word member ?_
        rw [← within, List.dropLast_append_of_ne_nil (by simp)]
        exact List.mem_append_left _ last

theorem not_mem_of_free (filled : [] ∉ words) (free : Free words text) :
    text ∉ words := by
  intro member
  have nonempty : text ≠ [] := fun same => filled (same ▸ member)
  exact free [] text rfl nonempty [] text member (List.prefix_append text [])

end Words

/-- A passage from what one pattern reads to what another reads next. -/
def passage (first last : Pattern) : Pattern :=
  concat [first, fewest any, last]

section Passage

variable {opens closes : List (List Char)} {first last : Pattern}
  {text rest : List Char} {previous : Option Char}

theorem passage_fails (begins : ReadsWords first opens) {place : Place}
    (refused : ∀ word ∈ opens, ¬ word <+: place.rest) :
    (passage first last).ways place = [] :=
  ways_seq_of_left (begins.stops refused)

theorem leads_passage (begins : ReadsWords first opens)
    (ends : ReadsWords last closes) {place : Place}
    {mark inside close : List Char} (opened : mark ∈ opens)
    (closed : close ∈ closes)
    (split : place.rest = mark ++ (inside ++ (close ++ rest)))
    (early : ∀ front back, inside = front ++ back → back ≠ [] →
      ∀ word ∈ closes, ¬ word <+: back ++ (close ++ rest)) :
    Leads (passage first last) place
      (place.past (mark ++ (inside ++ close)) rest) := by
  have inner := begins.reads opened split
  refine inner.seq ?_
  have finish := @ends.reads
    ((place.past mark (inside ++ (close ++ rest))).past inside
      (close ++ rest)) close rest closed rfl
  rw [Place.past_past, Place.past_past] at finish
  rw [Leads, ways_concat_cons, fewest, ways_star]
  refine head?_flatMap_fewest ?_ rfl (fun front back equal filled => ?_) ?_
  · simp
  · exact ends.stops (early front back equal filled)
  · rw [Leads] at finish
    simpa [concat] using finish

theorem leftFrom_free (begins : ReadsWords first opens)
    (free : Free opens text) :
    leftFrom (passage first last) previous (text ++ rest) =
      text ++ leftFrom (passage first last) (text.getLast?.or previous)
        rest := by
  rw [leftFrom_eq_replacedFrom, leftFrom_eq_replacedFrom]
  exact replacedFrom_skip (fun _ _ => rfl) fun front back split filled =>
    passage_fails begins (free front back split filled rest)

theorem leftFrom_passage (begins : ReadsWords first opens)
    (ends : ReadsWords last closes) {mark inside close : List Char}
    (opened : mark ∈ opens) (closed : close ∈ closes) (filled : mark ≠ [])
    (early : ∀ front back, inside = front ++ back → back ≠ [] →
      ∀ word ∈ closes, ¬ word <+: back ++ (close ++ rest)) :
    leftFrom (passage first last) previous
        (mark ++ (inside ++ (close ++ rest))) =
      leftFrom (passage first last) (mark ++ (inside ++ close)).getLast?
        rest := by
  have whole : mark ++ (inside ++ (close ++ rest)) =
      mark ++ (inside ++ close) ++ rest := by simp
  have leads := @leads_passage _ _ _ _ rest begins ends
    ⟨previous, mark ++ (inside ++ (close ++ rest)), 0, []⟩ mark inside close
    opened closed rfl early
  rw [whole] at leads ⊢
  exact leftFrom_of_leads (by simp [filled]) leads (by simp) rfl

end Passage

/-- What is left of some pieces without the passages; the flag tells whether
they start in one. -/
def remaining (opens closes : List (List Char)) :
    Bool → List (List Char) → List (List Char)
  | _, [] => []
  | false, piece :: pieces =>
      if piece ∈ opens then remaining opens closes true pieces
      else piece :: remaining opens closes false pieces
  | true, piece :: pieces =>
      remaining opens closes (piece ∉ closes) pieces

/-- Whether some pieces end in a passage. -/
def endsWithin (opens closes : List (List Char)) (within : Bool)
    (pieces : List (List Char)) : Bool :=
  pieces.foldl (fun within piece =>
    if within then decide (piece ∉ closes) else decide (piece ∈ opens)) within

section Pieces

variable {opens closes : List (List Char)} {first last : Pattern}
  {pieces others : List (List Char)} {within : Bool}

theorem endsWithin_append :
    endsWithin opens closes within (pieces ++ others) =
      endsWithin opens closes (endsWithin opens closes within pieces)
        others :=
  List.foldl_append

theorem remaining_append :
    remaining opens closes within (pieces ++ others) =
      remaining opens closes within pieces ++
        remaining opens closes (endsWithin opens closes within pieces)
          others := by
  induction pieces generalizing within with
  | nil => simp [remaining, endsWithin]
  | cons piece pieces ih =>
      cases within with
      | false =>
          by_cases opened : piece ∈ opens
          · simpa [remaining, endsWithin, opened] using @ih true
          · simpa [remaining, endsWithin, opened] using @ih false
      | true => simpa [remaining, endsWithin] using @ih (piece ∉ closes)

/-- Taking the passages out of a text is the walk over its pieces, if every
passage is closed. -/
theorem leftFrom_flatten (begins : ReadsWords first opens)
    (ends : ReadsWords last closes) (filled : [] ∉ opens)
    (whole : ∀ piece ∈ pieces, (piece ∈ opens ∨ Free opens piece) ∧
      (piece ∈ closes ∨ Free closes piece)) :
    (endsWithin opens closes false pieces = false →
      ∀ previous, leftFrom (passage first last) previous pieces.flatten =
        (remaining opens closes false pieces).flatten) ∧
    (endsWithin opens closes true pieces = false →
      ∃ inside close rest, pieces.flatten = inside ++ (close ++ rest) ∧
        close ∈ closes ∧
        (∀ front back, inside = front ++ back → back ≠ [] →
          ∀ word ∈ closes, ¬ word <+: back ++ (close ++ rest)) ∧
        ∀ previous, leftFrom (passage first last) previous rest =
          (remaining opens closes true pieces).flatten) := by
  induction pieces with
  | nil => simp [endsWithin, remaining, leftFrom_nil]
  | cons piece pieces ih =>
      obtain ⟨⟨atOpen, atClose⟩, later⟩ := List.forall_mem_cons.mp whole
      obtain ⟨outside, inside⟩ := ih later
      constructor
      · intro finished previous
        by_cases opened : piece ∈ opens
        · have closed : endsWithin opens closes true pieces = false := by
            simpa [endsWithin, opened] using finished
          obtain ⟨inner, close, rest, split, member, early, left⟩ :=
            inside closed
          have nonempty : piece ≠ [] := fun same => filled (same ▸ opened)
          rw [List.flatten_cons, split, remaining, if_pos opened,
            leftFrom_passage begins ends opened member nonempty early, left]
        · have closed : endsWithin opens closes false pieces = false := by
            simpa [endsWithin, opened] using finished
          rw [List.flatten_cons, remaining, if_neg opened, List.flatten_cons,
            leftFrom_free begins (atOpen.resolve_left opened),
            outside closed]
      · intro finished
        by_cases closing : piece ∈ closes
        · have closed : endsWithin opens closes false pieces = false := by
            simpa [endsWithin, closing] using finished
          refine ⟨[], piece, pieces.flatten, rfl, closing, ?_, ?_⟩
          · intro front back split filled
            simp_all
          · simpa [remaining, closing] using outside closed
        · have closed : endsWithin opens closes true pieces = false := by
            simpa [endsWithin, closing] using finished
          obtain ⟨inner, close, rest, split, member, early, left⟩ :=
            inside closed
          refine ⟨piece ++ inner, close, rest, by simp [split], member, ?_,
            by simpa [remaining, closing] using left⟩
          intro front back equal filled word mem
          rcases List.append_eq_append_iff.mp equal with
            ⟨more, rfl, split⟩ | ⟨more, split, rfl⟩
          · exact early more back split filled word mem
          · cases more with
            | nil => exact early [] inner rfl (by simpa using filled) word mem
            | cons c more =>
                have free := atClose.resolve_left closing front (c :: more)
                  split (by simp) (inner ++ (close ++ rest)) word mem
                simpa using free

end Pieces

end ArchSurvey.Text.Pattern
