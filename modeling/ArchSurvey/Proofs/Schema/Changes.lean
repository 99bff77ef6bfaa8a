import ArchSurvey.Proofs.Schema.Tables

/-!
# Reading changes of tables

The text of an action is read as what the action means.  The exception is a
bare `DROP` of a column whose name begins like something else that can be
dropped: with one space before it, the action is passed over.
-/

namespace ArchSurvey.Schema

open Text
open Text.Pattern (Leads Place Match seq opt blanks)

section Additions

variable {before text added after : List Char}

/-- The text refuses the words that may stand before what is added. -/
def Refuses (firsts : List String) (text : List Char) : Prop :=
  ∀ first ∈ firsts, ∀ (words : List String) (place : Place),
    place.rest = text → (phrase (first :: words)).ways place = []

theorem DeclarationText.refuses {declaration : Declaration} {rest : List Char}
    (spelled : DeclarationText declaration text) {firsts : List String}
    (taken : ∀ first ∈ firsts, Keyword first ∧ first ∈ reserved) :
    Refuses firsts (text ++ rest) := by
  obtain ⟨named, spaced, -, -⟩ := spelled
  rename_i name space type clauses
  intro first member words place split
  have facts := taken first member
  obtain ⟨c, space, rfl⟩ := List.exists_cons_of_ne_nil spaced.1
  refine (QualifiedText.bare named).phrase_fails facts.1 facts.2 ?_
    (show place.rest = name ++ (c :: (space ++ (type ++ (clauses ++ rest)))) by
      simp [split])
  simpa using isWordChar_of_isBlank (spaced.2 c List.mem_cons_self)

theorem ConstraintText.refuses {constraint : Constraint} {rest : List Char}
    (spelled : ConstraintText constraint text) {firsts : List String}
    (other : ∀ first ∈ firsts, Keyword first ∧
      first ∉ ["constraint", "primary", "foreign"]) :
    Refuses firsts (text ++ rest) := by
  obtain ⟨word, letters, space, tail, rfl, member, cased, spaced⟩ :
      ∃ word letters space tail, text = letters ++ space ++ tail ∧
        word ∈ ["constraint", "primary", "foreign"] ∧
          Cased word.toList letters ∧ Space space := by
    cases spelled with
    | anonymous key =>
        obtain ⟨letters, space, tail, rfl, cased, spaced⟩ := key.exists_keyword
        refine ⟨_, letters, space, tail, rfl, ?_, cased, spaced⟩
        cases constraint <;> simp [Constraint.word]
    | named words _ _ _ =>
        obtain ⟨letters, space, rfl, cased, spaced⟩ := words.exists_single
        exact ⟨_, letters, space, _, by simp only [List.append_assoc]; rfl,
          by decide, cased, spaced⟩
  intro first inside words place split
  have facts := other first inside
  have keywords : ∀ word ∈ ["constraint", "primary", "foreign"],
      Keyword word := by decide
  have different : first ≠ word := fun equal => facts.2 (equal ▸ member)
  obtain ⟨c, space, rfl⟩ := List.exists_cons_of_ne_nil spaced.1
  refine phrase_fails_at_keyword facts.1 (keywords word member) different cased
    ?_ (show place.rest = letters ++ (c :: (space ++ (tail ++ rest))) by
      simp [split])
  simpa using isWordChar_of_isBlank (spaced.2 c List.mem_cons_self)

theorem Words.exists_append {first second : List String}
    (spelled : Words (first ++ second) text) :
    ∃ front back, text = front ++ back ∧ Words first front ∧
      Words second back := by
  induction first generalizing text with
  | nil => exact ⟨[], text, rfl, .nil, spelled⟩
  | cons word first ih =>
      cases spelled with
      | cons cased space others =>
          obtain ⟨front, back, rfl, one, two⟩ := ih others
          exact ⟨_, back, by simp, .cons cased space one, two⟩

/-- Optional keywords lead past their text or past nothing. -/
theorem leads_opt_phrase {words others : List String} {place : Place}
    {rest : List Char} (keywords : ∀ word ∈ words, Keyword word)
    (filled : words ≠ []) (within : others ∈ [[], words])
    (spelled : Words others text) (solid : ∀ c ∈ rest.head?, isBlank c = false)
    (refuses : ∀ place : Place, place.rest = rest →
      (phrase words).ways place = []) (split : place.rest = text ++ rest) :
    Leads (opt (phrase words)) place (place.past text rest) := by
  simp only [List.mem_cons, List.not_mem_nil, or_false] at within
  rcases within with rfl | rfl
  · cases spelled
    have stays : place.past [] rest = place := Place.past_nil split
    rw [stays]
    exact Pattern.leads_opt_of_fails (refuses place split)
  · exact (leads_phrase keywords filled spelled solid split).opt

/-- The keywords that open an action lead past them, and a pattern for the
rest of the action keeps what it reads. -/
theorem search_action {verb : String} {words others : List String}
    {pattern : Pattern} {kept rest : List Char} (keyword : Keyword verb)
    (front : Gap before) (within : words ∈ [[verb], [verb, "column"]])
    (spelled : Words words text) (starts : Starts (kept ++ rest))
    (refuses : Refuses ["column", "if"] (kept ++ rest))
    (last : ∀ place : Place, place.rest = kept ++ rest →
      Leads pattern place (place.keep 1 kept rest)) :
    ∃ found, (seq Pattern.textStart (seq blanks (seq (phrase [verb])
      (seq (opt (phrase ["column"])) (seq (opt (phrase ("if" :: others)))
        pattern))))).search (before ++ (text ++ (kept ++ rest))) = some found ∧
      found.group 1 = kept := by
  obtain ⟨optional, rfl, member⟩ : ∃ optional, words = [verb] ++ optional ∧
      optional ∈ [[], ["column"]] := by
    simp only [List.mem_cons, List.not_mem_nil, or_false] at within
    rcases within with rfl | rfl
    · exact ⟨[], rfl, by simp⟩
    · exact ⟨["column"], rfl, by simp⟩
  obtain ⟨opening, column, rfl, first, second⟩ := spelled.exists_append
  have solid : ∀ c ∈ (column ++ (kept ++ rest)).head?, isBlank c = false := by
    simp only [List.mem_cons, List.not_mem_nil, or_false] at member
    rcases member with rfl | rfl
    · cases second
      exact starts.head
    · exact (second.starts (by decide)).append.head
  have finish (place : Place) (split : place.rest = kept ++ rest) :
      Leads (seq (opt (phrase ("if" :: others))) pattern) place
        (place.keep 1 kept rest) :=
    (Pattern.leads_opt_of_fails
      (refuses "if" (by simp) others place split)).seq (last place split)
  have middle (place : Place)
      (split : place.rest = column ++ (kept ++ rest)) :
      Leads (opt (phrase ["column"])) place
        (place.past column (kept ++ rest)) :=
    leads_opt_phrase (by decide) (by simp) member second starts.head
      (refuses "column" (by simp) []) split
  have leads : Leads (seq Pattern.textStart (seq blanks (seq (phrase [verb])
      (seq (opt (phrase ["column"])) (seq (opt (phrase ("if" :: others)))
        pattern)))))
      (.start [] (before ++ (opening ++ (column ++ (kept ++ rest))))) _ :=
    (Pattern.leads_textStart rfl).seq
      ((Pattern.leads_blanks rfl front (first.starts keyword).append.head).seq
        ((leads_phrase (by simpa using keyword) (by simp) first solid rfl).seq
          ((middle _ rfl).seq (finish _ rfl))))
  have found := Pattern.search_of_leads_start leads
  refine ⟨_, by simpa using found, ?_⟩
  simp [Match.group, Pattern.group?_ending]

/-- A text that opens with another keyword is not what the pattern is for. -/
theorem search_opening_eq_none {first other : String}
    {words others : List String} {pattern : Pattern} {rest : List Char}
    (keyword : Keyword first) (keywordToo : Keyword other)
    (different : first ≠ other) (front : Gap before)
    (spelled : Words (other :: others) text) :
    (seq Pattern.textStart (seq blanks (seq (phrase (first :: words))
      pattern))).search (before ++ (text ++ rest)) = none := by
  refine Pattern.search_textStart_eq_none ?_
  refine blanks_phrase_fails keyword front
    (spelled.starts keywordToo).append.head rfl ?_
  cases spelled with
  | @cons _ _ letters space tail cased spaced _ =>
      obtain ⟨c, space, rfl⟩ := List.exists_cons_of_ne_nil spaced.1
      have edge := isWordChar_of_isBlank (spaced.2 c List.mem_cons_self)
      have whole : letters ++ (c :: space) ++ tail ++ rest =
          letters ++ (c :: (space ++ (tail ++ rest))) := by simp
      exact phrase_fails_at_keyword keyword keywordToo different cased
        (by simpa using edge) whole

/-- What is added is all that follows the keywords of an addition. -/
theorem search_addAction {words : List String} (front : Gap before)
    (within : words ∈ [["add"], ["add", "column"]]) (spelled : Words words text)
    (starts : Starts added) (refuses : Refuses ["column", "if"] added) :
    ∃ found, addAction.search (before ++ (text ++ added)) = some found ∧
      found.group 1 = added := by
  have last (place : Place) (split : place.rest = added ++ []) :
      Leads (seq (Pattern.group 1 (Pattern.some1 Pattern.any)) Pattern.textEnd)
        place (place.keep 1 added []) :=
    (Pattern.leads_some1 (Pattern.readsOne_char _) starts.filled split
      (by simp) (by simp)).group.seq (Pattern.leads_textEnd rfl)
  have found : ∃ found, addAction.search (before ++ (text ++ (added ++ []))) =
      some found ∧ found.group 1 = added :=
    search_action (by decide) front within spelled (by simpa using starts)
      (by simpa using refuses) last
  rwa [List.append_nil] at found

theorem Padded.self {spelled : List Char → Prop} (here : spelled text) :
    Padded spelled text := by
  have padded : Padded spelled ([] ++ text ++ []) :=
    .intro (by simp [Gap]) here (by simp [Gap])
  simpa using padded

theorem readAddition_declaration {declaration : Declaration}
    (spelled : DeclarationText declaration text) (table : String) :
    readAddition table text = [.addColumn table declaration.column] := by
  have padded := Padded.self spelled
  simp [readAddition, isConstraint_declaration padded,
    readColumn_declaration padded]

theorem readAddition_constraint {constraint : Constraint}
    (spelled : ConstraintText constraint text) (table : String) :
    readAddition table text = constraint.statements table := by
  have padded := Padded.self spelled
  have known := isConstraint_constraint padded
  cases constraint with
  | primaryKey columns =>
      obtain ⟨found, search, listed⟩ := search_primaryKey padded
      have none := search_foreignKey_eq_none padded
      simp [readAddition, known, search, listed, none, Constraint.statements]
  | foreignKey columns target =>
      obtain ⟨found, search, listed, aimed⟩ := search_foreignKey padded
      simp [readAddition, known, search, listed, aimed, Constraint.statements,
        Function.comp_def]

/-- What is added is read without the white space around it. -/
theorem readAction_add {words : List String} {table : String}
    (front : Gap before) (back : Gap after)
    (within : words ∈ [["add"], ["add", "column"]]) (spelled : Words words text)
    (starts : Starts added) (ends : Ends added)
    (refuses : Refuses ["column", "if"] (added ++ after)) :
    readAction table (before ++ (text ++ added) ++ after) =
      readAddition table added := by
  obtain ⟨found, search, group⟩ :=
    search_addAction front within spelled starts.append refuses
  have whole : before ++ (text ++ added) ++ after =
      before ++ (text ++ (added ++ after)) := by simp
  have trimmed : trim ([] ++ added ++ after) = added :=
    trim_append (by simp) back starts ends
  rw [List.nil_append] at trimmed
  rw [whole, readAction, search]
  change readAddition table (trim (found.group 1)) = _
  rw [group, trimmed]

end Additions

section Removals

variable {before text after : List Char}

/-- What the names of things begin with that are not columns. -/
def otherThings : List String :=
  ["constraint", "primary", "index"]

/-- The action is not taken for the removal of something else: it does not
drop, by a single space and an unquoted name, a column whose name begins like
another thing. -/
def Action.Unmistakable : Action → Prop
  | .drop .tight column =>
      ∀ thing ∈ otherThings, ¬thing.toList <+: column.letters
  | .drop .column _ | .drop .loose _ | .add _ | .constrain _ => True

instance : DecidablePred Action.Unmistakable
  | .drop .tight column =>
      inferInstanceAs (Decidable (∀ thing ∈ otherThings,
        ¬thing.toList <+: column.letters))
  | .drop .column _ | .drop .loose _ | .add _ | .constrain _ => .isTrue trivial

/-- What is read of an action: nothing if it is taken for another removal. -/
def Action.understood (table : String) (action : Action) : List Statement :=
  if action.Unmistakable then action.statements table else []

theorem upper_append (first second : List Char) :
    upper (first ++ second) = upper first ++ upper second :=
  List.flatMap_append

theorem upper_gap {gap : List Char} (white : Gap gap) : upper gap = gap := by
  induction gap with
  | nil => rfl
  | cons c gap ih =>
      have here := upperChar_of_isBlank (white c List.mem_cons_self)
      have later := ih fun d member => white d (List.mem_cons_of_mem c member)
      rw [upper] at later ⊢
      rw [List.flatMap_cons, here, later]
      rfl

theorem upper_keyword {word : String} (cased : Cased word.toList text)
    (keyword : Keyword word) : upper text = word.toList.map Char.toUpper :=
  cased.upper fun c member => mem_typeLetters (keyword.2 c member)

/-- The starts of the actions that are passed over. -/
theorem dropsOther_iff (action : List Char) :
    dropsOther action = true ↔ ∃ thing ∈ otherThings,
      "DROP".toList ++ ' ' :: thing.toList.map Char.toUpper <+:
        upper (trimStart action) := by
  rw [dropsOther, List.any_eq_true]
  simp only [startsWith_iff]
  constructor
  · rintro ⟨start, member, starts⟩
    simp only [List.mem_cons, List.not_mem_nil, or_false] at member
    rcases member with rfl | rfl | rfl
    · exact ⟨"constraint", by decide, starts⟩
    · exact ⟨"primary", by decide, starts⟩
    · exact ⟨"index", by decide, starts⟩
  · rintro ⟨thing, member, starts⟩
    simp only [otherThings, List.mem_cons, List.not_mem_nil, or_false]
      at member
    rcases member with rfl | rfl | rfl
    · exact ⟨"DROP CONSTRAINT", by decide, starts⟩
    · exact ⟨"DROP PRIMARY", by decide, starts⟩
    · exact ⟨"DROP INDEX", by decide, starts⟩

/-- An action is passed over exactly if one space and the name of another thing
follow `DROP`. -/
theorem dropsOther_drop_iff {letters space rest : List Char}
    (front : Gap before) (cased : Cased "drop".toList letters)
    (spaced : Space space) :
    dropsOther (before ++ (letters ++ (space ++ rest))) = true ↔
      ∃ thing ∈ otherThings, ' ' :: thing.toList.map Char.toUpper <+:
        space ++ upper rest := by
  have starts : Starts (letters ++ (space ++ rest)) :=
    (cased.starts (by decide) (by decide)).append
  have trimmed : trimStart (before ++ (letters ++ (space ++ rest))) =
      letters ++ (space ++ rest) := by
    rw [trimStart, List.dropWhile_append_of_pos front]
    obtain ⟨c, first, solid⟩ := starts
    obtain ⟨tail, equal⟩ := List.head?_eq_some_iff.mp first
    rw [equal, List.dropWhile_cons_of_neg (by simp [solid])]
  have shape : upper (letters ++ (space ++ rest)) =
      "DROP".toList ++ (space ++ upper rest) := by
    rw [upper_append, upper_append, upper_gap spaced.2,
      upper_keyword cased (by decide)]
    rfl
  rw [dropsOther_iff, trimmed, shape]
  simp only [List.prefix_append_right_inj]

theorem thing_facts : ∀ thing ∈ otherThings,
    (∃ c rest, thing.toList.map Char.toUpper = c :: rest ∧
      isBlank c = false ∧ isQuote c = false) ∧
    (∀ c ∈ thing.toList.map Char.toUpper, isBlank c = false) ∧
    (thing.toList.map Char.toUpper).map Char.toLower = thing.toList ∧
    ¬thing.toList.map Char.toUpper <+: "COLUMN".toList ∧
    ¬"COLUMN".toList <+: thing.toList.map Char.toUpper := by
  intro thing member
  simp only [otherThings, List.mem_cons, List.not_mem_nil, or_false] at member
  rcases member with rfl | rfl | rfl
  · exact ⟨⟨'C', "ONSTRAINT".toList, by decide⟩, by decide⟩
  · exact ⟨⟨'P', "RIMARY".toList, by decide⟩, by decide⟩
  · exact ⟨⟨'I', "NDEX".toList, by decide⟩, by decide⟩

/-- Only one space is taken for the space before the name of a thing. -/
theorem eq_space_of_thing {thing : String} (member : thing ∈ otherThings)
    {space rest : List Char} (spaced : Space space)
    (starts : ' ' :: thing.toList.map Char.toUpper <+: space ++ rest) :
    space = [' '] ∧ thing.toList.map Char.toUpper <+: rest := by
  obtain ⟨⟨c, tail, equal, solid, -⟩, -⟩ := thing_facts thing member
  obtain ⟨d, space, rfl⟩ := List.exists_cons_of_ne_nil spaced.1
  rw [List.cons_append, List.cons_prefix_cons] at starts
  obtain ⟨rfl, starts⟩ := starts
  cases space with
  | nil => exact ⟨rfl, starts⟩
  | cons e space =>
      rw [equal, List.cons_append, List.cons_prefix_cons] at starts
      have white := spaced.2 e (by simp)
      rw [← starts.1, solid] at white
      cases white

theorem not_prefix_column {thing : String} (member : thing ∈ otherThings)
    {letters rest : List Char} (cased : Cased "column".toList letters) :
    ¬thing.toList.map Char.toUpper <+: upper (letters ++ rest) := by
  obtain ⟨-, -, -, shorter, longer⟩ := thing_facts thing member
  have word : upper letters = "COLUMN".toList :=
    upper_keyword cased (by decide)
  rw [upper_append, word]
  intro starts
  rcases List.prefix_or_prefix_of_prefix starts
    (List.prefix_append "COLUMN".toList (upper rest)) with one | two
  · exact shorter one
  · exact longer two

theorem prefix_name_iff {thing : String} (member : thing ∈ otherThings)
    {column : Name} {name : List Char} (cased : Cased column.letters name)
    (back : Gap after) :
    thing.toList.map Char.toUpper <+: upper (name ++ after) ↔
      thing.toList <+: column.letters := by
  obtain ⟨-, solid, lower, -⟩ := thing_facts thing member
  have letters : (column.letters.map Char.toUpper).map Char.toLower =
      column.letters := by
    rw [List.map_map]
    conv_rhs => rw [← List.map_id column.letters]
    exact List.map_congr_left fun c inside =>
      (toLower_of_mem c (mem_typeLetters (column.plain c inside))).2
  rw [upper_append, upper_gap back,
    cased.upper fun c inside => mem_typeLetters (column.plain c inside)]
  constructor
  · intro starts
    have within : thing.toList.map Char.toUpper <+:
        column.letters.map Char.toUpper := by
      rcases List.prefix_or_prefix_of_prefix starts
        (List.prefix_append (column.letters.map Char.toUpper) after) with
        one | ⟨rest, equal⟩
      · exact one
      · rw [← equal, List.prefix_append_right_inj] at starts
        cases rest with
        | nil => exact ⟨[], by simpa using equal.symm⟩
        | cons c rest =>
            have blank := back c (starts.subset List.mem_cons_self)
            rw [solid c (by simp [← equal])] at blank
            cases blank
    have lowered := within.map Char.toLower
    rwa [lower, letters] at lowered
  · intro starts
    exact (starts.map Char.toUpper).trans (List.prefix_append _ after)

theorem not_prefix_quoted {thing : String} (member : thing ∈ otherThings)
    {start : Char} {name : List Char} (quote : isQuote start = true)
    (same : upperChar start = [start]) :
    ¬thing.toList.map Char.toUpper <+: upper (start :: name) := by
  obtain ⟨⟨c, tail, equal, -, unquoted⟩, -⟩ := thing_facts thing member
  have shape : upper (start :: name) = start :: upper name := by
    simp [upper, same]
  rw [shape, equal, List.cons_prefix_cons]
  rintro ⟨rfl, -⟩
  rw [quote] at unquoted
  cases unquoted

/-- A removal is passed over exactly if it is taken for another one. -/
theorem dropsOther_removal {removal : Removal} {column : Name}
    (front : Gap before) (spelled : RemovalText column removal text)
    (back : Gap after) :
    dropsOther (before ++ (text ++ after)) = true ↔
      ¬(Action.drop removal column).Unmistakable := by
  cases spelled with
  | @column words name spelled named =>
      have both : Words (["drop"] ++ ["column"]) words := spelled
      obtain ⟨drop, more, rfl, first, second⟩ := both.exists_append
      obtain ⟨letters, space, rfl, cased, spaced⟩ := first.exists_single
      obtain ⟨others, gap, rfl, casedToo, -⟩ := second.exists_single
      have whole : letters ++ space ++ (others ++ gap) ++ name ++ after =
          letters ++ (space ++ (others ++ (gap ++ name ++ after))) := by simp
      rw [whole, dropsOther_drop_iff front cased spaced]
      simp only [Action.Unmistakable, not_true_eq_false, iff_false]
      rintro ⟨thing, member, starts⟩
      exact not_prefix_column member casedToo
        (eq_space_of_thing member spaced starts).2
  | @tight letters name cased named =>
      have whole : letters ++ ' ' :: name ++ after =
          letters ++ ([' '] ++ (name ++ after)) := by simp
      rw [whole, dropsOther_drop_iff front cased (by decide)]
      simp only [Action.Unmistakable, not_forall, not_not, exists_prop]
      refine exists_congr fun thing => and_congr_right fun member => ?_
      rw [List.singleton_append, List.cons_prefix_cons,
        prefix_name_iff member named back]
      simp
  | @loose letters space name cased spaced named loose =>
      have whole : letters ++ space ++ name ++ after =
          letters ++ (space ++ (name ++ after)) := by simp
      rw [whole, dropsOther_drop_iff front cased spaced]
      simp only [Action.Unmistakable, not_true_eq_false, iff_false]
      rintro ⟨thing, member, starts⟩
      obtain ⟨single, begins⟩ := eq_space_of_thing member spaced starts
      cases named with
      | plain plain => exact loose single plain
      | @quoted inner start stop quoted pair =>
          have same : upperChar start = [start] := by
            rw [mem_quotes_iff] at pair
            rcases pair with ⟨rfl, -⟩ | ⟨rfl, -⟩ | ⟨rfl, -⟩ <;> decide
          exact not_prefix_quoted member (quote_facts pair).1.1 same begins

/-- A removal is keywords and the name of the column. -/
theorem RemovalText.exists_words {removal : Removal} {column : Name}
    (spelled : RemovalText column removal text) :
    ∃ words front name, text = front ++ name ∧
      words ∈ [["drop"], ["drop", "column"]] ∧ Words words front ∧
        NameText column name := by
  cases spelled with
  | column words named => exact ⟨_, _, _, rfl, by simp, words, named⟩
  | @tight letters name cased named =>
      have spaced : Space [' '] := by decide
      exact ⟨["drop"], letters ++ [' '] ++ [], name, by simp, by simp,
        .cons cased spaced .nil, .plain named⟩
  | loose cased spaced named _ =>
      exact ⟨["drop"], _, _, by simp, by simp, .cons cased spaced .nil, named⟩

theorem readAction_drop {removal : Removal} {column : Name} {table : String}
    (front : Gap before) (spelled : RemovalText column removal text)
    (back : Gap after) :
    readAction table (before ++ text ++ after) =
      (Action.drop removal column).understood table := by
  have taken := dropsOther_removal front spelled back
  obtain ⟨words, opening, name, rfl, within, keywords, named⟩ :=
    spelled.exists_words
  have qualified := QualifiedText.bare named
  have edge : ∀ c ∈ after.head?, isBlank c = true := fun c member =>
    back c (List.mem_of_mem_head? member)
  have refuses : Refuses ["column", "if"] (name ++ after) := by
    have facts : ∀ first ∈ ["column", "if"],
        Keyword first ∧ first ∈ reserved := by decide
    intro first member words place split
    exact qualified.phrase_fails (facts first member).1 (facts first member).2
      (fun c inside => isWordChar_of_isBlank (edge c inside)) split
  obtain ⟨found, search, group⟩ : ∃ found,
      dropColumn.search (before ++ (opening ++ (name ++ after))) = some found ∧
        found.group 1 = name :=
    search_action (by decide) front within keywords qualified.starts.append
      refuses fun place split => (named.leads
        (fun c inside => isNameChar_of_isBlank (edge c inside)) split).group
  have noAddition : addAction.search
      (before ++ (opening ++ (name ++ after))) = none := by
    simp only [List.mem_cons, List.not_mem_nil, or_false] at within
    rcases within with rfl | rfl <;>
      exact search_opening_eq_none (by decide) (by decide) (by decide) front
        keywords
  have whole : before ++ (opening ++ name) ++ after =
      before ++ (opening ++ (name ++ after)) := by simp
  rw [List.append_assoc] at taken
  rw [whole, readAction, noAddition, Action.understood]
  by_cases clear : (Action.drop removal column).Unmistakable
  · have column? : dropsOther (before ++ (opening ++ (name ++ after))) =
        false := by simpa [clear] using taken
    simp [clear, column?, search, group, qualified.identifier_self,
      Action.statements]
  · simp [clear, taken.mpr clear]

end Removals

section Actions

variable {action : Action} {text : List Char}

theorem ActionText.segment (spelled : ActionText action text) :
    Segment Inline text := by
  cases spelled with
  | add within words declaration =>
      have keywords : ∀ words ∈ [["add"], ["add", "column"]],
          ∀ word ∈ words, Keyword word := by decide
      exact (words.segment (keywords _ within)).append declaration.segment
  | drop removal =>
      have keywords : ∀ words ∈ [["drop"], ["drop", "column"]],
          ∀ word ∈ words, Keyword word := by decide
      obtain ⟨words, front, name, rfl, within, spelled, named⟩ :=
        removal.exists_words
      exact (spelled.segment (keywords _ within)).append named.inline
  | constrain words constraint =>
      exact (words.segment (by decide)).append constraint.segment

theorem ActionText.starts (spelled : ActionText action text) :
    Starts text := by
  cases spelled with
  | add within words declaration =>
      simp only [List.mem_cons, List.not_mem_nil, or_false] at within
      rcases within with rfl | rfl <;> exact (words.starts (by decide)).append
  | drop removal =>
      obtain ⟨words, front, name, rfl, within, spelled, -⟩ :=
        removal.exists_words
      simp only [List.mem_cons, List.not_mem_nil, or_false] at within
      rcases within with rfl | rfl <;> exact (spelled.starts (by decide)).append
  | constrain words constraint => exact (words.starts (by decide)).append

/-- What is read of the text of an action. -/
theorem readAction_padded {table : String}
    (padded : Padded (ActionText action) text) :
    readAction table text = action.understood table := by
  obtain ⟨front, spelled, back⟩ := padded
  cases spelled with
  | add within words declaration =>
      rw [readAction_add front back within words declaration.starts
        declaration.ends (declaration.refuses (by decide))]
      exact readAddition_declaration declaration table
  | drop removal => exact readAction_drop front removal back
  | constrain words constraint =>
      rw [readAction_add front back (by simp) words constraint.starts
        constraint.ends (constraint.refuses (by decide))]
      exact readAddition_constraint constraint table

end Actions

end ArchSurvey.Schema
