import ArchSurvey.Proofs.Manifest.RequirementText
import ArchSurvey.Proofs.Text.Occurrences

/-!
# The pattern of requirements

The pattern takes everything behind the first comparison
for the version, so what stands behind the specifier becomes a part of it
(`search_of_specifier`), and behind a requirement without a specifier nothing
else may stand (`search_of_blocked`).
-/

namespace ArchSurvey.Manifest.Requirement

open Text
open Text.Pattern (Place Leads concat oneOf opt literal group many some1 char
  blanks noneOf textStart textEnd anyInLine is readsOne_char leads_many
  leads_some1 leads_blanks readsWords_literal ways_seq_eq_nil)

/-! ## The parts of the pattern -/

/-- The extras in brackets. -/
def extrasPattern : Pattern :=
  concat [is '[', many (noneOf "]"), is ']']

/-- A comparison. -/
def comparisonPattern : Pattern :=
  oneOf (comparisons.map literal)

/-- A comparison with everything behind it. -/
def versionPattern : Pattern :=
  concat [group 2 comparisonPattern, blanks, group 3 (some1 anyInLine)]

theorem pattern_eq : pattern =
    .seq textStart (concat [group 1 namePattern, blanks, opt extrasPattern,
      blanks, opt versionPattern, textEnd]) := rfl

section Literals

variable {words before after : List String} {word : String} {place : Place}
  {rest : List Char}

/-- Of several words the first one is read that the text starts with. -/
theorem leads_oneOf_literals (split : place.rest = word.toList ++ rest)
    (refused : ∀ other ∈ before, ¬ other.toList <+: place.rest) :
    Leads (oneOf ((before ++ word :: after).map literal)) place
      (place.past word.toList rest) := by
  have reads : Leads (literal word) place (place.past word.toList rest) :=
    (readsWords_literal word).reads List.mem_cons_self split
  induction before with
  | nil =>
      cases after with
      | nil => exact reads
      | cons next after => exact reads.left
  | cons other before ih =>
      obtain ⟨here, later⟩ := List.forall_mem_cons.mp refused
      have fails : (literal other).ways place = [] :=
        (readsWords_literal other).stops (by simpa using here)
      have next := ih later
      cases before with
      | nil => exact Leads.right fails next
      | cons second before => exact Leads.right fails next

theorem ways_oneOf_literals
    (refused : ∀ word ∈ words, ¬ word.toList <+: place.rest) :
    (oneOf (words.map literal)).ways place = [] := by
  induction words with
  | nil =>
      rw [List.map_nil, Pattern.oneOf, Pattern.ways_char]
      split <;> rfl
  | cons word words ih =>
      obtain ⟨here, later⟩ := List.forall_mem_cons.mp refused
      have fails : (literal word).ways place = [] :=
        (readsWords_literal word).stops (by simpa using here)
      cases words with
      | nil => exact fails
      | cons second words => exact Pattern.ways_alt_eq_nil fails (ih later)

end Literals

section Reading

variable {place : Place} {name gap text rest : List Char} {clause : Clause}

theorem leads_name (isName : IsName name) (split : place.rest = name ++ rest)
    (beyond : ∀ c ∈ rest.head?, isNameChar c = false) :
    Leads (group 1 namePattern) place (place.keep 1 name rest) := by
  cases name with
  | nil => exact isName.elim
  | cons c name =>
      obtain ⟨first, others⟩ := isName
      have one : Leads nameStart place (place.past [c] (name ++ rest)) :=
        (readsOne_char _).reads split first
      have two := leads_many (readsOne_char isNameChar)
        (show (place.past [c] (name ++ rest)).rest = name ++ rest from rfl)
        others beyond
      rw [Place.past_past] at two
      exact (one.seq two).group

theorem leads_brackets (split : place.rest = '[' :: (text ++ ']' :: rest))
    (plain : ']' ∉ text) :
    Leads extrasPattern place
      (place.past ('[' :: (text ++ [']'])) rest) := by
  let opened := place.past ['['] (text ++ ']' :: rest)
  have one : Leads (is '[') place opened :=
    (readsOne_char _).reads split (by simp)
  have two : Leads (many (noneOf "]")) opened
      (opened.past text (']' :: rest)) := by
    refine leads_many (readsOne_char _) rfl (fun c member => ?_) (by simp)
    have other : c ≠ ']' := fun same => plain (same ▸ member)
    simpa using other
  have three : Leads (is ']') (opened.past text (']' :: rest))
      ((opened.past text (']' :: rest)).past [']'] rest) :=
    (readsOne_char _).reads rfl (by simp)
  have whole := one.seq (two.seq three)
  rw [Place.past_past, Place.past_past] at whole
  exact whole

/-- Extras and the white space around them are read up to what stands behind
them. -/
theorem exists_leads_extras {extras : Option Extras}
    (wellFormed : ∀ written ∈ extras, written.WellFormed) (isGap : IsGap gap)
    (split : place.rest = extras.elim [] Extras.spell ++ (gap ++ rest))
    (solid : ∀ c ∈ rest.head?, isBlank c = false ∧ c ≠ '[') :
    ∃ after, Leads (concat [blanks, opt extrasPattern, blanks]) place after ∧
      after.rest = rest ∧ after.groups = place.groups := by
  have dense : ∀ c ∈ rest.head?, isBlank c = false := fun c member =>
    (solid c member).1
  cases extras with
  | none =>
      have one : Leads blanks place (place.past gap rest) :=
        leads_blanks (by simpa using split) isGap.blank dense
      have two : Leads (opt extrasPattern) (place.past gap rest)
          (place.past gap rest) :=
        Pattern.leads_opt_of_fails (Pattern.ways_seq_of_left
          ((readsOne_char _).stops fun c member => by
            simpa using (solid c member).2))
      have three : Leads blanks (place.past gap rest)
          ((place.past gap rest).past [] rest) :=
        leads_blanks rfl (by simp) dense
      exact ⟨_, one.seq (two.seq three), rfl, rfl⟩
  | some extras =>
      obtain ⟨white, plain⟩ := wellFormed extras rfl
      let spelled := '[' :: (extras.text ++ [']'])
      have one : Leads blanks place
          (place.past extras.gap (spelled ++ (gap ++ rest))) :=
        leads_blanks (by simpa [Extras.spell, spelled] using split) white.blank
          (by simp [spelled]; decide)
      have two : Leads extrasPattern
          (place.past extras.gap (spelled ++ (gap ++ rest)))
          ((place.past extras.gap (spelled ++ (gap ++ rest))).past spelled
            (gap ++ rest)) :=
        leads_brackets (by simp [spelled]) fun member =>
          (plain _ member).1 (by decide)
      exact ⟨_, one.seq (two.opt.seq (leads_blanks rfl isGap.blank dense)),
        rfl, rfl⟩

/-- A comparison stands behind those that start with it, which go on with an
equals sign. -/
theorem comparisons_pairwise :
    comparisons.Pairwise fun other word =>
      ¬ other.toList <+: word.toList ∧
        (word.toList <+: other.toList →
          (other.toList.drop word.toList.length).head? = some '=') := by
  decide

/-- A comparison is read whole, since no version starts with an equals sign. -/
theorem leads_comparison (member : clause.comparison ∈ comparisons)
    (split : place.rest = clause.comparison.toList ++ rest)
    (beyond : rest.head? ≠ some '=') :
    Leads comparisonPattern place
      (place.past clause.comparison.toList rest) := by
  obtain ⟨before, after, parts⟩ := List.append_of_mem member
  have order := comparisons_pairwise
  rw [parts] at order
  rw [comparisonPattern, parts]
  refine leads_oneOf_literals split fun other earlier starts => ?_
  obtain ⟨notStart, longer⟩ := (List.pairwise_append.mp order).2.2 other
    earlier clause.comparison List.mem_cons_self
  rw [split] at starts
  rcases List.prefix_or_prefix_of_prefix starts (List.prefix_append _ _) with
    start | ⟨more, whole⟩
  · exact notStart start
  · have equals := longer ⟨more, whole⟩
    rw [← whole, List.drop_left] at equals
    rw [← whole, List.prefix_append_right_inj] at starts
    obtain ⟨tail, rfl⟩ := List.head?_eq_some_iff.mp equals
    obtain ⟨last, rfl⟩ := starts
    exact beyond rfl

theorem exists_leads_version (wellFormed : clause.WellFormed)
    (split : place.rest = clause.comparison.toList ++ (clause.gap ++ text))
    (starts : Starts text) (apart : text.head? ≠ some '=')
    (inLine : '\n' ∉ text) :
    ∃ after, Leads versionPattern place after ∧ after.rest = [] ∧
      after.groups =
        (3, text, text.length) ::
          (2, place.rest, clause.comparison.toList.length) :: place.groups := by
  obtain ⟨compared, isGap, -⟩ := wellFormed
  have one : Leads (group 2 comparisonPattern) place
      (place.keep 2 clause.comparison.toList (clause.gap ++ text)) := by
    refine (leads_comparison compared split fun equals => ?_).group
    cases gap : clause.gap with
    | nil => exact apart (by simpa [gap] using equals)
    | cons c gap =>
        rw [gap] at equals isGap
        exact isGap.not_mem (by decide) (List.mem_of_mem_head? equals)
  let compared := place.keep 2 clause.comparison.toList (clause.gap ++ text)
  have two : Leads blanks compared (compared.past clause.gap text) :=
    leads_blanks rfl isGap.blank starts.head
  have three : Leads (some1 anyInLine) (compared.past clause.gap text)
      ((compared.past clause.gap text).past text []) := by
    refine leads_some1 (readsOne_char _) starts.filled (by simp)
      (fun c member => ?_) (by simp)
    have other : c ≠ '\n' := fun same => inLine (same ▸ member)
    simpa using other
  exact ⟨_, one.seq (two.seq three.group), rfl, rfl⟩

end Reading

section Searching

variable {package : Package} {specifier : Specifier}
  {gap tail rest text : List Char}

/-- White space ends a name. -/
theorem head?_gap_append (isGap : IsGap gap)
    (beyond : ∀ c ∈ rest.head?, isNameChar c = false) :
    ∀ c ∈ (gap ++ rest).head?, isNameChar c = false := by
  cases gap with
  | nil => exact beyond
  | cons d gap =>
      intro c member
      obtain rfl : d = c := by simpa using member
      exact isNameChar_of_isBlank (isGap.blank d List.mem_cons_self)

/-- Name and extras are read up to what stands behind them. -/
theorem exists_leads_front (wellFormed : package.WellFormed)
    (isGap : IsGap gap)
    (solid : ∀ c ∈ rest.head?,
      isBlank c = false ∧ c ≠ '[' ∧ isNameChar c = false) :
    let text := package.name ++
      (package.extras.elim [] Extras.spell ++ (gap ++ rest))
    ∃ middle, Leads (concat [textStart, group 1 namePattern, blanks,
        opt extrasPattern, blanks]) (.start [] text) middle ∧
      middle.rest = rest ∧
      middle.groups = [(1, text, package.name.length)] := by
  intro text
  let start := Place.start [] text
  let behind := package.extras.elim [] Extras.spell ++ (gap ++ rest)
  have dense : ∀ c ∈ rest.head?, isBlank c = false ∧ c ≠ '[' :=
    fun c member => ⟨(solid c member).1, (solid c member).2.1⟩
  have boundary : ∀ c ∈ behind.head?, isNameChar c = false := by
    cases extras : package.extras with
    | none =>
        have nothing : behind = gap ++ rest := by simp [behind, extras]
        rw [nothing]
        exact head?_gap_append isGap fun c member => (solid c member).2.2
    | some written =>
        obtain ⟨white, -⟩ := wellFormed.extras written extras
        have spelled : behind = written.gap ++
            '[' :: (written.text ++ ']' :: (gap ++ rest)) := by
          simp [behind, extras, Extras.spell]
        rw [spelled]
        exact head?_gap_append white (by simp; decide)
  have one : Leads textStart start start := Pattern.leads_textStart rfl
  have two : Leads (group 1 namePattern) start
      (start.keep 1 package.name behind) :=
    leads_name wellFormed.name rfl boundary
  obtain ⟨middle, three, ends, groups⟩ :=
    @exists_leads_extras (start.keep 1 package.name behind) gap rest
      package.extras wellFormed.extras isGap rfl dense
  exact ⟨middle, one.seq (two.seq three), ends, groups⟩

/-- The characters that comparisons are made of. -/
def signs : List Char :=
  ['=', '<', '>', '~', '!']

theorem comparison_starts {word : String} (member : word ∈ comparisons) :
    ∃ c rest, word.toList = c :: rest ∧ c ∈ signs := by
  simp only [comparisons, List.mem_cons, List.not_mem_nil, or_false] at member
  rcases member with rfl | rfl | rfl | rfl | rfl | rfl | rfl | rfl <;>
    exact ⟨_, _, rfl, by decide⟩

theorem comparison_boundary {word : String} (member : word ∈ comparisons) :
    ∀ c ∈ (word.toList ++ rest).head?,
      isBlank c = false ∧ c ≠ '[' ∧ isNameChar c = false := by
  obtain ⟨c, more, spelled, sign⟩ := comparison_starts member
  have each : ∀ c ∈ signs,
      isBlank c = false ∧ c ≠ '[' ∧ isNameChar c = false := by decide
  rw [spelled]
  intro d head
  obtain rfl : c = d := by simpa using head
  exact each c sign

/-- Everything behind the first comparison is taken for the version. -/
theorem search_of_specifier (wellFormed : package.WellFormed)
    (specified : package.specifier = some specifier)
    (inLine : '\n' ∉ specifier.rest ++ tail) :
    ∃ found, pattern.search (package.spell ++ tail) = some found ∧
      found.group 1 = package.name ∧
      found.group? 2 = some specifier.first.comparison.toList ∧
      found.group? 3 = some (specifier.rest ++ tail) := by
  obtain ⟨isGap, compared, -⟩ := wellFormed.specifier specifier specified
  obtain ⟨starts, apart⟩ := Clause.version_starts compared
  let version := specifier.first.comparison.toList ++
    (specifier.first.gap ++ (specifier.rest ++ tail))
  have split : package.spell ++ tail = package.name ++
      (package.extras.elim [] Extras.spell ++ (specifier.gap ++ version)) := by
    simp [Package.spell, specified, Specifier.spell, version]
  obtain ⟨middle, front, rest, groups⟩ :=
    @exists_leads_front package specifier.gap version wellFormed isGap
      (comparison_boundary compared.1)
  have begins : Starts (specifier.rest ++ tail) := starts.append.append
  have other : (specifier.rest ++ tail).head? ≠ some '=' := by
    rw [Specifier.rest, List.append_assoc,
      List.head?_append_of_ne_nil _ starts.filled]
    exact apart
  obtain ⟨after, back, ends, kept⟩ :=
    exists_leads_version compared rest begins other inLine
  have last : Leads (concat [opt versionPattern, textEnd]) middle after :=
    back.opt.seq (Pattern.leads_textEnd ends)
  have whole : Leads pattern (.start [] (package.spell ++ tail)) after := by
    rw [split]
    exact front.concat last
  refine ⟨_, Pattern.search_of_leads_start whole, ?_, ?_, ?_⟩
  · simp [Pattern.Match.group, Pattern.group?_ending, kept, groups,
      List.lookup_cons]
  · simp [Pattern.group?_ending, kept, rest, version, List.lookup_cons]
  · have third : after.groups.lookup 3 = some (specifier.rest ++ tail,
        (specifier.rest ++ tail).length) := by
      rw [kept]
      rfl
    rw [Pattern.group?_ending, third]
    exact congrArg some List.take_length

theorem versionPattern_fails {place : Place}
    (other : ∀ c ∈ place.rest.head?, c ∉ signs) :
    versionPattern.ways place = [] := by
  refine Pattern.ways_seq_of_left ?_
  have fails : comparisonPattern.ways place = [] := by
    refine ways_oneOf_literals fun word member starts => ?_
    obtain ⟨c, rest, spelled, sign⟩ := comparison_starts member
    rw [spelled] at starts
    obtain ⟨more, split⟩ := starts
    exact other c (by simp [← split]) sign
  rw [Pattern.ways_group, fails, List.map_nil]

/-- A name with extras alone has no version. -/
theorem search_of_bare (wellFormed : package.WellFormed)
    (bare : package.specifier = none) :
    ∃ found, pattern.search package.spell = some found ∧
      found.group 1 = package.name ∧ found.group? 2 = none := by
  have split : package.spell = package.name ++
      (package.extras.elim [] Extras.spell ++ ([] ++ [])) := by
    simp [Package.spell, bare]
  obtain ⟨middle, front, rest, groups⟩ :=
    @exists_leads_front package [] [] wellFormed isGap_nil (by simp)
  have fails : versionPattern.ways middle = [] :=
    versionPattern_fails (by simp [rest])
  have last : Leads (concat [opt versionPattern, textEnd]) middle middle :=
    (Pattern.leads_opt_of_fails fails).seq (Pattern.leads_textEnd rest)
  have whole : Leads pattern (.start [] package.spell) middle := by
    rw [split]
    exact front.concat last
  refine ⟨_, Pattern.search_of_leads_start whole, ?_, ?_⟩
  · simp [Pattern.Match.group, Pattern.group?_ending, groups, split]
  · simp [Pattern.group?_ending, groups]

/-- What is read of a text stops in front of a character that is refused. -/
theorem exists_suffix_of_split {test : Char → Bool} {front stuff : List Char}
    {mark : Char} (split : front ++ mark :: stuff = text ++ rest)
    (within : ∀ c ∈ text, test c = true)
    (refused : ∃ c ∈ front ++ [mark], test c = false) :
    ∃ back, back <:+ front ∧ rest = back ++ mark :: stuff := by
  rcases List.append_eq_append_iff.mp split with
    ⟨between, rfl, later⟩ | ⟨between, rfl, rfl⟩
  · cases between with
    | nil => exact ⟨[], List.nil_suffix, later.symm⟩
    | cons d between =>
        obtain ⟨rfl, -⟩ := List.cons.inj later
        obtain ⟨c, member, refuses⟩ := refused
        have inside : c ∈ front ++ mark :: between := by
          simp only [List.mem_append, List.mem_singleton] at member
          rcases member with member | rfl
          · exact List.mem_append_left _ member
          · simp
        rw [within c inside] at refuses
        cases refuses
  · exact ⟨between, List.suffix_append text between, rfl⟩

theorem name_of_mem_ways {place after : Place}
    (inGroup : after ∈ (group 1 namePattern).ways place) :
    ∃ text, place.rest = text ++ after.rest ∧
      ∀ c ∈ text, isNameChar c = true := by
  obtain ⟨named, way, rfl⟩ := List.mem_map.mp inGroup
  obtain ⟨middle, first, others⟩ := List.mem_flatMap.mp way
  obtain ⟨c, rest, split, starts, rfl⟩ :=
    Pattern.eq_past_of_mem_ways_char first
  obtain ⟨text, last, equal, within, rfl⟩ :=
    Pattern.eq_past_of_mem_roundWays others
  rw [Place.past_rest] at equal
  refine ⟨c :: text, by simp [split, equal], ?_⟩
  exact List.forall_mem_cons.mpr
    ⟨isNameChar_of_isAsciiAlphanumeric starts, within⟩

theorem brackets_of_mem_ways {place after : Place}
    (way : after ∈ extrasPattern.ways place) :
    ∃ text, place.rest = '[' :: (text ++ ']' :: after.rest) ∧ ']' ∉ text := by
  obtain ⟨opened, first, others⟩ := List.mem_flatMap.mp way
  obtain ⟨middle, second, third⟩ := List.mem_flatMap.mp others
  obtain ⟨c, rest, split, same, rfl⟩ := Pattern.eq_past_of_mem_ways_char first
  obtain rfl := beq_iff_eq.mp same
  obtain ⟨text, last, equal, within, rfl⟩ :=
    Pattern.eq_past_of_mem_roundWays second
  obtain ⟨d, more, closed, sameToo, rfl⟩ :=
    Pattern.eq_past_of_mem_ways_char third
  obtain rfl := beq_iff_eq.mp sameToo
  rw [Place.past_rest] at equal closed
  refine ⟨text, by simp [split, equal, closed], fun member => ?_⟩
  have other := within ']' member
  simp at other

/-- Neither name, white space nor extras reach beyond the mark behind a text,
and no comparison starts in front of it. -/
structure Blocks (front : List Char) (mark : Char) : Prop where
  solid : isBlank mark = false
  bracket : mark ∉ ['[', ']']
  name : ∃ c ∈ front ++ [mark], isNameChar c = false
  plain : ∀ c ∈ front ++ [mark], c ∉ signs
  closed : ∀ inside, '[' :: inside <:+ front → ']' ∈ inside

section Blocked

variable {front back stuff : List Char} {mark : Char} {place after : Place}
  (blocks : Blocks front mark)

include blocks

theorem Blocks.blanks (suffix : back <:+ front)
    (split : place.rest = back ++ mark :: stuff)
    (way : after ∈ Pattern.blanks.ways place) :
    ∃ back, back <:+ front ∧ after.rest = back ++ mark :: stuff := by
  obtain ⟨gap, rest, equal, white, rfl⟩ := Pattern.blank_of_mem_ways_blanks way
  obtain ⟨last, lastly, ends⟩ := exists_suffix_of_split
    (split.symm.trans equal) white ⟨mark, by simp, blocks.solid⟩
  exact ⟨last, lastly.trans suffix, ends⟩

theorem Blocks.extras (suffix : back <:+ front)
    (split : place.rest = back ++ mark :: stuff)
    (way : after ∈ (opt extrasPattern).ways place) :
    ∃ back, back <:+ front ∧ after.rest = back ++ mark :: stuff := by
  rcases List.mem_append.mp way with some | none
  · obtain ⟨text, equal, plain⟩ := brackets_of_mem_ways some
    rw [split] at equal
    cases back with
    | nil =>
        obtain ⟨rfl, -⟩ := List.cons.inj equal
        exact absurd List.mem_cons_self blocks.bracket
    | cons c inside =>
        obtain ⟨rfl, inner⟩ := List.cons.inj equal
        obtain ⟨last, lastly, ends⟩ := @exists_suffix_of_split _ _
          (· != ']') _ _ _ inner
          (fun c member => by
            have other : c ≠ ']' := fun same => plain (same ▸ member)
            simpa using other)
          ⟨']', List.mem_append_left _ (blocks.closed inside suffix), by simp⟩
        cases last with
        | nil =>
            obtain ⟨rfl, -⟩ := List.cons.inj ends
            exact absurd (by simp) blocks.bracket
        | cons d last =>
            obtain ⟨-, rest⟩ := List.cons.inj ends
            refine ⟨last, ?_, rest⟩
            exact (List.suffix_cons d last).trans
              (lastly.trans ((List.suffix_cons '[' inside).trans suffix))
  · obtain rfl : after = place := List.mem_singleton.mp none
    exact ⟨back, suffix, split⟩

theorem Blocks.ways (split : place.rest = front ++ mark :: stuff) :
    (concat [group 1 namePattern, Pattern.blanks, opt extrasPattern,
      Pattern.blanks, opt versionPattern, textEnd]).ways place = [] := by
  refine ways_seq_eq_nil.mpr fun named inGroup => ?_
  obtain ⟨name, equal, within⟩ := name_of_mem_ways inGroup
  obtain ⟨first, firstly, rest⟩ := exists_suffix_of_split
    (split.symm.trans equal) within blocks.name
  refine ways_seq_eq_nil.mpr fun spaced inBlanks => ?_
  obtain ⟨second, secondly, restToo⟩ := blocks.blanks firstly rest inBlanks
  refine ways_seq_eq_nil.mpr fun extended inExtras => ?_
  obtain ⟨third, thirdly, later⟩ := blocks.extras secondly restToo inExtras
  refine ways_seq_eq_nil.mpr fun last inBlanks => ?_
  obtain ⟨fourth, fourthly, ends⟩ := blocks.blanks thirdly later inBlanks
  have fails : versionPattern.ways last = [] := by
    refine versionPattern_fails fun c head => ?_
    rw [ends] at head
    refine blocks.plain c ?_
    cases fourth with
    | nil =>
        obtain rfl : mark = c := by simpa using head
        simp
    | cons d fourth =>
        obtain rfl : d = c := by simpa using head
        exact List.mem_append_left _ (fourthly.subset List.mem_cons_self)
  refine ways_seq_eq_nil.mpr fun final atEnd => ?_
  rw [Pattern.ways_opt_of_fails fails, List.mem_singleton] at atEnd
  have notEnd : textEnd.ways last = [] := by
    rw [Pattern.ways_textEnd, ends]
    simp
  rw [atEnd]
  exact notEnd

end Blocked

theorem mem_separators_of_mem_signs : ∀ c ∈ signs, c ∈ separators := by
  decide

theorem not_mem_separators_of_isGap (isGap : IsGap gap) :
    ∀ c ∈ gap, c ∉ separators := by
  have solid : ∀ c ∈ separators, isBlank c = false := by decide
  exact fun c member separates => isGap.not_mem (solid c separates) member

theorem Extras.plain {extras : Extras} (wellFormed : extras.WellFormed) :
    ∀ c ∈ extras.spell, c ∉ signs := by
  obtain ⟨white, plain⟩ := wellFormed
  intro c member
  simp only [Extras.spell, List.mem_append, List.mem_cons, List.not_mem_nil,
    or_false] at member
  rcases member with inGap | rfl | inText | rfl
  · exact fun sign => not_mem_separators_of_isGap white c inGap
      (mem_separators_of_mem_signs c sign)
  · decide
  · exact fun sign => (plain c inText).1 (mem_separators_of_mem_signs c sign)
  · decide

/-- A text with one mark has one rest behind that mark. -/
theorem eq_of_cons_suffix {mark : Char} {before after inside : List Char}
    (absent : mark ∉ before) (absentToo : mark ∉ after)
    (suffix : mark :: inside <:+ before ++ mark :: after) : inside = after := by
  obtain ⟨front, split⟩ := suffix
  rcases List.append_eq_append_iff.mp split with
    ⟨between, rfl, rest⟩ | ⟨between, rfl, rest⟩
  · cases between with
    | nil => exact (List.cons.inj rest).2
    | cons c between =>
        obtain ⟨rfl, -⟩ := List.cons.inj rest
        exact absurd (by simp) absent
  · cases between with
    | nil => exact (List.cons.inj rest).2.symm
    | cons c between =>
        obtain ⟨-, rfl⟩ := List.cons.inj rest
        exact absurd (by simp) absentToo

theorem Package.closed (wellFormed : package.WellFormed)
    (bare : package.specifier = none) (isGap : IsGap gap) {inside : List Char}
    (suffix : '[' :: inside <:+ package.spell ++ gap) : ']' ∈ inside := by
  have named : '[' ∉ package.name := fun member =>
    not_mem_separators_of_isNameChar (wellFormed.name.chars _ member)
      (by decide)
  have spaced : '[' ∉ gap := isGap.not_mem (by decide)
  cases extras : package.extras with
  | none =>
      have opened : '[' ∈ package.spell ++ gap :=
        suffix.subset List.mem_cons_self
      simp [Package.spell, bare, extras, named, spaced] at opened
  | some written =>
      obtain ⟨white, plain⟩ := wellFormed.extras written extras
      have split : package.spell ++ gap = (package.name ++ written.gap) ++
          '[' :: (written.text ++ ']' :: gap) := by
        simp [Package.spell, bare, extras, Extras.spell]
      have before : '[' ∉ package.name ++ written.gap :=
        List.not_mem_append named (white.not_mem (by decide))
      have after : '[' ∉ written.text ++ ']' :: gap := by
        have text : '[' ∉ written.text := fun member =>
          (plain _ member).1 (by decide)
        simp [text, spaced]
      rw [split] at suffix
      rw [eq_of_cons_suffix before after suffix]
      simp

/-- Behind a name with extras nothing may stand but a comparison. -/
theorem search_of_blocked {c : Char} {stuff : List Char}
    (wellFormed : package.WellFormed) (bare : package.specifier = none)
    (isGap : IsGap gap) (solid : isBlank c = false)
    (other : c ∉ '[' :: ']' :: signs)
    (parted : isNameChar c = true → gap ≠ []) :
    pattern.search (package.spell ++ (gap ++ c :: stuff)) = none := by
  have blocks : Blocks (package.spell ++ gap) c := by
    refine ⟨solid, fun member => other (by simp_all), ?_, ?_,
      fun inside => Package.closed wellFormed bare isGap⟩
    · cases named : isNameChar c with
      | false => exact ⟨c, by simp, named⟩
      | true =>
          obtain ⟨d, rest, rfl⟩ := List.exists_cons_of_ne_nil (parted named)
          exact ⟨d, by simp,
            isNameChar_of_isBlank (isGap.blank d List.mem_cons_self)⟩
    · have plain : ∀ d ∈ package.name, d ∉ signs := fun d member sign =>
        not_mem_separators_of_isNameChar (wellFormed.name.chars d member)
          (mem_separators_of_mem_signs d sign)
      have spaced : ∀ d ∈ gap, d ∉ signs := fun d member sign =>
        not_mem_separators_of_isGap isGap d member
          (mem_separators_of_mem_signs d sign)
      have extended : ∀ d ∈ package.extras.elim [] Extras.spell, d ∉ signs := by
        cases extras : package.extras with
        | none => simp
        | some written =>
            exact Extras.plain (wellFormed.extras written extras)
      intro d member
      simp only [Package.spell, bare, Option.elim, List.append_nil,
        List.mem_append, List.mem_singleton] at member
      rcases member with ((inName | inExtras) | inGap) | rfl
      · exact plain d inName
      · exact extended d inExtras
      · exact spaced d inGap
      · exact fun sign => other (by simp [sign])
  refine Pattern.search_textStart_eq_none (@Blocks.ways _ stuff _ _ blocks ?_)
  simp [Place.start]

end Searching

/-! ## Reading requirements -/

/-- The requirement that a match of the pattern gives. -/
def ofMatch (scope : String) (found : Pattern.Match) : Requirement where
  name := String.ofList (lower (found.group 1))
  version :=
    match found.group? 2, found.group? 3 with
    | some comparison, some version =>
        let version := trim version
        some (String.ofList
          (if comparison == "==".toList then version
          else comparison ++ version))
    | _, _ => none
  scope

theorem read_eq (scope : String) (text : List Char) :
    read scope text =
      (pattern.search (trim (beforeFirst " @ ".toList
        (trim (beforeFirst [';'] text))))).map (ofMatch scope) := by
  rw [read]
  dsimp only
  cases pattern.search _ <;> rfl

section Reading

variable {package : Package} {specifier : Specifier} {tail : List Char}

/-- What is taken for the version is the version that is meant exactly if
nothing is added to it and no equals sign is lost. -/
theorem Specifier.taken_eq_version_iff (wellFormed : specifier.WellFormed) :
    (if specifier.first.comparison.toList == "==".toList then
        specifier.rest ++ tail
      else specifier.first.comparison.toList ++ (specifier.rest ++ tail)) =
        specifier.version ↔
      tail = [] ∧
        (specifier.first.comparison = "==" → specifier.others = []) := by
  obtain ⟨starts, apart⟩ := Clause.version_starts wellFormed.2.1
  have other : (specifier.rest ++ tail).head? ≠ some '=' := by
    rw [Specifier.rest, List.append_assoc,
      List.head?_append_of_ne_nil _ starts.filled]
    exact apart
  by_cases equals : specifier.first.comparison = "=="
  · by_cases single : specifier.others = []
    · simp [Specifier.version, equals, single]
    · have differs : specifier.rest ++ tail ≠ '=' :: '=' :: specifier.rest :=
        fun same => other (by rw [same]; rfl)
      simp [Specifier.version, equals, single, differs]
  · have unequal : specifier.first.comparison.toList ≠ "==".toList :=
      fun same => equals (String.toList_inj.mp same)
    rw [if_neg (by simpa using unequal), Specifier.version,
      if_neg fun both => equals both.1]
    simp [equals]

/-- A requirement with something behind it is read as what is meant exactly if
nothing stands behind it and no equals sign is lost. -/
theorem search_eq_requirement_iff (scope : String)
    (wellFormed : package.WellFormed)
    (shape : tail = [] ∨ ∃ gap c stuff, tail = gap ++ c :: stuff ∧ IsGap gap ∧
      isBlank c = false ∧ c ∉ '[' :: ']' :: signs ∧
      (isNameChar c = true → gap ≠ []))
    (ends : tail = [] ∨ Ends tail) (inLine : '\n' ∉ tail) :
    (pattern.search (package.spell ++ tail)).map (ofMatch scope) =
        some (package.requirement scope) ↔
      tail = [] ∧ package.Exact := by
  have name : lower package.name = package.name.map Char.toLower :=
    lower_of_isNameChar wellFormed.name.chars
  cases specified : package.specifier with
  | none =>
      rcases shape with rfl | ⟨gap, c, stuff, rfl, isGap, solid, other, parted⟩
      · obtain ⟨found, search, one, two⟩ := search_of_bare wellFormed specified
        rw [List.append_nil, search]
        simp [ofMatch, one, two, name, Package.requirement, specified,
          Package.Exact]
      · rw [search_of_blocked wellFormed specified isGap solid other parted]
        simp
  | some specifier =>
      have specifies := wellFormed.specifier specifier specified
      obtain ⟨starts, -⟩ := Clause.version_starts specifies.2.1
      obtain ⟨found, search, one, two, three⟩ :=
        search_of_specifier wellFormed specified
          (List.not_mem_append (Specifier.rest_lacks (by decide) specifies)
            inLine)
      have last : Ends (specifier.rest ++ tail) := by
        rcases ends with rfl | last
        · simpa using Specifier.ends specifies
        · exact last.append
      have trimmed : trim (specifier.rest ++ tail) = specifier.rest ++ tail :=
        trim_eq_self starts.append.append last
      rw [search, Option.map_some, Option.some.injEq]
      simp only [ofMatch, one, two, three, name, trimmed, Package.requirement,
        specified, Option.map_some, Requirement.mk.injEq, Option.some.injEq,
        String.ofList_inj, true_and, and_true, Package.Exact,
        Option.mem_def, forall_eq']
      exact Specifier.taken_eq_version_iff specifies

end Reading

end ArchSurvey.Manifest.Requirement
