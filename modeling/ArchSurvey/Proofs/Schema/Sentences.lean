import ArchSurvey.Proofs.Schema.Changes

/-!
# Reading sentences

The text of a sentence is read as what is understood of it.  The patterns of
sentences take the white space before a list with the words before it, and a
list of tables to be dropped ends where nothing but white space follows.
-/

namespace ArchSurvey.Schema

open Text
open Text.Pattern (Spells Leads Place Match seq opt blanks blanks1 word oneOf
  concat)

/-- What is read of a sentence. -/
def Sentence.understood : Sentence → List Statement
  | .alter table actions => actions.flatMap (Action.understood table.text)
  | .create unlessExists table items =>
      (Sentence.create unlessExists table items).statements
  | .drop tables => (Sentence.drop tables).statements

/-- No action of the sentence is taken for another one. -/
def Sentence.Unmistakable : Sentence → Prop
  | .alter _ actions => ∀ action ∈ actions, action.Unmistakable
  | .create _ _ _ | .drop _ => True

section Spacing

variable {α : Type} {spelled : α → List Char → Prop} {items : List α}
  {text gap : List Char}

theorem Words.append_gap {words : List String} (here : Words words text)
    (filled : words ≠ []) (white : Gap gap) : Words words (text ++ gap) := by
  induction here with
  | nil => exact absurd rfl filled
  | @cons word words text space rest cased spaced others ih =>
      cases others with
      | nil =>
          have wider : Space (space ++ gap) := by
            refine ⟨by simp [spaced.1], fun c member => ?_⟩
            rcases List.mem_append.mp member with inside | behind
            · exact spaced.2 c inside
            · exact white c behind
          have whole : Words [word] (text ++ (space ++ gap) ++ []) :=
            .cons cased wider .nil
          simpa using whole
      | @cons second words _ _ _ _ _ _ =>
          rw [List.append_assoc]
          exact .cons cased spaced (ih (by simp))

/-- White space after the words that open a removal belongs to the last of
them. -/
theorem Words.exists_gap {opening words : List String} {condition : List Char}
    (here : Words opening text) (filled : opening ≠ [])
    (conditional : Words words condition) (white : Gap gap) :
    ∃ front back, text ++ condition ++ gap = front ++ back ∧
      Words opening front ∧ Words words back := by
  by_cases none : words = []
  · subst none
    cases conditional
    exact ⟨text ++ gap, [], by simp, here.append_gap filled white, .nil⟩
  · exact ⟨text, condition ++ gap, by simp, here,
      conditional.append_gap none white⟩

theorem Gap.append {before after : List Char} (one : Gap before)
    (two : Gap after) : Gap (before ++ after) := by
  intro c member
  rcases List.mem_append.mp member with inside | behind
  · exact one c inside
  · exact two c behind

theorem Separated.append_gap
    (separated : Separated ',' (fun item => Padded (spelled item)) items text)
    (white : Gap gap) :
    Separated ',' (fun item => Padded (spelled item)) items (text ++ gap) := by
  induction separated with
  | one padded =>
      obtain ⟨front, here, back⟩ := padded
      rw [List.append_assoc]
      exact .one ⟨front, here, back.append white⟩
  | more padded _ ih =>
      rw [List.append_assoc, List.cons_append]
      exact .more padded ih

/-- The white space before a list. -/
theorem Separated.exists_start
    (starts : ∀ item text, spelled item text → Starts text)
    (separated : Separated ',' (fun item => Padded (spelled item)) items text) :
    ∃ gap core, text = gap ++ core ∧ Gap gap ∧ Starts core ∧
      Separated ',' (fun item => Padded (spelled item)) items core := by
  cases separated with
  | one padded =>
      obtain @⟨before, core, after, front, here, back⟩ := padded
      have trimmed : Padded (spelled _) ([] ++ core ++ after) :=
        ⟨by simp [Gap], here, back⟩
      exact ⟨before, core ++ after, by simp, front,
        (starts _ _ here).append, .one trimmed⟩
  | @more item items _ rest padded others =>
      obtain @⟨before, core, after, front, here, back⟩ := padded
      have trimmed : Padded (spelled item) ([] ++ core ++ after) :=
        ⟨by simp [Gap], here, back⟩
      exact ⟨before, core ++ after ++ ',' :: rest, by simp, front, by
        rw [List.append_assoc]
        exact (starts _ _ here).append, .more trimmed others⟩

/-- The white space after a list. -/
theorem Separated.exists_end
    (ends : ∀ item text, spelled item text → Ends text)
    (separated : Separated ',' (fun item => Padded (spelled item)) items text) :
    ∃ core gap, text = core ++ gap ∧ Ends core ∧ Gap gap ∧
      Separated ',' (fun item => Padded (spelled item)) items core := by
  induction separated with
  | one padded =>
      obtain @⟨before, core, after, front, here, back⟩ := padded
      have trimmed : Padded (spelled _) (before ++ core ++ []) :=
        ⟨front, here, by simp [Gap]⟩
      rw [List.append_nil] at trimmed
      exact ⟨before ++ core, after, rfl, (ends _ _ here).append, back,
        .one trimmed⟩
  | more padded _ ih =>
      obtain ⟨core, gap, rfl, ended, white, others⟩ := ih
      refine ⟨_, gap, (List.append_assoc _ (',' :: core) gap).symm, ?_, white,
        .more padded others⟩
      rw [List.append_cons]
      exact ended.append

end Spacing

section Creation

variable {before text condition name gap body after : List Char}
  {place : Place}

/-- A word that is no beginning of a keyword is not found there. -/
theorem word_fails_at_keyword {sought other : String} {rest : List Char}
    (keyword : Keyword sought) (keywordToo : Keyword other)
    (short : sought.toList.length ≤ other.toList.length)
    (different : other.toList.take sought.toList.length ≠ sought.toList)
    (cased : Cased other.toList text) (split : place.rest = text ++ rest) :
    (word sought).ways place = [] := by
  rw [List.eq_nil_iff_forall_not_mem]
  intro stop way
  obtain ⟨found, tail, parted, spells, -⟩ :=
    Pattern.spells_of_mem_ways_word way
  have long : found.length ≤ text.length := by
    rw [← List.Forall₂.length_eq spells, ← cased.length_eq]
    exact short
  have same : text.take sought.toList.length = found := by
    have front := congrArg (List.take found.length) (split.symm.trans parted)
    rw [List.take_left, List.take_append_of_le_length long] at front
    rwa [List.Forall₂.length_eq spells]
  have begins : Cased (other.toList.take sought.toList.length) found := by
    rw [← same]
    exact List.forall₂_take _ cased
  exact different (begins.eq_of_spells
    (fun c member => keywordToo.2 c (List.mem_of_mem_take member)) keyword.2
    spells).symm

/-- No new table is temporary. -/
theorem temporary_fails {rest : List Char} {words : List String}
    (spelled : Words ("table" :: words) text)
    (split : place.rest = text ++ rest) :
    (oneOf
      [concat
          [opt (oneOf [phrase ["global"], phrase ["local"]]), word "temp",
            opt (word "orary"), blanks1],
        phrase ["unlogged"]]).ways place = [] := by
  cases spelled with
  | @cons _ _ letters space tail cased spaced _ =>
      obtain ⟨c, space, rfl⟩ := List.exists_cons_of_ne_nil spaced.1
      have edge := isWordChar_of_isBlank (spaced.2 c List.mem_cons_self)
      have split : place.rest = letters ++ (c :: (space ++ (tail ++ rest))) := by
        simp [split]
      have other {first : String} (keyword : Keyword first)
          (different : first ≠ "table") : (phrase [first]).ways place = [] :=
        phrase_fails_at_keyword keyword (by decide) different cased
          (by simpa using edge) split
      have scope : (opt (oneOf [phrase ["global"], phrase ["local"]])).ways
          place = [place] :=
        Pattern.ways_opt_of_fails (Pattern.ways_alt_eq_nil
          (other (by decide) (by decide)) (other (by decide) (by decide)))
      have temporary : (word "temp").ways place = [] :=
        word_fails_at_keyword (by decide) (by decide) (by decide) (by decide)
          cased split
      refine Pattern.ways_alt_eq_nil ?_ (other (by decide) (by decide))
      refine Pattern.ways_seq_eq_nil.mpr fun stop way => ?_
      rw [scope, List.mem_singleton] at way
      exact Pattern.ways_seq_of_left (way ▸ temporary)

/-- The words that say that a new table may exist already. -/
theorem leads_condition {unlessExists : Bool} {rest : List Char}
    (spelled : Words (if unlessExists then ["if", "not", "exists"] else [])
      condition) (starts : Starts rest)
    (refuses : unlessExists = false →
      (phrase ["if", "not", "exists"]).ways place = [])
    (split : place.rest = condition ++ rest) (fresh : place.groups = []) :
    ∃ stop, Leads (opt (Pattern.group 1 (phrase ["if", "not", "exists"]))) place
      stop ∧ stop.rest = rest ∧
        (stop.groups.lookup 1).isSome = unlessExists := by
  cases unlessExists with
  | true =>
      have keywords : ∀ word ∈ ["if", "not", "exists"], Keyword word := by
        decide
      exact ⟨place.keep 1 condition rest,
        (leads_phrase keywords (by simp) spelled starts.head split).group.opt,
        rfl, by simp⟩
  | false =>
      cases spelled
      refine ⟨place, Pattern.leads_opt_of_fails ?_, split, by simp [fresh]⟩
      rw [Pattern.ways_group, refuses rfl, List.map_nil]

/-- The opening of a new table is read up to its parenthesis, if its name is
not taken for the words before it. -/
theorem search_createTable {unlessExists : Bool}
    (front : Gap before)
    (words : Words ["create", "table"] text)
    (conditional : Words
      (if unlessExists then ["if", "not", "exists"] else []) condition)
    (filled : name ≠ []) (chars : ∀ c ∈ name, isNameChar c = true)
    (white : Gap gap) (list : List Char)
    (refuses : unlessExists = false → ∀ place : Place,
      place.rest = name ++ (gap ++ '(' :: list) →
        (phrase ["if", "not", "exists"]).ways place = []) :
    ∃ found, createTable.search (before ++ (text ++ (condition ++ (name ++
        (gap ++ '(' :: list))))) = some found ∧
      found.group 2 = name ∧ (found.group? 1).isSome = unlessExists ∧
        found.after = list := by
  have named : Starts name := starts_of_solid filled fun c member =>
    isBlank_of_isNameChar (chars c member)
  have both : Words (["create"] ++ ["table"]) text := words
  obtain ⟨opening, kind, rfl, first, second⟩ := both.exists_append
  have starts : Starts (condition ++ (name ++ (gap ++ '(' :: list))) := by
    cases unlessExists with
    | true => exact (Words.starts (by decide) conditional).append
    | false =>
        cases conditional
        exact named.append
  have solid : isBlank '(' = false := by decide
  have finish (place : Place)
      (split : place.rest = name ++ (gap ++ '(' :: list)) :
      Leads (seq (Pattern.group 2 namePattern) (seq blanks (Pattern.is '(')))
        place (((place.keep 2 name (gap ++ '(' :: list)).past gap
          ('(' :: list)).past ['('] list) :=
    (leads_name filled chars white.edge split).group.seq
      ((Pattern.leads_blanks rfl white (by simpa using solid)).seq
        (leads_is rfl))
  have later (place : Place) (split : place.rest =
      condition ++ (name ++ (gap ++ '(' :: list))) (fresh : place.groups = []) :
      ∃ stop, Leads (seq
          (opt (Pattern.group 1 (phrase ["if", "not", "exists"])))
          (seq (Pattern.group 2 namePattern) (seq blanks (Pattern.is '('))))
          place stop ∧ stop.rest = list ∧ ∃ groups,
            stop.groups = (2, name ++ (gap ++ '(' :: list), name.length) ::
              groups ∧ (groups.lookup 1).isSome = unlessExists := by
    obtain ⟨stop, leads, rest, kept⟩ := leads_condition conditional
      named.append (fun none => refuses none place (by
        subst none
        cases conditional
        exact split)) split fresh
    exact leads.exists_seq ⟨_, finish stop rest, rfl, stop.groups,
      by simp [rest], kept⟩
  let place := Place.start []
    (before ++ (opening ++ (kind ++ (condition ++ (name ++ (gap ++ '(' :: list))))))
  have start : Leads Pattern.textStart place place :=
    Pattern.leads_textStart rfl
  obtain ⟨stop, leads, rest, groups, kept, present⟩ :=
    start.exists_seq
      ((Pattern.leads_blanks rfl front
          (first.starts (by decide)).append.head).exists_seq
        ((leads_phrase (by decide) (by simp) first
            (second.starts (by decide)).append.head rfl).exists_seq
          ((Pattern.leads_opt_of_fails
              (temporary_fails second rfl)).exists_seq
            ((leads_phrase (by decide) (by simp) second starts.head
              rfl).exists_seq (later _ rfl rfl)))))
  have found : createTable.search _ = some _ :=
    Pattern.search_of_leads_start leads
  refine ⟨_, by simpa using found, ?_⟩
  simp [Match.group, Pattern.group?_ending, kept, rest, List.lookup_cons,
    present]

end Creation

section Alteration

variable {before text name space list : List Char}

/-- A change of a table is read up to the end of its actions, if the name of
the table is not taken for the words before it. -/
theorem search_alterTable (front : Gap before)
    (words : Words ["alter", "table"] text) (filled : name ≠ [])
    (chars : ∀ c ∈ name, isNameChar c = true) (spaced : Space space)
    (starts : Starts list)
    (refuses : ∀ words ∈ [["if", "exists"], ["only"]], ∀ place : Place,
      place.rest = name ++ (space ++ list) → (phrase words).ways place = []) :
    ∃ found, alterTable.search
        (before ++ (text ++ (name ++ (space ++ list)))) = some found ∧
      found.group 1 = name ∧ found.group 2 = list := by
  have named : Starts name := starts_of_solid filled fun c member =>
    isBlank_of_isNameChar (chars c member)
  let place := Place.start [] (before ++ (text ++ (name ++ (space ++ list))))
  have start : Leads Pattern.textStart place place :=
    Pattern.leads_textStart rfl
  have keepsName {place : Place} (split : place.rest = name ++ (space ++ list)) :
      Leads (Pattern.group 1 namePattern) place
        (place.keep 1 name (space ++ list)) :=
    (leads_name filled chars spaced.edge split).group
  have rest {place : Place} (split : place.rest = list) :
      Leads (Pattern.group 2 (Pattern.many Pattern.any)) place
        (place.keep 2 list []) :=
    (Pattern.leads_many (Pattern.readsOne_char _) (by simpa using split)
      (by simp) (by simp)).group
  have found : alterTable.search _ = some _ := Pattern.search_of_leads_start
    (start.seq ((Pattern.leads_blanks rfl front
        (words.starts (by decide)).append.head).seq
      ((leads_phrase (by decide) (by simp) words named.append.head rfl).seq
        ((Pattern.leads_opt_of_fails
            (refuses ["if", "exists"] (by simp) _ rfl)).seq
          ((Pattern.leads_opt_of_fails
              (refuses ["only"] (by simp) _ rfl)).seq
            ((keepsName rfl).seq ((Pattern.leads_blanks1 spaced.1 rfl spaced.2
                starts.head).seq ((rest rfl).seq
              (Pattern.leads_textEnd rfl)))))))))
  refine ⟨_, by simpa using found, ?_⟩
  simp [Match.group, Pattern.group?_ending, List.lookup_cons]

end Alteration

section Removal

variable {before text condition core trail : List Char} {place : Place}

/-- Keywords fail in a text that does not mention the first of them. -/
theorem phrase_fails_of_not_mentions {first : String} {words : List String}
    (keyword : Keyword first) (free : ¬Mentions first place.rest) :
    (phrase (first :: words)).ways place = [] := by
  apply phrase_fails
  intro found c rest split spelled
  rw [Bool.eq_false_iff]
  intro white
  apply free
  rw [split, mentions_append_cons (isWordChar_of_isBlank white),
    mentions_iff_spells (isWordChar_of_spells keyword.2 spelled)]
  exact .inl spelled

/-- What becomes of what depends on a table. -/
def behaviours : List String :=
  ["cascade", "restrict"]

theorem spells_of_behaviour_way {stop : Place}
    (way : stop ∈ (concat [blanks1,
      oneOf [word "cascade", word "restrict"]]).ways place) :
    ∃ behaviour ∈ behaviours, ∃ gap found rest,
      place.rest = gap ++ (found ++ rest) ∧ Space gap ∧
        Spells behaviour.toList found ∧ stop.rest = rest := by
  obtain ⟨middle, gapWay, others⟩ := List.mem_flatMap.mp way
  obtain ⟨gap, tail, split, filled, white, rfl⟩ :=
    Pattern.blank_of_mem_ways_blanks1 gapWay
  have one {behaviour : String}
      (way : stop ∈ (word behaviour).ways (place.past gap tail)) :
      ∃ found rest, place.rest = gap ++ (found ++ rest) ∧
        Spells behaviour.toList found ∧ stop.rest = rest := by
    obtain ⟨found, rest, parted, spelled, rfl⟩ :=
      Pattern.spells_of_mem_ways_word way
    rw [Place.past_rest] at parted
    exact ⟨found, rest, by rw [split, parted], spelled, rfl⟩
  rcases List.mem_append.mp others with here | there
  · obtain ⟨found, rest, parted, spelled, stopped⟩ := one here
    exact ⟨"cascade", by decide, gap, found, rest, parted, ⟨filled, white⟩,
      spelled, stopped⟩
  · obtain ⟨found, rest, parted, spelled, stopped⟩ := one there
    exact ⟨"restrict", by decide, gap, found, rest, parted, ⟨filled, white⟩,
      spelled, stopped⟩

theorem blanks_end_fails (solid : ¬Gap place.rest) :
    (seq blanks Pattern.textEnd).ways place = [] := by
  refine Pattern.ways_seq_eq_nil.mpr fun stop way => ?_
  obtain ⟨gap, rest, split, white, rfl⟩ :=
    Pattern.blank_of_mem_ways_blanks way
  have remains : rest ≠ [] := by
    rintro rfl
    rw [List.append_nil] at split
    exact solid (split ▸ white)
  simpa [Pattern.ways_textEnd] using remains

/-- The end of a removal of tables. -/
def removalEnd : Pattern :=
  seq (opt (concat [blanks1, oneOf [word "cascade", word "restrict"]]))
    (seq blanks Pattern.textEnd)

/-- A removal does not end before the last name. -/
theorem removalEnd_fails {front back : List Char} (ends : Ends back)
    (white : Gap trail)
    (free : ∀ behaviour ∈ behaviours, ¬Mentions behaviour (front ++ back))
    (split : place.rest = back ++ trail) : removalEnd.ways place = [] := by
  obtain ⟨c, last, solid⟩ := ends
  refine Pattern.ways_seq_eq_nil.mpr fun stop way => blanks_end_fails ?_
  intro remaining
  rcases List.mem_append.mp way with taken | stays
  · obtain ⟨behaviour, member, gap, found, rest, parted, spaced, spelled, rfl⟩ :=
      spells_of_behaviour_way taken
    have keywords : ∀ behaviour ∈ behaviours, Keyword behaviour := by decide
    have keyword := keywords behaviour member
    apply free behaviour member
    rw [← mentions_append_gap keyword white]
    have whole : front ++ back ++ trail = front ++ gap ++ (found ++ stop.rest) := by
      rw [List.append_assoc, ← split, parted, List.append_assoc]
    rw [whole, mentions_append_space keyword spaced,
      mentions_append_gap keyword remaining,
      mentions_iff_spells (isWordChar_of_spells keyword.2 spelled)]
    exact .inr spelled
  · obtain rfl : stop = place := by simpa [Pattern.ways_empty] using stays
    have blank := remaining c
      (by simp [split, List.mem_of_getLast? last])
    rw [solid] at blank
    cases blank

theorem leads_removalEnd (white : Gap trail) (split : place.rest = trail) :
    Leads removalEnd place (place.past trail []) := by
  have none : (concat [blanks1,
      oneOf [word "cascade", word "restrict"]]).ways place = [] := by
    rw [List.eq_nil_iff_forall_not_mem]
    intro stop way
    obtain ⟨behaviour, member, gap, found, rest, parted, -, spelled, -⟩ :=
      spells_of_behaviour_way way
    have keywords : ∀ behaviour ∈ behaviours, Keyword behaviour := by decide
    have keyword := keywords behaviour member
    obtain ⟨c, found, rfl⟩ :=
      List.exists_cons_of_ne_nil (Spells.filled spelled keyword.1)
    have wordly := isWordChar_of_spells keyword.2 spelled c List.mem_cons_self
    rw [isWordChar_of_isBlank (white c (by simp [← split, parted]))] at wordly
    cases wordly
  exact (Pattern.leads_opt_of_fails none).seq
    ((Pattern.leads_blanks (by simpa using split) white (by simp)).seq
      (Pattern.leads_textEnd rfl))

/-- A removal of tables keeps the list of their names. -/
theorem search_dropTable {words : List String} (front : Gap before)
    (opening : Words ["drop", "table"] text)
    (within : words ∈ [[], ["if", "exists"]])
    (conditional : Words words condition) (starts : Starts (core ++ trail))
    (ends : Ends core) (white : Gap trail)
    (free : ∀ word ∈ "if" :: behaviours, ¬Mentions word core) :
    ∃ found, dropTable.search
        (before ++ (text ++ (condition ++ (core ++ trail)))) = some found ∧
      found.group 1 = core := by
  have solid : Starts (condition ++ (core ++ trail)) := by
    simp only [List.mem_cons, List.not_mem_nil, or_false] at within
    rcases within with rfl | rfl
    · cases conditional
      exact starts
    · exact (conditional.starts (by decide)).append
  have optional {place : Place}
      (split : place.rest = condition ++ (core ++ trail)) :
      Leads (opt (phrase ["if", "exists"])) place
        (place.past condition (core ++ trail)) := by
    refine leads_opt_phrase (by decide) (by simp) within conditional
      starts.head (fun place split => ?_) split
    refine phrase_fails_of_not_mentions (by decide) ?_
    rw [split, mentions_append_gap (by decide) white]
    exact free "if" List.mem_cons_self
  have kept {place : Place} (split : place.rest = core ++ trail) :
      Leads (seq (Pattern.group 1 (Pattern.fewest1 Pattern.any)) removalEnd)
        place ((place.keep 1 core trail).past trail []) := by
    refine Pattern.leads_keep_fewest ends.filled split
      (fun front back equal _ filled place parted => ?_)
      (leads_removalEnd white rfl)
    subst equal
    exact removalEnd_fails (ends.of_append filled) white
      (fun behaviour member =>
        free behaviour (List.mem_cons_of_mem _ member)) parted
  let place := Place.start []
    (before ++ (text ++ (condition ++ (core ++ trail))))
  have start : Leads Pattern.textStart place place :=
    Pattern.leads_textStart rfl
  have found : dropTable.search _ = some _ := Pattern.search_of_leads_start
    (start.seq ((Pattern.leads_blanks rfl front
        (opening.starts (by decide)).append.head).seq
      ((leads_phrase (by decide) (by simp) opening solid.head rfl).seq
        ((optional rfl).seq (kept rfl)))))
  refine ⟨_, by simpa using found, ?_⟩
  simp [Match.group, Pattern.group?_ending]

end Removal

section Sentences

variable {sentence : Sentence} {text : List Char}

theorem SentenceText.segment (spelled : SentenceText sentence text) :
    Segment (· ≠ ';') text := by
  have weaken {text : List Char} (segment : Segment Inline text) :
      Segment (· ≠ ';') text :=
    segment.mono fun _ passes => passes.2
  cases spelled with
  | @create unlessExists table items text condition name gap body words
      conditional named white list =>
      have keywords : ∀ word ∈ if unlessExists then ["if", "not", "exists"]
          else [], Keyword word := by
        cases unlessExists <;> decide
      have inner : Segment (· ≠ ';') body := Separated.segment (by decide)
        (fun _ _ padded => weaken (padded.segment fun _ => ItemText.segment))
        list
      have opening := weaken (((words.segment (by decide)).append
        (conditional.segment keywords)).append
          (named.inline.append (segment_gap white)))
      have whole : text ++ condition ++ name ++ gap ++ '(' :: body ++ [')'] =
          text ++ condition ++ (name ++ gap) ++ ('(' :: body ++ [')']) := by
        simp
      rw [whole]
      exact opening.append inner.parenthesized
  | alter words named spaced list =>
      exact (weaken (((words.segment (by decide)).append named.inline).append
        (segment_gap spaced.2))).append (Separated.segment (by decide)
          (fun _ _ padded => weaken (padded.segment fun _ =>
            ActionText.segment)) list)
  | drop words within conditional list =>
      have keywords : ∀ words ∈ [[], ["if", "exists"]], ∀ word ∈ words,
          Keyword word := by decide
      exact (weaken ((words.segment (by decide)).append
        (conditional.segment (keywords _ within)))).append
          (Separated.segment (by decide) (fun _ _ padded =>
            weaken (padded.segment fun _ => QualifiedText.inline)) list)

theorem SentenceText.starts (spelled : SentenceText sentence text) :
    Starts text := by
  cases spelled with
  | create words _ _ _ _ =>
      simp only [List.append_assoc]
      exact (words.starts (by decide)).append
  | alter words _ _ _ =>
      simp only [List.append_assoc]
      exact (words.starts (by decide)).append
  | drop words _ _ _ =>
      rw [List.append_assoc]
      exact (words.starts (by decide)).append

theorem readStatement_create {unlessExists : Bool} {table : Name}
    {items : List Item}
    (padded : Padded (SentenceText (.create unlessExists table items)) text) :
    readStatement text =
      .ok (Sentence.create unlessExists table items).statements := by
  obtain @⟨before, _, after, front, spelled, back⟩ := padded
  cases spelled with
  | @create _ _ _ words condition name gap body opening conditional named white
      list =>
      obtain ⟨found, search, kept, present, rest⟩ :=
        search_createTable front opening conditional named.filled named.chars
          white (body ++ ')' :: after) fun _ place split =>
            named.phrase_fails (by decide) (by decide)
              (fun c member =>
                isWordChar_of_isNameChar_eq_false (white.edge c member)) split
      have inner : Segment (· ≠ ';') body := Separated.segment (by decide)
        (fun _ _ padded => (padded.segment fun _ => ItemText.segment).mono
          fun _ passes => passes.2) list
      have closed : insideParentheses found.after = some body := by
        rw [rest]
        exact insideParentheses_segment inner after
      have whole : before ++ (words ++ condition ++ name ++ gap ++
          '(' :: body ++ [')']) ++ after = before ++ (words ++ (condition ++
            (name ++ (gap ++ '(' :: (body ++ ')' :: after))))) := by simp
      rw [whole, readStatement, search]
      simp [closed, kept, present, named.identifier_self,
        readTable_separated list, Sentence.statements]

theorem flatMap_readAction {table : String} {actions : List Action}
    {pieces : List (List Char)}
    (spelled : List.Forall₂ (fun action => Padded (ActionText action)) actions
      pieces) :
    pieces.flatMap (readAction table) =
      actions.flatMap (Action.understood table) := by
  induction spelled with
  | nil => rfl
  | cons here _ ih =>
      rw [List.flatMap_cons, List.flatMap_cons, readAction_padded here, ih]

theorem readStatement_alter {table : Name} {actions : List Action}
    (padded : Padded (SentenceText (.alter table actions)) text) :
    readStatement text =
      .ok (actions.flatMap (Action.understood table.text)) := by
  obtain @⟨before, _, after, front, spelled, back⟩ := padded
  cases spelled with
  | @alter _ _ words name space list opening named spaced separated =>
      obtain ⟨gap, core, parted, white, starts, changes⟩ :=
        (separated.append_gap back).exists_start fun _ _ => ActionText.starts
      have wider : Space (space ++ gap) :=
        ⟨by simp [spaced.1], Gap.append spaced.2 white⟩
      have edge : ∀ c ∈ (space ++ gap ++ core).head?, isWordChar c = false :=
        fun c member => isWordChar_of_isNameChar_eq_false (wider.edge c member)
      have refuses : ∀ words ∈ [["if", "exists"], ["only"]],
          ∀ place : Place, place.rest = name ++ (space ++ gap ++ core) →
            (phrase words).ways place = [] := by
        simp only [List.forall_mem_cons]
        exact ⟨fun place split =>
          named.phrase_fails (by decide) (by decide) edge split,
          fun place split =>
            named.phrase_fails (by decide) (by decide) edge split, by simp⟩
      obtain ⟨found, search, kept, rest⟩ := search_alterTable front opening
        named.filled named.chars wider starts refuses
      have whole : before ++ (words ++ name ++ space ++ list) ++ after =
          before ++ (words ++ (name ++ (space ++ gap ++ core))) := by
        simp [← parted]
      have created : createTable.search (before ++ (words ++ (name ++
          (space ++ gap ++ core)))) = none :=
        search_opening_eq_none (by decide) (by decide) (by decide) front
          opening
      have pieces := splitOutside_padded (fun _ _ => ActionText.segment)
        (fun _ _ => ActionText.starts) changes
      rw [whole, readStatement, created, search]
      simp only [kept, rest, named.identifier_self, flatMap_readAction pieces]

theorem readStatement_drop {tables : List Name}
    (padded : Padded (SentenceText (.drop tables)) text) :
    readStatement text = .ok (Sentence.drop tables).statements := by
  obtain @⟨before, _, after, front, spelled, back⟩ := padded
  cases spelled with
  | @drop _ kind words condition list opening within conditional separated =>
      obtain ⟨gap, others, parted, white, starts, later⟩ :=
        (separated.append_gap back).exists_start fun _ _ => QualifiedText.starts
      obtain ⟨core, trail, rfl, ends, blank, names⟩ :=
        later.exists_end fun _ _ => QualifiedText.ends
      have free : ∀ word ∈ "if" :: behaviours, ¬Mentions word core := by
        have facts : ∀ word ∈ "if" :: behaviours,
            Keyword word ∧ word ∈ reserved := by decide
        intro word member
        have known := facts word member
        exact names.not_mentions fun _ _ padded =>
          padded.not_mentions known.1 fun _ named =>
            named.not_mentions known.1 known.2
      obtain ⟨first, second, equal, openingToo, conditionalToo⟩ :=
        opening.exists_gap (by simp) conditional white
      obtain ⟨found, search, kept⟩ := search_dropTable front openingToo within
        conditionalToo starts ends blank free
      have whole : before ++ (words ++ condition ++ list) ++ after =
          before ++ (first ++ (second ++ (core ++ trail))) := by
        calc
          _ = before ++ (words ++ condition ++ (list ++ after)) := by simp
          _ = before ++ (words ++ condition ++ gap ++ (core ++ trail)) := by
            simp [parted]
          _ = before ++ (first ++ (second ++ (core ++ trail))) := by
            simp [equal]
      have created : createTable.search
          (before ++ (first ++ (second ++ (core ++ trail)))) = none :=
        search_opening_eq_none (by decide) (by decide) (by decide) front
          openingToo
      have altered : alterTable.search
          (before ++ (first ++ (second ++ (core ++ trail)))) = none :=
        search_opening_eq_none (by decide) (by decide) (by decide) front
          openingToo
      rw [whole, readStatement, created, altered, search]
      simp [kept, identifiers_separated names, Sentence.statements,
        Function.comp_def]

/-- What is read of the text of a sentence. -/
theorem readStatement_padded (padded : Padded (SentenceText sentence) text) :
    readStatement text = .ok sentence.understood := by
  cases sentence with
  | create unlessExists table items => exact readStatement_create padded
  | alter table actions => exact readStatement_alter padded
  | drop tables => exact readStatement_drop padded

end Sentences

end ArchSurvey.Schema
