import ArchSurvey.Proofs.Schema.Types

/-!
# Reading columns

The text of a column with white space around it is read as the column that its
declaration means: the words are found up to the first keyword, and a pattern
for a clause finds the first such clause or nothing.
-/

namespace ArchSurvey.Schema

open Text
open Text.Pattern (Spells Leads Place concat seq word wordEdge group besideWord
  Match)

section Edges

variable {keyword : String} {text front back rest : List Char}

/-- A word between a place that is no word and a blank is mentioned. -/
theorem mentions_of_spells (proper : Keyword keyword)
    (spelled : Spells keyword.toList text) {c : Char}
    (white : isBlank c = true) (edge : besideWord front.getLast? = false) :
    Mentions keyword (front ++ (text ++ c :: rest)) := by
  have here : Mentions keyword text := by
    rwa [mentions_iff_spells (isWordChar_of_spells proper.2 spelled)]
  have upto : Mentions keyword (text ++ c :: rest) := by
    rw [mentions_append_cons (isWordChar_of_isBlank white)]
    exact .inl here
  rcases List.eq_nil_or_concat front with rfl | ⟨before, d, rfl⟩
  · exact upto
  · rw [List.concat_eq_append, List.getLast?_concat] at edge
    rw [List.concat_eq_append, List.append_assoc, List.singleton_append,
      mentions_append_cons edge]
    exact .inr upto

theorem exists_of_edge_way {pattern : Pattern} {place after : Place}
    (way : after ∈ (seq wordEdge (seq (phrase [keyword]) pattern)).ways place)
    (proper : Keyword keyword) :
    ∃ text c rest, place.rest = text ++ c :: rest ∧
      Spells keyword.toList text ∧ isBlank c = true ∧
        besideWord place.before = false := by
  obtain ⟨same, edgeWay, others⟩ := List.mem_flatMap.mp way
  rw [Pattern.ways_wordEdge] at edgeWay
  split at edgeWay
  · rename_i edge
    obtain rfl := List.mem_singleton.mp edgeWay
    obtain ⟨middle, phraseWay, -⟩ := List.mem_flatMap.mp others
    obtain ⟨end_, wordWay, gapWay⟩ := List.mem_flatMap.mp phraseWay
    obtain ⟨text, tail, split, spelled, rfl⟩ :=
      Pattern.spells_of_mem_ways_word wordWay
    obtain ⟨gap, rest, parted, filled, white, -⟩ :=
      Pattern.blank_of_mem_ways_blanks1 gapWay
    obtain ⟨c, gap, rfl⟩ := List.exists_cons_of_ne_nil filled
    rw [Place.past_rest] at parted
    refine ⟨text, c, gap ++ rest, by simp [split, parted], spelled,
      white c List.mem_cons_self, ?_⟩
    obtain ⟨d, text, rfl⟩ :=
      List.exists_cons_of_ne_nil (Spells.filled spelled proper.1)
    have wordly :=
      isWordChar_of_spells proper.2 spelled d List.mem_cons_self
    simpa [split, besideWord, wordly] using edge
  · simp at edgeWay

/-- A pattern for a word finds nothing where the word is not mentioned. -/
theorem edge_fails {pattern : Pattern} (proper : Keyword keyword)
    (free : ¬Mentions keyword (front ++ back)) :
    (seq wordEdge (seq (phrase [keyword]) pattern)).ways
      (.start front back) = [] := by
  rw [List.eq_nil_iff_forall_not_mem]
  intro after way
  obtain ⟨text, c, rest, split, spelled, white, edge⟩ :=
    exists_of_edge_way way proper
  have split : back = text ++ c :: rest := split
  rw [split] at free
  exact free (mentions_of_spells proper spelled white edge)

/-- Nor does it before a text that follows white space. -/
theorem edge_fails_before {pattern : Pattern} (proper : Keyword keyword)
    (free : ¬Mentions keyword (front ++ back))
    (ended : ∃ c ∈ back.getLast?, isBlank c = true) :
    (seq wordEdge (seq (phrase [keyword]) pattern)).ways
      (.start front (back ++ rest)) = [] := by
  rw [List.eq_nil_iff_forall_not_mem]
  intro after way
  obtain ⟨text, c, tail, split, spelled, white, edge⟩ :=
    exists_of_edge_way way proper
  have split : back ++ rest = text ++ c :: tail := split
  obtain ⟨d, last, whiteToo⟩ := ended
  have absent : d ∉ text := fun member => by
    have wordly := isWordChar_of_spells proper.2 spelled d member
    rw [isWordChar_of_isBlank whiteToo] at wordly
    cases wordly
  have final : d ∈ back := List.mem_of_getLast? last
  rcases List.append_eq_append_iff.mp split with
    ⟨inside, rfl, -⟩ | ⟨inside, rfl, parted⟩
  · exact absent (List.mem_append_left inside final)
  · cases inside with
    | nil =>
        rw [List.append_nil] at final
        exact absent final
    | cons e inside =>
        obtain ⟨rfl, -⟩ := List.cons.inj parted
        exact free (mentions_of_spells proper spelled white edge)

/-- A keyword at the edge of a word leads past the white space after it. -/
theorem leads_edge {first : String} {pattern : Pattern} {place after : Place}
    (words : Words [first] text) (proper : Keyword first)
    (edge : besideWord place.before = false)
    (solid : ∀ c ∈ rest.head?, isBlank c = false)
    (split : place.rest = text ++ rest)
    (others : Leads pattern (place.past text rest) after) :
    Leads (seq wordEdge (seq (phrase [first]) pattern)) place after := by
  have begins : besideWord place.rest.head? = true := by
    cases words with
    | cons here _ _ =>
        obtain ⟨c, letters, rfl⟩ :=
          List.exists_cons_of_ne_nil (here.filled proper.1)
        have wordly := here.wordChars proper.2 c List.mem_cons_self
        simp [split, besideWord, wordly]
  have start : Leads wordEdge place place :=
    Pattern.leads_wordEdge (by simp [edge, begins])
  have middle : Leads (phrase [first]) place (place.past text rest) :=
    leads_phrase (by simpa using proper) (by simp) words solid split
  exact start.seq (middle.seq others)

/-- Two keywords in the text lead past it. -/
theorem leads_edge_pair {first last : String} {final : List Char}
    (words : Words [first] text) (cased : Cased last.toList final)
    (proper : Keyword first) (properToo : Keyword last) {place : Place}
    (edge : besideWord place.before = false)
    (edgeToo : besideWord rest.head? = false)
    (split : place.rest = text ++ (final ++ rest)) :
    Leads (concat [wordEdge, phrase [first], word last, wordEdge]) place
      (place.past (text ++ final) rest) := by
  have filled := cased.filled properToo.1
  have solid := cased.solid properToo.2
  have letters : Leads (word last) (place.past text (final ++ rest))
      ((place.past text (final ++ rest)).past final rest) :=
    Pattern.leads_word (cased.spells properToo.2) rfl
  rw [Place.past_past] at letters
  have finish : Leads wordEdge (place.past (text ++ final) rest)
      (place.past (text ++ final) rest) := by
    apply Pattern.leads_wordEdge
    obtain ⟨front, c, rfl⟩ := List.eq_nil_or_concat final |>.resolve_left filled
    have wordly := cased.wordChars properToo.2 c (by simp)
    have before : besideWord (some c) = true := wordly
    simp [before, edgeToo]
  exact leads_edge words proper edge (starts_of_solid filled solid).append.head
    split (letters.seq finish)

end Edges

section Clauses

/-- The clauses before and after one of them. -/
theorem ClausesText.exists_split {before after : List Clause} {clause : Clause}
    {text : List Char}
    (spelled : ClausesText (before ++ clause :: after) text) :
    ∃ front space here back, text = front ++ (space ++ (here ++ back)) ∧
      ClausesText before front ∧ Space space ∧ ClauseText clause here ∧
        ClausesText after back := by
  induction before generalizing text with
  | nil =>
      cases spelled with
      | @cons _ _ space here rest white one others =>
          exact ⟨[], space, here, rest, by simp, .nil, white, one, others⟩
  | cons first before ih =>
      cases spelled with
      | @cons _ _ space here rest white one others =>
          obtain ⟨front, gap, middle, back, rfl, passed, whiteToo, found,
            remaining⟩ := ih others
          exact ⟨space ++ here ++ front, gap, middle, back, by simp,
            .cons white one passed, whiteToo, found, remaining⟩

/-- White space or nothing follows a clause. -/
theorem ClausesText.head {clauses : List Clause} {text gap : List Char}
    (spelled : ClausesText clauses text) (white : Gap gap) :
    ∀ c ∈ (text ++ gap).head?, isBlank c = true := by
  cases spelled with
  | nil => exact fun c member => white c (List.mem_of_mem_head? member)
  | cons space _ _ =>
      intro c member
      obtain ⟨d, space', equal⟩ := List.exists_cons_of_ne_nil space.1
      subst equal
      simp only [List.cons_append, List.head?_cons, Option.mem_def,
        Option.some.injEq] at member
      exact member ▸ space.2 d List.mem_cons_self

theorem ClausesText.not_mentions_append {keyword : String}
    {clauses : List Clause} {before text : List Char}
    (spelled : ClausesText clauses text) (looked : keyword ∈ clauseWords)
    (different : ∀ clause ∈ clauses, keyword ≠ clause.word)
    (free : ¬Mentions keyword before) : ¬Mentions keyword (before ++ text) := by
  have proper : Keyword keyword := by
    have each : ∀ word ∈ clauseWords, Keyword word := by decide
    exact each keyword looked
  have none := spelled.not_mentions looked different
  cases spelled with
  | nil => rwa [List.append_nil]
  | @cons _ _ space text rest white _ _ =>
      rw [List.append_assoc, mentions_gap_append proper white.2] at none
      rw [List.append_assoc, ← List.append_assoc,
        mentions_append_space proper white, not_or]
      exact ⟨free, none⟩

theorem besideWord_of_blank {c? : Option Char}
    (white : ∀ c ∈ c?, isBlank c = true) : besideWord c? = false := by
  cases c? with
  | none => rfl
  | some c => exact isWordChar_of_isBlank (white c rfl)

theorem getLast?_append_space (before : List Char) {space : List Char}
    (white : Space space) :
    ∃ c ∈ (before ++ space).getLast?, isBlank c = true := by
  obtain ⟨front, c, rfl⟩ :=
    List.eq_nil_or_concat space |>.resolve_left white.1
  exact ⟨c, by simp, white.2 c (by simp)⟩

theorem besideWord_getLast?_append_space {before space : List Char}
    (white : Space space) : besideWord (before ++ space).getLast? = false := by
  obtain ⟨c, final, blank⟩ := getLast?_append_space before white
  apply besideWord_of_blank
  intro d also
  rw [final] at also
  exact Option.some.inj also ▸ blank

variable {clauses : List Clause} {before text gap : List Char}

/-- A pair of keywords is found exactly if the clause is among the others. -/
theorem occurs_pair_iff (clause : Clause) {last : String}
    (looked : clause.word ∈ clauseWords) (properToo : Keyword last)
    (unique : ∀ other : Clause, other.word = clause.word → other = clause)
    (shape : ∀ text, ClauseText clause text → ∃ words final,
      text = words ++ final ∧ Words [clause.word] words ∧
        Cased last.toList final)
    (free : ¬Mentions clause.word before) (spelled : ClausesText clauses text)
    (white : Gap gap) :
    (concat [wordEdge, phrase [clause.word], word last, wordEdge]).occurs
      (before ++ text ++ gap) = clauses.contains clause := by
  by_cases member : clause ∈ clauses
  · obtain ⟨passed, others, rfl⟩ := List.append_of_mem member
    obtain ⟨front, space, here, back, rfl, -, spaced, found, remaining⟩ :=
      spelled.exists_split
    obtain ⟨words, final, rfl, first, cased⟩ := shape here found
    have edge : besideWord (before ++ front ++ space).getLast? = false :=
      besideWord_getLast?_append_space spaced
    have leads : Leads _ (Place.start (before ++ front ++ space)
        (words ++ (final ++ (back ++ gap)))) _ :=
      leads_edge_pair first cased clause.keyword properToo edge
        (besideWord_of_blank (remaining.head white)) rfl
    have found := Pattern.occurs_of_leads leads
    rw [List.contains_iff_mem.mpr (by simp)]
    simpa using found
  · have different : ∀ other ∈ clauses, clause.word ≠ other.word := by
      intro other inside same
      exact member (unique other same.symm ▸ inside)
    have none : ¬Mentions clause.word (before ++ text ++ gap) := by
      rw [mentions_append_gap clause.keyword white]
      exact spelled.not_mentions_append looked different free
    have absent : clauses.contains clause = false := by simpa using member
    rw [absent]
    exact Pattern.occurs_eq_false fun front back split =>
      edge_fails clause.keyword (split ▸ none)

/-- A target begins with the name of its table. -/
theorem TargetText.exists_name {table : Name} {target rest : List Char}
    (spelled : TargetText table target)
    (edge : ∀ c ∈ rest.head?, isNameChar c = false) :
    ∃ name tail, target = name ++ tail ∧ QualifiedText table name ∧
      ∀ c ∈ (tail ++ rest).head?, isNameChar c = false := by
  cases spelled with
  | bare named => exact ⟨target, [], by simp, named, edge⟩
  | @columns columns name gap list named white _ =>
      refine ⟨name, gap ++ '(' :: list ++ [')'], by simp, named, ?_⟩
      intro c member
      cases gap with
      | nil =>
          simp only [List.nil_append, List.cons_append, List.head?_cons,
            Option.mem_def, Option.some.injEq] at member
          subst member
          decide
      | cons d gap =>
          simp only [List.cons_append, List.head?_cons, Option.mem_def,
            Option.some.injEq] at member
          exact member ▸ isNameChar_of_isBlank (white d List.mem_cons_self)

/-- The search for a reference finds the first clause that has one. -/
theorem search_references (free : ¬Mentions "references" before)
    (spelled : ClausesText clauses text) (white : Gap gap) :
    ((inlineReferences.search (before ++ text ++ gap)).map fun found =>
      identifier (found.group 1)) = clauses.findSome? Clause.table? := by
  have proper : Keyword "references" := by decide
  cases target? : clauses.findSome? Clause.table? with
  | none =>
      rw [List.findSome?_eq_none_iff] at target?
      have different : ∀ clause ∈ clauses, "references" ≠ clause.word := by
        intro clause member
        have none := target? clause member
        cases clause <;> simp [Clause.word, Clause.table?] at none ⊢
      have absent : ¬Mentions "references" (before ++ text ++ gap) := by
        rw [mentions_append_gap proper white]
        exact spelled.not_mentions_append (by decide) different free
      have nowhere : inlineReferences.search (before ++ text ++ gap) = none :=
        Pattern.search_eq_none fun front back split =>
          edge_fails proper (split ▸ absent)
      rw [nowhere]
      rfl
  | some target =>
      obtain ⟨passed, clause, others, rfl, points, earlier⟩ :=
        List.findSome?_eq_some_iff.mp target?
      obtain ⟨front, space, here, back, rfl, passedText, spaced, found,
        remaining⟩ := spelled.exists_split
      have different : ∀ clause ∈ passed, "references" ≠ clause.word := by
        intro clause member
        have none := earlier clause member
        cases clause <;> simp [Clause.word, Clause.table?] at none ⊢
      have barren : ¬Mentions "references" (before ++ front ++ space) := by
        rw [mentions_append_gap proper spaced.2]
        exact passedText.not_mentions_append (by decide) different free
      cases found with
      | notNull _ _ | primaryKey _ _ | number _ _ | string _ _ =>
          simp [Clause.table?] at points
      | @references table words aim first aimed =>
          have following : ∀ c ∈ (back ++ gap).head?, isNameChar c = false :=
            fun c member => isNameChar_of_isBlank
              (remaining.head white c member)
          obtain ⟨name, tail, rfl, named, edge⟩ := aimed.exists_name following
          have edgeBefore :
              besideWord (before ++ front ++ space).getLast? = false :=
            besideWord_getLast?_append_space spaced
          have leads : Leads inlineReferences
              (.start (before ++ front ++ space)
                (words ++ (name ++ (tail ++ (back ++ gap))))) _ :=
            leads_edge first proper edgeBefore named.starts.append.head rfl
              (named.leads (by simpa using edge) rfl).group
          have found : inlineReferences.search
              (before ++ front ++ space ++
                (words ++ (name ++ (tail ++ (back ++ gap))))) = some _ :=
            Pattern.search_of_leads (fun front' back' split filled =>
              edge_fails_before proper (split ▸ barren) (by
                have last := getLast?_append_space (before ++ front) spaced
                rw [split, List.getLast?_append_of_ne_nil _ filled] at last
                exact last)) leads
          have whole : before ++ (front ++ (space ++
              (words ++ (name ++ tail) ++ back))) ++ gap =
                before ++ front ++ space ++
                  (words ++ (name ++ (tail ++ (back ++ gap)))) := by simp
          have points : target = table.text := by
            simpa [Clause.table?] using points.symm
          rw [whole, found, points]
          simp [Match.group, Pattern.group?_ending, named.identifier_self]

end Clauses

section ColumnWords

theorem words_joinWith {texts : List (List Char)} :
    words (joinWith [' '] texts) = (texts.map words).flatten := by
  induction texts with
  | nil => rfl
  | cons text texts ih =>
      by_cases last : texts = []
      · simp [last, joinWith_singleton]
      · rw [joinWith_cons last, words_append_space (by simp) (by decide), ih]
        rfl

/-- The words of clauses begin with a keyword. -/
theorem ClausesText.exists_words {clauses : List Clause} {text : List Char}
    (spelled : ClausesText clauses text) :
    text = [] ∨ ∃ (clause : Clause) (first : List Char)
      (rest : List (List Char)), Cased clause.word.toList first ∧
        ∀ before, words (before ++ text) = words before ++ first :: rest := by
  cases spelled with
  | nil => exact .inl rfl
  | @cons clause clauses gap text others white spelled _ =>
      obtain ⟨first, space, tail, rfl, cased, spaced⟩ := spelled.exists_keyword
      have keyword := clause.keyword
      refine .inr ⟨clause, first, words (tail ++ others), cased, ?_⟩
      intro before
      have whole : before ++ (gap ++ (first ++ space ++ tail) ++ others) =
          before ++ gap ++ (first ++ space ++ (tail ++ others)) := by simp
      rw [whole, words_append_space white.1 white.2,
        words_append_space spaced.1 spaced.2,
        words_solid (cased.filled keyword.1) (cased.solid keyword.2)]
      rfl

theorem exists_pieces_of_wordChars {first : List Char}
    (wordly : ∀ c ∈ first, isWordChar c = true) (rest : List (List Char)) :
    ∃ others, piecesFrom ' ' {} [] (joinWith [' '] (first :: rest)) =
      first :: others := by
  have plain : ' ' ∉ ['\'', '(', ')'] := by decide
  have segment := segment_wordChars wordly
  by_cases last : rest = []
  · rw [last, joinWith_singleton,
      piecesFrom_last segment plain fun c passes => passes.2]
    exact ⟨[], rfl⟩
  · rw [joinWith_cons last, List.append_assoc, List.singleton_append,
      piecesFrom_outside segment plain fun c passes => passes.2]
    exact ⟨_, rfl⟩

theorem Clause.isKeyword (clause : Clause) {text : List Char}
    (cased : Cased clause.word.toList text) :
    isKeyword columnKeywords text = true := by
  have listed : columnKeywords.contains
      (String.ofList (clause.word.toList.map Char.toUpper)) = true := by
    cases clause <;> rw [Clause.word] <;> decide
  rw [Schema.isKeyword, cased.upper fun c member =>
    mem_typeLetters (clause.keyword.2 c member)]
  exact listed

/-- The texts of the parts of a type. -/
theorem Cased.exists_parts {type : DataType} {text : List Char}
    (cased : Cased type.letters text) :
    ∃ texts, text = joinWith [' '] texts ∧ texts ≠ [] ∧
      ∀ text ∈ texts, ∃ part : TypePart, Cased part.text text := by
  have filled : type.parts.map TypePart.text ≠ [] := by
    simpa using type.filled
  obtain ⟨texts, rfl, each⟩ := cased.exists_join filled
  refine ⟨texts, rfl, ?_, ?_⟩
  · rintro rfl
    exact filled (List.forall₂_nil_right_iff.mp each)
  · have parts := List.forall₂_map_left_iff.mp each
    clear cased filled each
    generalize type.parts = sources at parts
    induction parts with
    | nil => simp
    | cons here _ ih =>
        intro text member
        rcases List.mem_cons.mp member with rfl | later
        · exact ⟨_, here⟩
        · exact ih text later

/-- The pieces without white space at their ends are kept as they are. -/
theorem clean_append {pieces : List (List Char)}
    (each : ∀ piece ∈ pieces, Starts piece ∧ Ends piece)
    (rest : List (List Char)) :
    (((pieces ++ rest).filter fun piece => !isAllBlank piece).map trim).filter
      (fun piece => !piece.isEmpty) =
        pieces ++ ((rest.filter fun piece => !isAllBlank piece).map trim).filter
          fun piece => !piece.isEmpty := by
  have kept : pieces.filter (fun piece => !isAllBlank piece) = pieces := by
    rw [List.filter_eq_self]
    intro piece member
    have solid : isAllBlank ([] ++ piece ++ []) = false :=
      (each piece member).1.isAllBlank
    simpa using solid
  have same : pieces.map trim = pieces := by
    conv_rhs => rw [← List.map_id pieces]
    exact List.map_congr_left fun piece member =>
      trim_eq_self (each piece member).1 (each piece member).2
  have full : pieces.filter (fun piece => !piece.isEmpty) = pieces := by
    rw [List.filter_eq_self]
    intro piece member
    simpa using (each piece member).1.filled
  rw [List.filter_append, List.map_append, List.filter_append, kept, same, full]

variable {declaration : Declaration} {before item after : List Char}

/-- The words of a column: its name, the parts of its type and more that begins
with a keyword, if there is more. -/
theorem columnWords_declaration (front : Gap before) (back : Gap after)
    (spelled : DeclarationText declaration item) :
    ∃ name texts rest,
      columnWords (before ++ item ++ after) = name :: texts ++ rest ∧
        NameText declaration.name name ∧ texts ≠ [] ∧
        Cased declaration.type.letters (joinWith [' '] texts) ∧
        (∀ text ∈ texts, isKeyword columnKeywords text = false) ∧
        ∀ word ∈ rest.head?, isKeyword columnKeywords word = true := by
  obtain ⟨named, spaced, typed, clauses⟩ := spelled
  rename_i name space type clausesText
  obtain ⟨texts, rfl, filled, parts⟩ := typed.exists_parts
  have qualified := QualifiedText.bare named
  have bounds : ∀ piece ∈ name :: texts, Starts piece ∧ Ends piece := by
    intro piece member
    rcases List.mem_cons.mp member with rfl | inside
    · exact ⟨qualified.starts, qualified.ends⟩
    · obtain ⟨part, cased⟩ := parts piece inside
      exact ⟨TypePart.starts cased, TypePart.ends cased⟩
  have segments : ∀ piece ∈ name :: texts, Segment (· ≠ ' ') piece := by
    intro piece member
    rcases List.mem_cons.mp member with rfl | inside
    · refine qualified.segment.mono fun c passes => ?_
      rintro rfl
      revert passes
      decide
    · obtain ⟨part, cased⟩ := parts piece inside
      exact (TypePart.segment cased).mono fun c passes => passes.2
  have single : ∀ piece ∈ name :: texts,
      joinWith [' '] (words piece) = piece := by
    intro piece member
    rcases List.mem_cons.mp member with rfl | inside
    · rw [words_solid qualified.filled qualified.solid, joinWith_singleton]
    · obtain ⟨part, cased⟩ := parts piece inside
      exact TypePart.joinWith_words cased
  have groups : ∀ group ∈ (name :: texts).map words, group ≠ [] := by
    intro group member empty
    obtain ⟨piece, inside, rfl⟩ := List.mem_map.mp member
    have same := single piece inside
    rw [empty] at same
    exact (bounds piece inside).1.filled (by simpa [joinWith] using same.symm)
  have joined : ((name :: texts).map words).map (joinWith [' ']) =
      name :: texts := by
    rw [List.map_map]
    conv_rhs => rw [← List.map_id (name :: texts)]
    exact List.map_congr_left single
  have begun : words (name ++ space ++ joinWith [' '] texts) =
      ((name :: texts).map words).flatten := by
    rw [words_append_space spaced.1 spaced.2, words_joinWith]
    rfl
  have plain : ' ' ∉ ['\'', '(', ')'] := by decide
  suffices found : ∃ rest, columnWords (before ++ (name ++ space ++
      joinWith [' '] texts ++ clausesText) ++ after) = name :: texts ++ rest ∧
        ∀ word ∈ rest.head?, isKeyword columnKeywords word = true by
    obtain ⟨rest, equal, keywords⟩ := found
    exact ⟨name, texts, rest, equal, named, filled, typed,
      fun text member => (parts text member).elim fun part cased =>
        TypePart.isKeyword_eq_false cased, keywords⟩
  rw [columnWords, words_append_gap back, words_gap_append front, splitOutside]
  rcases clauses.exists_words with rfl | ⟨clause, first, tail, cased, more⟩
  · refine ⟨[], ?_, by simp⟩
    rw [List.append_nil, begun, joinWith_flatten groups, joined,
      piecesFrom_joinWith_self plain (by simp) segments]
    simpa using clean_append bounds []
  · have keyword := clause.keyword
    have atoms : ∀ group ∈ (name :: texts).map words ++ [first :: tail],
        group ≠ [] := by
      intro group member
      rcases List.mem_append.mp member with inside | last
      · exact groups group inside
      · rw [List.mem_singleton.mp last]
        simp
    have whole : ((name :: texts).map words).flatten ++ first :: tail =
        ((name :: texts).map words ++ [first :: tail]).flatten := by simp
    obtain ⟨others, pieces⟩ :=
      exists_pieces_of_wordChars (cased.wordChars keyword.2) tail
    have bound : ∀ piece ∈ [first], Starts piece ∧ Ends piece := by
      simpa using And.intro (cased.starts keyword.1 keyword.2)
        (cased.ends keyword.1 keyword.2)
    have kept := clean_append bound others
    rw [more, begun, whole, joinWith_flatten atoms, List.map_append, joined,
      List.map_singleton, piecesFrom_joinWith plain segments, pieces,
      clean_append bounds]
    refine ⟨_, rfl, ?_⟩
    rw [List.singleton_append] at kept
    rw [kept]
    intro word member
    rw [List.singleton_append, List.head?_cons, Option.mem_def,
      Option.some.injEq] at member
    exact member ▸ clause.isKeyword cased

end ColumnWords

section Reading

variable {declaration : Declaration} {text : List Char}

theorem not_mentions_joinWith {keyword : String} (proper : Keyword keyword)
    {texts : List (List Char)} (free : ∀ text ∈ texts, ¬Mentions keyword text) :
    ¬Mentions keyword (joinWith [' '] texts) := by
  induction texts with
  | nil => exact not_mentions_nil proper
  | cons text texts ih =>
      have here := free text List.mem_cons_self
      have later := ih fun other member =>
        free other (List.mem_cons_of_mem text member)
      by_cases last : texts = []
      · rwa [last, joinWith_singleton]
      · rw [joinWith_cons last, mentions_append_space proper (by decide), not_or]
        exact ⟨here, later⟩

/-- What stands before the clauses of a column mentions none of their
keywords. -/
theorem not_mentions_head {keyword : String} (looked : keyword ∈ clauseWords)
    {name space type : List Char} (named : NameText declaration.name name)
    (spaced : Space space) (typed : Cased declaration.type.letters type)
    {before : List Char} (front : Gap before) :
    ¬Mentions keyword (before ++ (name ++ space ++ type)) := by
  have facts : ∀ word ∈ clauseWords, Keyword word ∧ word ∈ reserved := by
    decide
  obtain ⟨proper, taken⟩ := facts keyword looked
  obtain ⟨texts, rfl, -, parts⟩ := typed.exists_parts
  rw [mentions_gap_append proper front, mentions_append_space proper spaced,
    not_or]
  refine ⟨named.not_mentions proper taken, not_mentions_joinWith proper ?_⟩
  intro text member
  obtain ⟨part, cased⟩ := parts text member
  exact TypePart.not_mentions cased looked

theorem DataType.letters_mem (type : DataType) :
    ∀ c ∈ type.letters, c ∈ typeLetters := by
  have each : ∀ parts : List TypePart,
      ∀ c ∈ joinWith [' '] (parts.map TypePart.text), c ∈ typeLetters := by
    intro parts
    induction parts with
    | nil => simp [joinWith]
    | cons part parts ih =>
        by_cases last : parts = []
        · simpa [last, joinWith_singleton] using part.letters_mem
        · rw [List.map_cons, joinWith_cons (by simpa using last)]
          intro c member
          simp only [List.mem_append, List.mem_singleton] at member
          rcases member with (inside | rfl) | later
          · exact part.letters_mem c inside
          · decide
          · exact ih c later
  exact each type.parts

/-- A column with white space around it is read as its declaration says. -/
theorem readColumn_declaration
    (padded : Padded (DeclarationText declaration) text) :
    readColumn text = some declaration.column := by
  obtain ⟨front, spelled, back⟩ := padded
  rename_i before item after
  obtain ⟨name, texts, rest, split, named, filled, typed, parts, keywords⟩ :=
    columnWords_declaration front back spelled
  have type : (texts ++ rest).takeWhile
      (fun text => !isKeyword columnKeywords text) = texts := by
    rw [List.takeWhile_append_of_pos fun text member => by
      simp [parts text member]]
    cases rest with
    | nil => simp
    | cons word rest => simp [keywords word rfl]
  have kind : upper (joinWith [' '] texts) =
      declaration.type.letters.map Char.toUpper :=
    typed.upper declaration.type.letters_mem
  have called : identifier name = declaration.name.text :=
    (QualifiedText.bare named).identifier_self
  obtain ⟨namedToo, spaced, typedToo, clauses⟩ := spelled
  rename_i title space kindText clausesText
  have whole : before ++ (title ++ space ++ kindText ++ clausesText) ++ after =
      before ++ (title ++ space ++ kindText) ++ clausesText ++ after := by simp
  have free {keyword : String} (looked : keyword ∈ clauseWords) :
      ¬Mentions keyword (before ++ (title ++ space ++ kindText)) :=
    not_mentions_head looked namedToo spaced typedToo front
  have key : inlinePrimaryKey.occurs
      (before ++ (title ++ space ++ kindText ++ clausesText) ++ after) =
        declaration.clauses.contains .primaryKey := by
    rw [whole]
    refine occurs_pair_iff .primaryKey (by decide) (by decide) ?_ ?_
      (free (by decide)) clauses back
    · intro other same
      cases other <;> simp [Clause.word] at same ⊢
    · rintro text ⟨⟩
      exact ⟨_, _, rfl, ‹_›, ‹_›⟩
  have null : notNull.occurs
      (before ++ (title ++ space ++ kindText ++ clausesText) ++ after) =
        declaration.clauses.contains .notNull := by
    rw [whole]
    refine occurs_pair_iff .notNull (by decide) (by decide) ?_ ?_
      (free (by decide)) clauses back
    · intro other same
      cases other <;> simp [Clause.word] at same ⊢
    · rintro text ⟨⟩
      exact ⟨_, _, rfl, ‹_›, ‹_›⟩
  have references := search_references (free (by decide)) clauses back
  rw [← whole] at references
  generalize before ++ (title ++ space ++ kindText ++ clausesText) ++ after =
    item at split key null references ⊢
  rw [readColumn, split]
  simp [type, kind, called, key, null, references, filled,
    declaration.name.text_ne_empty, Declaration.column, DataType.text]

/-- A name is no keyword of constraints. -/
theorem NameText.isKeyword_eq_false {name : Name}
    (spelled : NameText name text) :
    isKeyword constraintKeywords text = false := by
  have facts : ∀ keyword ∈ constraintKeywords,
      String.ofList (keyword.toList.map Char.toLower) ∈ reserved ∧
        ∀ c ∈ keyword.toList, isQuote c = false := by decide
  rw [isKeyword, Bool.eq_false_iff]
  intro found
  rw [List.contains_iff_mem] at found
  obtain ⟨taken, unquoted⟩ := facts _ found
  rw [String.toList_ofList] at taken unquoted
  cases spelled with
  | plain cased =>
      have letters : (upper text).map Char.toLower = name.letters := by
        rw [cased.upper fun c member => mem_typeLetters (name.plain c member),
          List.map_map]
        conv_rhs => rw [← List.map_id name.letters]
        exact List.map_congr_left fun c member =>
          (toLower_of_mem c (mem_typeLetters (name.plain c member))).2
      rw [letters] at taken
      exact name.free taken
  | @quoted inner start stop cased pair =>
      have same : upperChar start = [start] := by
        rw [mem_quotes_iff] at pair
        rcases pair with ⟨rfl, -⟩ | ⟨rfl, -⟩ | ⟨rfl, -⟩ <;> decide
      have quote := (quote_facts pair).1.1
      rw [unquoted start (by simp [upper, same])] at quote
      cases quote

/-- A column is no constraint. -/
theorem isConstraint_declaration
    (padded : Padded (DeclarationText declaration) text) :
    isConstraint text = false := by
  obtain ⟨front, spelled, back⟩ := padded
  obtain ⟨named, spaced, -, -⟩ := spelled
  rename_i name space type clauses
  have qualified := QualifiedText.bare named
  have first : words (name ++ space ++ type ++ clauses) =
      name :: words (type ++ clauses) := by
    rw [List.append_assoc, words_append_space spaced.1 spaced.2,
      words_solid qualified.filled qualified.solid]
    rfl
  rw [isConstraint, words_append_gap back, words_gap_append front, first]
  exact named.isKeyword_eq_false

end Reading

end ArchSurvey.Schema
