import ArchSurvey.Proofs.Lists
import ArchSurvey.Proofs.Schema.Replay
import ArchSurvey.Proofs.Schema.Sentences

/-!
# Conditional statements

A table may be created, and a column added, if it does not exist yet.  The
condition of a creation is kept as it is read, and replayed: a table that
stands is left alone.  That of an addition is passed over, so that the column
takes the place of the one that stands.
-/

namespace ArchSurvey.Schema

open Text
open Text.Pattern (Spells Leads Place Match seq opt blanks)

/-- A text by which a statement names a table. -/
structure TitleText (name : String) (text : List Char) : Prop where
  filled : text ≠ []
  chars : ∀ c ∈ text, isNameChar c = true
  identified : identifier text = name

/-- The declaration of a column, up to the end of a statement. -/
structure ColumnText (column : Column) (text : List Char) : Prop where
  starts : Starts text
  /-- No comma stands outside. -/
  whole : piecesFrom ',' {} [] text = [text]
  unconstrained : isConstraint (trim text) = false
  declares : readColumn (trim text) = some column

/-- The text of a statement that creates a table or adds a column if it does
not exist yet. -/
inductive ConditionalText : Statement → List Char → Prop where
  | create {name : String}
      {before opening condition title gap rest body : List Char} :
      Gap before → Words ["create", "table"] opening →
      Words ["if", "not", "exists"] condition → TitleText name title →
      Gap gap → insideParentheses rest = some body →
      ConditionalText (.createTable (readTable name body) true)
        (before ++ (opening ++ (condition ++ (title ++ (gap ++ '(' :: rest)))))
  | add {name : String} {column : Column}
      {before opening title space condition added : List Char} :
      Gap before → Words ["alter", "table"] opening → TitleText name title →
      ¬Spells "only".toList title → Space space →
      Words ["add", "column", "if", "not", "exists"] condition →
      ColumnText column added →
      ConditionalText (.addColumn name column)
        (before ++ (opening ++ (title ++ (space ++ (condition ++ added)))))

/-- The text of a script of such statements. -/
def ConditionalScript (statements : List Statement) (text : List Char) : Prop :=
  List.Forall₂ ConditionalText statements
    (splitOutside ';' (withoutComments text))

section Reading

variable {text : List Char}

/-- The piece that is being read goes before the first one. -/
theorem piecesFrom_eq_modifyHead (separator : Char) (nesting : Nesting)
    (piece text : List Char) : piecesFrom separator nesting piece text =
      (piecesFrom separator nesting [] text).modifyHead (piece.reverse ++ ·) := by
  induction text generalizing nesting piece with
  | nil => simp [piecesFrom]
  | cons c rest ih =>
      rw [piecesFrom, piecesFrom]
      split
      · simp
      · rw [ih, ih (nesting.step c) [c], List.modifyHead_modifyHead]
        congr 1
        funext head
        simp

/-- A text without blanks ends where the first blank follows. -/
theorem append_blank_inj {token other rest tail : List Char} {c d : Char}
    (solid : ∀ c ∈ token, isBlank c = false)
    (solidToo : ∀ c ∈ other, isBlank c = false) (white : isBlank c = true)
    (whiteToo : isBlank d = true)
    (equal : token ++ c :: rest = other ++ d :: tail) :
    token = other ∧ c :: rest = d :: tail := by
  have front {token rest : List Char} {c : Char}
      (solid : ∀ c ∈ token, isBlank c = false) (white : isBlank c = true) :
      (token ++ c :: rest).takeWhile (fun c => !isBlank c) = token := by
    rw [List.takeWhile_append_of_pos (by simpa using solid),
      List.takeWhile_cons_of_neg (by simpa using white), List.append_nil]
  have same : token = other := by
    rw [← front solid white, equal, front solidToo whiteToo]
  subst same
  exact ⟨rfl, List.append_cancel_left equal⟩

/-- A table named `if` is not taken for the word, unless `exists` follows. -/
theorem phrase_ifExists_fails {title space list rest : List Char}
    {place : Place} {other : String} {others : List String}
    (keyword : Keyword other) (different : "exists" ≠ other)
    (chars : ∀ c ∈ title, isNameChar c = true) (spaced : Space space)
    (spelled : Words (other :: others) list)
    (split : place.rest = title ++ (space ++ (list ++ rest))) :
    (phrase ["if", "exists"]).ways place = [] := by
  have keywordIf : Keyword "if" := by decide
  have exists_fails {place : Place} (split : place.rest = list ++ rest) :
      (phrase ["exists"]).ways place = [] := by
    cases spelled with
    | @cons _ _ letters gap tail cased white _ =>
        obtain ⟨c, gap, rfl⟩ := List.exists_cons_of_ne_nil white.1
        have edge := isWordChar_of_isBlank (white.2 c List.mem_cons_self)
        have parted : place.rest =
            letters ++ (c :: (gap ++ (tail ++ rest))) := by simp [split]
        exact phrase_fails_at_keyword (by decide) keyword different cased
          (by simpa using edge) parted
  rw [phrase_cons_cons, Pattern.ways_seq_eq_nil]
  intro stop way
  obtain ⟨middle, wordWay, gapWay⟩ := List.mem_flatMap.mp way
  obtain ⟨text, behind, parted, spells, rfl⟩ :=
    Pattern.spells_of_mem_ways_word wordWay
  obtain ⟨gap, tail, parting, filled, white, rfl⟩ :=
    Pattern.blank_of_mem_ways_blanks1 gapWay
  rw [Place.past_rest] at parting
  subst parting
  -- The word is all of the name, so `exists` is looked for in what follows.
  have remaining : space ++ (list ++ rest) = gap ++ tail := by
    obtain ⟨c, space, rfl⟩ := List.exists_cons_of_ne_nil spaced.1
    obtain ⟨d, gap, rfl⟩ := List.exists_cons_of_ne_nil filled
    exact (append_blank_inj
      (fun c member => isBlank_of_isNameChar (chars c member))
      (fun c member => isBlank_of_isWordChar
        (isWordChar_of_spells keywordIf.2 spells c member))
      (spaced.2 c List.mem_cons_self) (white d List.mem_cons_self)
      (split.symm.trans parted)).2
  rcases List.append_eq_append_iff.mp remaining with
    ⟨inside, rfl, behind⟩ | ⟨inside, rfl, behind⟩
  · cases inside with
    | nil => exact exists_fails (by simpa using behind.symm)
    | cons c inside =>
        have starts : Starts (list ++ rest) := (spelled.starts keyword).append
        have solid := starts.head c (by simp [behind])
        rw [white c (by simp)] at solid
        cases solid
  · cases inside with
    | nil => exact exists_fails (by simpa using behind)
    | cons c inside =>
        exact phrase_fails_at_blank (by decide) (spaced.2 c (by simp))
          (show _ = c :: (inside ++ (list ++ rest)) by simpa using behind)

/-- All that follows the words of a conditional addition is added. -/
theorem search_conditionalAddition {condition added : List Char}
    (spelled : Words ["add", "column", "if", "not", "exists"] condition)
    (starts : Starts added) :
    ∃ found, addAction.search (condition ++ added) = some found ∧
      found.group 1 = added := by
  have apart : Words (["add"] ++ (["column"] ++ ["if", "not", "exists"]))
    condition := spelled
  obtain ⟨verb, words, rfl, first, others⟩ := apart.exists_append
  obtain ⟨kind, clause, rfl, second, third⟩ := others.exists_append
  have keywords : ∀ word ∈ ["if", "not", "exists"], Keyword word := by decide
  have last (place : Place) (split : place.rest = added) :
      Leads (seq (Pattern.group 1 (Pattern.some1 Pattern.any)) Pattern.textEnd)
        place (place.keep 1 added []) :=
    (Pattern.leads_some1 (Pattern.readsOne_char _) starts.filled
      (by simpa using split) (by simp) (by simp)).group.seq
        (Pattern.leads_textEnd rfl)
  let place := Place.start [] (verb ++ (kind ++ (clause ++ added)))
  have start : Leads Pattern.textStart place place :=
    Pattern.leads_textStart rfl
  have edge : Leads blanks place (place.past [] place.rest) :=
    Pattern.leads_blanks rfl (by simp)
      (first.starts (by decide)).append.head
  have found : addAction.search _ = some _ := Pattern.search_of_leads_start
    (start.seq (edge.seq
      ((leads_phrase (by decide) (by simp) first
          (second.starts (by decide)).append.head rfl).seq
        ((leads_phrase (by decide) (by simp) second
            (third.starts (by decide)).append.head rfl).opt.seq
          ((leads_phrase keywords (by simp) third starts.head rfl).opt.seq
            (last _ rfl))))))
  refine ⟨_, by simpa using found, ?_⟩
  simp [Match.group, Pattern.group?_ending]

theorem readStatement_conditional {statement : Statement}
    (spelled : ConditionalText statement text) :
    readStatement text = .ok [statement] := by
  cases spelled with
  | @create name before opening condition title gap rest body front words
      conditional titled white closed =>
      have conditionalToo :
          Words (if true then ["if", "not", "exists"] else []) condition :=
        conditional
      obtain ⟨found, search, kept, present, behind⟩ := search_createTable front
        words conditionalToo titled.filled titled.chars white rest (by simp)
      simp [readStatement, search, kept, present, behind, closed,
        titled.identified]
  | @add name column before opening title space condition added front words
      titled free spaced conditional declared =>
      have starts : Starts (condition ++ added) :=
        (conditional.starts (by decide)).append
      have refuses : ∀ words ∈ [["if", "exists"], ["only"]],
          ∀ place : Place, place.rest = title ++ (space ++ (condition ++ added)) →
            (phrase words).ways place = [] := by
        simp only [List.forall_mem_cons]
        refine ⟨fun place split => phrase_ifExists_fails (by decide)
          (by decide) titled.chars spaced conditional split,
          fun place split => ?_, by simp⟩
        exact phrase_fails_at_token (by decide)
          (fun c member => isBlank_of_isNameChar (titled.chars c member)) free
          (fun c member =>
            isWordChar_of_isNameChar_eq_false (spaced.edge c member)) split
      obtain ⟨found, search, kept, changes⟩ := search_alterTable front words
        titled.filled titled.chars spaced starts refuses
      obtain ⟨addition, searchToo, group⟩ :=
        search_conditionalAddition conditional declared.starts
      have created : createTable.search (before ++ (opening ++ (title ++
          (space ++ (condition ++ added))))) = none :=
        search_opening_eq_none (by decide) (by decide) (by decide) front words
      have single : splitOutside ',' (condition ++ added) =
          [condition ++ added] := by
        have plain : Segment Inline condition :=
          conditional.segment (by decide)
        rw [splitOutside, piecesFrom_segment plain (by decide) (Int.le_refl 0)
          fun _ c passes => passes.1, piecesFrom_eq_modifyHead, declared.whole]
        have solid : isAllBlank ([] ++ (condition ++ added) ++ []) = false :=
          starts.isAllBlank
        simpa using solid
      simp [readStatement, created, search, kept, changes, single, readAction,
        searchToo, group, readAddition, declared.unconstrained,
        declared.declares, titled.identified]

/-- A script of conditional statements is read as these statements. -/
theorem readScript_conditional {statements : List Statement}
    (spelled : ConditionalScript statements text) :
    readScript text = .ok statements := by
  have each := List.Forall₂.imp
    (fun _ _ spelled => readStatement_conditional spelled) spelled
  rw [readScript, mapM_eq_ok_of_forall₂ (List.forall₂_map_left_iff.mpr each)]
  change Except.ok (statements.map fun statement => [statement]).flatten = _
  rw [← List.flatMap_def, List.flatMap_singleton']

end Reading

/-- The statement creates a table unless it exists, or adds a column. -/
def Statement.IsConditional : Statement → Prop
  | .createTable _ unlessExists => unlessExists = true
  | .addColumn _ _ => True
  | .dropTable _ | .dropColumn _ _ | .addForeignKey _ _ _
  | .addPrimaryKey _ _ => False

/-- The table is as it would be with the column added: the column is its last
one, and its key if it is to be. -/
def Table.Keeps (column : Column) (table : Table) : Prop :=
  (∃ others, table.fields = others ++ [column.field] ∧
      ∀ field ∈ others, field.name ≠ column.name) ∧
    (column.inKey = true → table.key = some [column.name])

/-- The table with some columns added, one after the other. -/
def Table.addColumns (columns : List Column) (table : Table) : Table :=
  columns.foldl (fun table column => table.addColumn column) table

/-- The column, if any, that a statement adds to the table of a name. -/
def Statement.added (name : String) : Statement → List Column
  | .addColumn table column => if table = name then [column] else []
  | .createTable _ _ | .dropTable _ | .dropColumn _ _ | .addForeignKey _ _ _
  | .addPrimaryKey _ _ => []

/-- Where some statements add a column, its table stands. -/
def Grounded (source : String) (tables : List Table)
    (statements : List Statement) : Prop :=
  ∀ front name column back,
    statements = front ++ .addColumn name column :: back →
      name ∈ names (front.foldl (apply source) tables)

attribute [ext] Table

section Columns

variable {column : Column} {columns : List Column} {table : Table}

theorem addColumn_eq_self_iff :
    table.addColumn column = table ↔ table.Keeps column := by
  obtain ⟨name, fields, key, source⟩ := table
  have fields_iff : fields.filter (fun field => field.name != column.name) ++
        [column.field] = fields ↔
      ∃ others, fields = others ++ [column.field] ∧
        ∀ field ∈ others, field.name ≠ column.name := by
    constructor
    · intro same
      exact ⟨_, same.symm, fun field member => by
        simpa using (List.mem_filter.mp member).2⟩
    · rintro ⟨others, rfl, apart⟩
      have own : column.field.name = column.name := rfl
      have kept : others.filter (fun field => field.name != column.name) =
          others := List.filter_eq_self.mpr (by simpa using apart)
      rw [List.filter_append, kept]
      simp [own]
  have key_iff : (if column.inKey = true then some [column.name] else key) =
      key ↔ (column.inKey = true → key = some [column.name]) := by
    by_cases inKey : column.inKey = true <;> simp [inKey, eq_comm]
  simp only [Table.addColumn, Table.Keeps, Table.mk.injEq, true_and, and_true,
    fields_iff, key_iff]

@[simp] theorem addColumns_nil : table.addColumns [] = table :=
  rfl

theorem addColumns_append {others : List Column} :
    table.addColumns (columns ++ others) =
      (table.addColumns columns).addColumns others :=
  List.foldl_append

theorem addColumns_append_singleton :
    table.addColumns (columns ++ [column]) =
      (table.addColumns columns).addColumn column :=
  addColumns_append

theorem name_addColumns : (table.addColumns columns).name = table.name := by
  induction columns using List.reverseRecOn with
  | nil => rfl
  | append_singleton columns column ih =>
      rw [addColumns_append_singleton]
      exact ih

theorem source_addColumns :
    (table.addColumns columns).source = table.source := by
  induction columns using List.reverseRecOn with
  | nil => rfl
  | append_singleton columns column ih =>
      rw [addColumns_append_singleton]
      exact ih

/-- Added columns take the place of all those of their names. -/
theorem fields_addColumns (columns : List Column) :
    ∃ added : List Field,
      (∀ field ∈ added, field.name ∈ columns.map Column.name) ∧
      ∀ table : Table, (table.addColumns columns).fields =
        table.fields.filter
          (fun field => field.name ∉ columns.map Column.name) ++ added := by
  induction columns using List.reverseRecOn with
  | nil => exact ⟨[], by simp, by simp⟩
  | append_singleton columns column ih =>
      obtain ⟨added, named, fields⟩ := ih
      refine ⟨added.filter (fun field => field.name != column.name) ++
        [column.field], fun field member => ?_, fun table => ?_⟩
      · rw [List.map_append, List.mem_append]
        rcases List.mem_append.mp member with kept | last
        · exact .inl (named field (List.mem_of_mem_filter kept))
        · obtain rfl := List.mem_singleton.mp last
          exact .inr (List.mem_singleton.mpr rfl)
      · have both (field : Field) :
            (field.name != column.name &&
                decide (field.name ∉ columns.map Column.name)) =
              decide (field.name ∉ (columns ++ [column]).map Column.name) := by
          rw [Bool.eq_iff_iff]
          simp [and_comm, not_or]
        rw [addColumns_append_singleton, Table.addColumn]
        simp only [fields, List.filter_append, List.filter_filter, both,
          List.append_assoc]

/-- Added columns leave the key alone, or set it whatever it was. -/
theorem key_addColumns (columns : List Column) :
    (∀ table : Table, (table.addColumns columns).key = table.key) ∨
      ∃ key, ∀ table : Table, (table.addColumns columns).key = key := by
  induction columns using List.reverseRecOn with
  | nil => exact .inl fun table => rfl
  | append_singleton columns column ih =>
      simp only [addColumns_append_singleton, Table.addColumn]
      by_cases inKey : column.inKey = true
      · exact .inr ⟨some [column.name], fun table => if_pos inKey⟩
      · simpa only [inKey, Bool.false_eq_true, if_false] using ih

/-- Columns are added once more to no effect. -/
theorem addColumns_addColumns :
    (table.addColumns columns).addColumns columns =
      table.addColumns columns := by
  refine Table.ext name_addColumns ?_ ?_ source_addColumns
  · obtain ⟨added, named, fields⟩ := fields_addColumns columns
    have replaced : added.filter
        (fun field => field.name ∉ columns.map Column.name) = [] :=
      List.filter_eq_nil_iff.mpr fun field member => by
        simpa only [decide_not, Bool.not_eq_true', decide_eq_false_iff_not,
          not_not] using named field member
    simp only [fields, List.filter_append, List.filter_filter, Bool.and_self,
      replaced, List.append_nil]
  · rcases key_addColumns columns with stays | ⟨key, set⟩
    · exact stays _
    · rw [set, set]

end Columns

section Runs

variable {name source : String} {tables : List Table}
  {statement : Statement} {statements : List Statement}

theorem ConditionalText.isConditional {text : List Char}
    (spelled : ConditionalText statement text) : statement.IsConditional := by
  cases spelled with
  | create => rfl
  | add => trivial

theorem ConditionalScript.isConditional {text : List Char}
    (spelled : ConditionalScript statements text) :
    ∀ statement ∈ statements, statement.IsConditional := by
  rw [ConditionalScript] at spelled
  generalize splitOutside ';' (withoutComments text) = pieces at spelled
  induction spelled with
  | nil => simp
  | cons here _ ih => exact List.forall_mem_cons.mpr ⟨here.isConditional, ih⟩

/-- A conditional statement about a table that stands brings no other. -/
theorem names_apply_of_stands (conditional : statement.IsConditional)
    (stands : statement.table ∈ names tables) :
    names (apply source tables statement) = names tables := by
  cases statement with
  | createTable definition unlessExists =>
      have known : hasTable definition.name tables = true :=
        hasTable_iff.mpr stands
      rw [Statement.IsConditional] at conditional
      simp [apply, known, conditional]
  | addColumn table column => exact names_changeTable fun table => rfl
  | _ => cases conditional

/-- What stands goes on standing. -/
theorem mem_names_apply (conditional : statement.IsConditional)
    (member : name ∈ names tables) :
    name ∈ names (apply source tables statement) := by
  by_cases stands : statement.table ∈ names tables
  · rwa [names_apply_of_stands conditional stands]
  · cases statement with
    | createTable definition unlessExists =>
        have unknown : hasTable definition.name tables = false := by
          rw [Bool.eq_false_iff, Ne, hasTable_iff]
          exact stands
        simp [apply, unknown, member]
    | addColumn table column =>
        have stands : table ∉ names tables := stands
        rwa [apply, changeTable_of_not_mem stands]
    | _ => cases conditional

theorem mem_names_create {definition : TableDefinition} :
    definition.name ∈ names (apply source tables
      (.createTable definition true)) := by
  cases known : hasTable definition.name tables with
  | true =>
      rw [apply, known]
      exact hasTable_iff.mp known
  | false => simp [apply, known, names, Table.ofDefinition]

theorem added_eq_nil (other : statement.table ≠ name) :
    statement.added name = [] := by
  cases statement with
  | addColumn table column => exact if_neg other
  | _ => rfl

/-- What a conditional statement makes of a table that stands. -/
theorem revise_some (conditional : statement.IsConditional) {table : Table} :
    statement.revise name source (some table) =
      some (table.addColumns (statement.added name)) := by
  cases statement with
  | createTable definition unlessExists =>
      rw [Statement.IsConditional] at conditional
      simp [Statement.revise, Statement.added, conditional]
  | addColumn named column =>
      by_cases same : named = name <;>
        simp [Statement.revise, Statement.added, Table.addColumns, same]
  | _ => cases conditional

theorem revise_none (conditional : statement.IsConditional)
    (other : statement.table ≠ name) :
    statement.revise name source none = none := by
  cases statement with
  | createTable definition unlessExists =>
      have other : definition.name ≠ name := other
      simp [Statement.revise, other]
  | addColumn named column => simp [Statement.revise]
  | _ => cases conditional

/-- Conditional statements about tables that stand add columns to them and do
nothing else. -/
theorem run_of_stands
    (conditional : ∀ statement ∈ statements, statement.IsConditional)
    (stand : ∀ statement ∈ statements, statement.table ∈ names tables) :
    names (statements.foldl (apply source) tables) = names tables ∧
      ∀ name, tableNamed? name (statements.foldl (apply source) tables) =
        (tableNamed? name tables).map
          (Table.addColumns (statements.flatMap (Statement.added name))) := by
  induction statements generalizing tables with
  | nil =>
      refine ⟨rfl, fun name => ?_⟩
      cases found : tableNamed? name tables <;> simp [found]
  | cons statement rest ih =>
      obtain ⟨here, later⟩ := List.forall_mem_cons.mp conditional
      obtain ⟨standing, stand⟩ := List.forall_mem_cons.mp stand
      have same : names (apply source tables statement) = names tables :=
        names_apply_of_stands here standing
      have standing' : ∀ other ∈ rest,
          other.table ∈ names (apply source tables statement) := by
        simpa only [same] using stand
      obtain ⟨known, found⟩ := ih later standing'
      refine ⟨known.trans same, fun name => ?_⟩
      rw [List.foldl_cons, found, tableNamed?_apply, List.flatMap_cons]
      cases unknown : tableNamed? name tables with
      | none =>
          have other : statement.table ≠ name := by
            rintro rfl
            rw [← hasTable_iff, ← tableNamed?_isSome, unknown] at standing
            cases standing
          rw [revise_none here other]
          rfl
      | some table =>
          rw [revise_some here, Option.map_some, Option.map_some,
            addColumns_append]

theorem Grounded.front {front back : List Statement}
    (grounded : Grounded source tables (front ++ back)) :
    Grounded source tables front := by
  rintro before name column after rfl
  exact grounded before name column (after ++ back) (by simp)

/-- After conditional statements all their tables stand, with the columns they
add to them added last. -/
theorem stands_after
    (conditional : ∀ statement ∈ statements, statement.IsConditional)
    (grounded : Grounded source tables statements) :
    (∀ statement ∈ statements, statement.table ∈
        names (statements.foldl (apply source) tables)) ∧
      ∀ name table, tableNamed? name
          (statements.foldl (apply source) tables) = some table →
        ∃ old : Table, table =
          old.addColumns (statements.flatMap (Statement.added name)) := by
  induction statements using List.reverseRecOn with
  | nil => exact ⟨by simp, fun name table _ => ⟨table, rfl⟩⟩
  | append_singleton front statement ih =>
      have here := conditional statement (by simp)
      obtain ⟨stand, last⟩ := ih
        (fun other member => conditional other (by simp [member]))
        grounded.front
      rw [List.foldl_append, List.foldl_cons, List.foldl_nil]
      generalize standing : front.foldl (apply source) tables = before
        at stand last
      -- An addition is about a table that stood before it.
      have stood {named : String} {column : Column}
          (same : statement = .addColumn named column) :
          named ∈ names before := by
        rw [← standing]
        exact grounded front named column [] (by rw [same])
      have own : statement.table ∈ names (apply source before statement) := by
        cases statement with
        | createTable definition unlessExists =>
            rw [Statement.IsConditional] at here
            rw [here]
            exact mem_names_create
        | addColumn named column => exact mem_names_apply here (stood rfl)
        | _ => cases here
      refine ⟨fun other member => ?_, fun name table found => ?_⟩
      · rcases List.mem_append.mp member with earlier | latest
        · exact mem_names_apply here (stand other earlier)
        · obtain rfl := List.mem_singleton.mp latest
          exact own
      · rw [List.flatMap_append, List.flatMap_singleton]
        rw [tableNamed?_apply] at found
        by_cases known : name ∈ names before
        · rw [← hasTable_iff, ← tableNamed?_isSome,
            Option.isSome_iff_exists] at known
          obtain ⟨old, known⟩ := known
          obtain ⟨oldest, rfl⟩ := last name old known
          rw [known, revise_some here, Option.some.injEq] at found
          exact ⟨oldest, by rw [addColumns_append, found]⟩
        · -- A table that is new has had no columns added.
          have none : front.flatMap (Statement.added name) = [] := by
            rw [List.flatMap_eq_nil_iff]
            intro other member
            exact added_eq_nil fun same => known (same ▸ stand other member)
          have nor : statement.added name = [] := by
            cases statement with
            | addColumn named column =>
                exact added_eq_nil fun same => known (same ▸ stood rfl)
            | _ => rfl
          exact ⟨table, by rw [none, nor]; rfl⟩

/-- Conditional statements are run once more to no effect. -/
theorem run_run {again : String}
    (conditional : ∀ statement ∈ statements, statement.IsConditional)
    (grounded : Grounded source tables statements)
    (distinct : (names (statements.foldl (apply source) tables)).Nodup) :
    statements.foldl (apply again) (statements.foldl (apply source) tables) =
      statements.foldl (apply source) tables := by
  obtain ⟨stand, last⟩ := stands_after conditional grounded
  obtain ⟨same, found⟩ := @run_of_stands again _ _ conditional stand
  refine eq_of_tableNamed? distinct same fun name => ?_
  rw [found]
  cases known : tableNamed? name (statements.foldl (apply source) tables) with
  | none => rfl
  | some table =>
      obtain ⟨old, rfl⟩ := last name table known
      rw [Option.map_some, addColumns_addColumns]

end Runs

section Replays

variable {history : List Script} {table : Table}

/-- An added column leaves the tables as they are exactly if its table keeps
it. -/
theorem replay_addition_iff {source : String} {column : Column}
    (stands : table ∈ replay history) :
    replay (history ++ [⟨source, [.addColumn table.name column]⟩]) =
        replay history ↔ table.Keeps column := by
  have distinct := nodup_replay history
  obtain ⟨front, back, split⟩ := List.append_of_mem stands
  rw [replay_append_script, applyScript, List.foldl_cons, List.foldl_nil, apply,
    split]
  rw [split, names_append, names_cons, List.nodup_middle, List.nodup_cons,
    List.mem_append, not_or] at distinct
  rw [changeTable_place distinct.1.1, List.append_cancel_left_eq, List.cons.injEq,
    and_iff_left rfl, addColumn_eq_self_iff]

/-- What is read of a script of conditional statements, and what it does to the
tables at the end of a history.  A creation of a table that stands does
nothing; an addition does nothing exactly if its table keeps the column; and
where each addition finds its table, the script is replayed once more to no
effect. -/
theorem replay_conditional_iff {statements : List Statement}
    {text : List Char} (spelled : ConditionalScript statements text)
    (history : List Script) (source : String) :
    readScript text = .ok statements ∧
      (∀ table ∈ replay history, ∀ column,
        statements = [.addColumn table.name column] →
          (replay (history ++ [⟨source, statements⟩]) = replay history ↔
            table.Keeps column)) ∧
      (∀ table ∈ replay history, ∀ definition : TableDefinition,
        definition.name = table.name →
        statements = [.createTable definition true] →
          replay (history ++ [⟨source, statements⟩]) = replay history) ∧
      (Grounded source (replay history) statements → ∀ again,
        replay (history ++ [⟨source, statements⟩, ⟨again, statements⟩]) =
          replay (history ++ [⟨source, statements⟩])) := by
  refine ⟨readScript_conditional spelled, ?_, ?_, fun grounded again => ?_⟩
  · rintro table stands column rfl
    exact replay_addition_iff stands
  · rintro table stands definition named rfl
    have known : hasTable definition.name (replay history) = true := by
      rw [hasTable_iff, named]
      exact List.mem_map_of_mem stands
    simp [replay_append_script, applyScript, apply, known]
  · have distinct := nodup_replay (history ++ [⟨source, statements⟩])
    rw [← List.singleton_append, ← List.append_assoc, replay_append_script]
    rw [replay_append_script] at distinct ⊢
    exact run_run spelled.isConditional grounded distinct

/-- A table of orders with a code and a total. -/
def ordersTable : Table where
  name := "orders"
  fields := [{ name := "code", dataType := "TEXT", nullable := false },
    { name := "total", dataType := "INT", nullable := true }]
  key := none
  source := "V1__init.sql"

def ordersHistory : List Script :=
  [⟨"V1__init.sql", [.createTable
    { name := "orders"
      columns := [⟨"code", "TEXT", false, false, none⟩,
        ⟨"total", "INT", true, false, none⟩] } false]⟩]

theorem mem_replay_ordersHistory : ordersTable ∈ replay ordersHistory := by
  decide

/-- An addition of a column to the orders, unless it exists. -/
def ordersAddition (added : List Char) : List Char :=
  "ALTER TABLE ".toList ++ ("orders".toList ++ ([' '] ++
    ("ADD COLUMN IF NOT EXISTS ".toList ++ added)))

theorem conditionalScript_orders {column : Column} {added : List Char}
    (declared : ColumnText column added) (segment : Segment Inline added) :
    ConditionalScript [.addColumn "orders" column] (ordersAddition added) := by
  have space : Space [' '] := by decide
  have alter : Cased "alter".toList "ALTER".toList := by decide
  have table : Cased "table".toList "TABLE".toList := by decide
  have opening : Words ["alter", "table"] "ALTER TABLE ".toList :=
    .cons alter space (.cons table space .nil)
  have add : Cased "add".toList "ADD".toList := by decide
  have kind : Cased "column".toList "COLUMN".toList := by decide
  have first : Cased "if".toList "IF".toList := by decide
  have second : Cased "not".toList "NOT".toList := by decide
  have third : Cased "exists".toList "EXISTS".toList := by decide
  have condition : Words ["add", "column", "if", "not", "exists"]
      "ADD COLUMN IF NOT EXISTS ".toList :=
    .cons add space (.cons kind space (.cons first space
      (.cons second space (.cons third space .nil))))
  have titled : TitleText "orders" "orders".toList :=
    ⟨by decide, by decide, by decide⟩
  have free : ¬Spells "only".toList "orders".toList := fun spells =>
    absurd (List.Forall₂.length_eq spells) (by decide)
  have front : Gap [] := by decide
  have spelled : ConditionalText (.addColumn "orders" column)
      ([] ++ ordersAddition added) :=
    .add front opening titled free space condition declared
  rw [List.nil_append] at spelled
  have whole : Segment (· ≠ ';') (ordersAddition added) :=
    ((segment_of_chars (by decide)).append ((segment_of_chars (by decide)).append
      ((segment_of_chars (by decide)).append ((segment_of_chars
        (by decide)).append segment)))).mono fun _ passes => passes.2
  have starts : Starts (ordersAddition added) :=
    (opening.starts (by decide)).append
  have solid : isAllBlank ([] ++ ordersAddition added ++ []) = false :=
    starts.isAllBlank
  rw [List.nil_append, List.append_nil] at solid
  rw [ConditionalScript, whole.withoutComments_eq_self, splitOutside,
    piecesFrom_last whole (by decide) fun c passes => passes]
  simpa [solid] using spelled

theorem columnText_total :
    ColumnText ⟨"total", "INT", true, false, none⟩ "total INT".toList where
  starts := ⟨'t', by decide, by decide⟩
  whole := by decide
  unconstrained := by decide
  declares := by decide

/-- The total is the last column of the orders and is kept, and adding it once
more does nothing either. -/
theorem replay_conditional_iff_total :
    let total : Column := ⟨"total", "INT", true, false, none⟩
    let script : Script := ⟨"V2__total.sql", [.addColumn "orders" total]⟩
    ConditionalScript script.statements (ordersAddition "total INT".toList) ∧
      ordersTable ∈ replay ordersHistory ∧ ordersTable.Keeps total ∧
      Grounded script.source (replay ordersHistory) script.statements ∧
      replay (ordersHistory ++ [script]) = replay ordersHistory ∧
      replay (ordersHistory ++ [script, script]) =
        replay (ordersHistory ++ [script]) := by
  intro total script
  have spelled : ConditionalScript script.statements _ :=
    conditionalScript_orders columnText_total (segment_of_chars (by decide))
  have stands := mem_replay_ordersHistory
  have keeps : ordersTable.Keeps total :=
    ⟨⟨[{ name := "code", dataType := "TEXT", nullable := false }], rfl,
      by decide⟩, by decide⟩
  have grounded :
      Grounded script.source (replay ordersHistory) script.statements := by
    intro front name column back split
    cases front with
    | nil =>
        cases split
        exact List.mem_map_of_mem stands
    | cons head rest => simp [script] at split
  have facts := replay_conditional_iff spelled ordersHistory script.source
  exact ⟨spelled, stands, keeps, grounded,
    (facts.2.1 ordersTable stands total rfl).mpr keeps,
    facts.2.2.2 grounded script.source⟩

/-- A column of the orders that exists may be added, unless it exists, and
change them: it takes the place of the one before it. -/
theorem not_replay_conditional :
    ¬∀ (history : List Script) (table : Table) (column : Column)
        (text : List Char) (statements : List Statement),
      table ∈ replay history → table.Has column.name →
      ConditionalScript [.addColumn table.name column] text →
      readScript text = .ok statements →
      replay (history ++ [⟨"V2__code.sql", statements⟩]) = replay history := by
  intro all
  have declared :
      ColumnText ⟨"code", "INT", true, false, none⟩ "code INT".toList :=
    { starts := ⟨'c', by decide, by decide⟩
      whole := by decide
      unconstrained := by decide
      declares := by decide }
  have spelled :=
    conditionalScript_orders declared (segment_of_chars (by decide))
  have has : ordersTable.Has "code" := ⟨_, List.mem_cons_self, rfl⟩
  have claimed := all ordersHistory ordersTable _ _ _ mem_replay_ordersHistory
    has spelled (readScript_conditional spelled)
  revert claimed
  decide

end Replays

end ArchSurvey.Schema
