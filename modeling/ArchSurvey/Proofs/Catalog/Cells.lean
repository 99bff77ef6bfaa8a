import ArchSurvey.Proofs.Catalog.Pages
import ArchSurvey.Proofs.Diagram.Lines

/-!
# Cells of tables

A row is one line, and reading it gives back its cells: a bar parts two cells
unless a backslash stands directly in front of it.  So each row of a catalog
has as many cells as the header of its table, whatever the texts of the model
are made of.
-/

namespace ArchSurvey.Catalog

open Diagram (Unbroken unbroken_append unbroken_intercalate textOfLines)

/-! ## Reading a row -/

/-- The pieces of a text between the bars that have no backslash directly in
front of them.  `before` is the character passed last, and `piece` holds the
piece being read, last character first. -/
def piecesFrom (before : Char) (piece : List Char) :
    List Char → List (List Char)
  | [] => [piece.reverse]
  | c :: rest =>
      if c = '|' ∧ before ≠ '\\' then piece.reverse :: piecesFrom c [] rest
      else piecesFrom c (c :: piece) rest

/-- The cells of a line: the pieces between its first bar and its last one. -/
def cellsOf (line : String) : List String :=
  ((piecesFrom '\n' [] line.toList).tail.dropLast).map String.ofList

/-- A text behind a character in which each bar has a backslash directly in
front of it. -/
def Guarded : Char → List Char → Prop
  | _, [] => True
  | before, c :: rest => (c = '|' → before = '\\') ∧ Guarded c rest

theorem guarded_of_not_mem {text : List Char} (absent : '|' ∉ text)
    (before : Char) : Guarded before text := by
  induction text generalizing before with
  | nil => trivial
  | cons c text ih =>
      rw [List.mem_cons, not_or] at absent
      exact ⟨fun bar => absurd bar.symm absent.1, ih absent.2 c⟩

theorem guarded_append {before : Char} {first second : List Char}
    (front : Guarded before first)
    (back : ∀ last, Guarded last second) :
    Guarded before (first ++ second) := by
  induction first generalizing before with
  | nil => exact back before
  | cons c first ih => exact ⟨front.1, ih front.2⟩

/-- The bars of a guarded text part nothing. -/
theorem piecesFrom_append {before : Char} {text : List Char}
    (guarded : Guarded before text) (piece rest : List Char) :
    ∃ last, piecesFrom before piece (text ++ rest) =
      piecesFrom last (text.reverse ++ piece) rest := by
  induction text generalizing before piece with
  | nil => exact ⟨before, rfl⟩
  | cons c text ih =>
      have inside : ¬ (c = '|' ∧ before ≠ '\\') :=
        fun parts => parts.2 (guarded.1 parts.1)
      obtain ⟨last, read⟩ := ih guarded.2 (c :: piece)
      refine ⟨last, ?_⟩
      rw [List.cons_append, piecesFrom, if_neg inside, read]
      simp

/-- A cell is read up to the bar behind it, as a blank keeps a backslash at its
end apart from that bar. -/
theorem piecesFrom_cell {text : List Char} (guarded : Guarded ' ' text)
    (rest : List Char) :
    piecesFrom '|' [] (' ' :: (text ++ ' ' :: '|' :: rest)) =
      (' ' :: (text ++ [' '])) :: piecesFrom '|' [] rest := by
  obtain ⟨last, read⟩ := piecesFrom_append guarded [' '] (' ' :: '|' :: rest)
  rw [piecesFrom, if_neg (by decide), read, piecesFrom, if_neg (by simp),
    piecesFrom, if_pos (by decide)]
  simp

/-! ## Texts in cells -/

/-- A text that may stand in a cell. -/
structure IsCell (text : String) : Prop where
  unbroken : Unbroken text
  guarded : ∀ before, Guarded before text.toList

theorem isCell_of_plain {text : String}
    (plain : ∀ c ∈ text.toList, c ∉ ['|', '\n', '\r']) : IsCell text where
  unbroken c member := by
    have other := plain c member
    simp only [List.mem_cons, List.not_mem_nil, or_false, not_or] at other
    exact other.2
  guarded := guarded_of_not_mem fun bar => plain '|' bar List.mem_cons_self

theorem guarded_cellChars (text : List Char) (before : Char) :
    Guarded before (text.flatMap cellChar) := by
  induction text generalizing before with
  | nil => trivial
  | cons c text ih =>
      rw [List.flatMap_cons]
      refine guarded_append ?_ ih
      rw [cellChar]
      split
      · exact ⟨fun same => absurd same (by decide), fun _ => rfl, trivial⟩
      · next other =>
          have solid : c ≠ '|' := by simpa using other
          refine guarded_of_not_mem ?_ before
          split
          · decide
          · simpa using solid.symm

theorem isCell_cell (text : String) : IsCell (cell text) where
  unbroken c member := by
    rw [cell, String.toList_ofList] at member
    obtain ⟨source, -, shown⟩ := List.mem_flatMap.mp member
    exact cellChar_not_lineEnd shown
  guarded before := by
    rw [cell, String.toList_ofList]
    exact guarded_cellChars _ before

theorem isCell_cellOrDash (text : Option String) :
    IsCell (cellOrDash text) := by
  have dash : IsCell "-" := isCell_of_plain (by decide)
  cases text with
  | none => exact dash
  | some text =>
      rw [cellOrDash]
      split
      · exact dash
      · exact isCell_cell text

theorem isCell_codeCell (text : String) : IsCell (codeCell text) := by
  have mark : IsCell "\x60" := isCell_of_plain (by decide)
  have inside := isCell_cell text
  refine ⟨?_, fun before => ?_⟩
  · rw [codeCell, unbroken_append, unbroken_append]
    exact ⟨⟨mark.unbroken, inside.unbroken⟩, mark.unbroken⟩
  · rw [codeCell, String.toList_append, String.toList_append]
    exact guarded_append (guarded_append (mark.guarded before) inside.guarded)
      mark.guarded

theorem isCell_toString (count : Nat) : IsCell (toString count) := by
  apply isCell_of_plain
  intro c member
  have spelled : (toString count).toList = Nat.toDigits 10 count := by
    simp [toString, Nat.repr]
  rw [spelled] at member
  have digit := Nat.isDigit_of_mem_toDigits (by decide) (by decide) member
  intro mark
  simp only [List.mem_cons, List.not_mem_nil, or_false] at mark
  rcases mark with rfl | rfl | rfl <;> revert digit <;> decide

/-! ## Rows -/

section Rows

variable {cells : List String}

theorem toList_rowLine (some : cells ≠ []) :
    (rowLine cells).toList =
      '|' :: cells.flatMap fun cell =>
        ' ' :: (cell.toList ++ [' ', '|']) := by
  obtain ⟨first, rest, rfl⟩ := List.exists_cons_of_ne_nil some
  have behind : (" | ".intercalate (first :: rest)).toList ++ [' ', '|'] =
      first.toList ++ ' ' :: '|' :: rest.flatMap fun cell =>
        ' ' :: (cell.toList ++ [' ', '|']) := by
    induction rest generalizing first with
    | nil => simp
    | cons next rest ih =>
        rw [String.intercalate_cons_cons, String.toList_append,
          List.append_assoc, ih next (by simp)]
        simp
  simpa [rowLine] using behind

theorem pieces_cells (each : ∀ cell ∈ cells, IsCell cell) :
    piecesFrom '|' [] (cells.flatMap fun cell =>
        ' ' :: (cell.toList ++ [' ', '|'])) =
      cells.map (fun cell => ' ' :: (cell.toList ++ [' '])) ++ [[]] := by
  induction cells with
  | nil => rfl
  | cons cell cells ih =>
      obtain ⟨here, later⟩ := List.forall_mem_cons.mp each
      have spelled : ' ' :: (cell.toList ++ [' ', '|']) ++
            cells.flatMap (fun cell => ' ' :: (cell.toList ++ [' ', '|'])) =
          ' ' :: (cell.toList ++ ' ' :: '|' :: cells.flatMap fun cell =>
            ' ' :: (cell.toList ++ [' ', '|'])) := by simp
      rw [List.flatMap_cons, spelled, piecesFrom_cell (here.guarded ' '),
        ih later]
      rfl

/-- What is read from a row are its cells, each between two blanks. -/
theorem cellsOf_rowLine (some : cells ≠ [])
    (each : ∀ cell ∈ cells, IsCell cell) :
    cellsOf (rowLine cells) = cells.map fun cell => " " ++ cell ++ " " := by
  rw [cellsOf, toList_rowLine some, piecesFrom, if_pos (by decide),
    pieces_cells each, List.tail_cons, List.dropLast_concat, List.map_map]
  refine List.map_congr_left fun cell _ => ?_
  simp [← String.toList_inj]

theorem unbroken_rowLine (each : ∀ cell ∈ cells, IsCell cell) :
    Unbroken (rowLine cells) := by
  have marks : Unbroken "| " ∧ Unbroken " | " ∧ Unbroken " |" := by decide
  rw [rowLine, unbroken_append, unbroken_append]
  exact ⟨⟨marks.1, unbroken_intercalate marks.2.1
    fun cell member => (each cell member).unbroken⟩, marks.2.2⟩

end Rows

/-- A table with a cell for each column in each of its rows. -/
structure Table.Regular (table : Table) : Prop where
  some : table.columns ≠ []
  columns : ∀ column ∈ table.columns, IsCell column
  length_row : ∀ row ∈ table.rows, row.length = table.columns.length
  rows : ∀ row ∈ table.rows, ∀ cell ∈ row, IsCell cell

/-- The rule under a header has a cell for each column. -/
theorem cellsOf_rule (columns : List String) :
    cellsOf ("|" ++ String.join (columns.map fun _ => "---|")) =
      columns.map fun _ => "---" := by
  have behind : piecesFrom '|' []
        (String.join (columns.map fun _ => "---|")).toList =
      columns.map (fun _ => ['-', '-', '-']) ++ [[]] := by
    induction columns with
    | nil => rfl
    | cons column columns ih =>
        rw [List.map_cons, String.join_cons, String.toList_append]
        simpa [piecesFrom] using ih
  have bar : "|".toList = ['|'] := rfl
  rw [cellsOf, String.toList_append, bar, List.singleton_append, piecesFrom,
    if_pos (by decide), behind, List.tail_cons, List.dropLast_concat,
    List.map_map]
  rfl

theorem unbroken_rule (columns : List String) :
    Unbroken ("|" ++ String.join (columns.map fun _ => "---|")) := by
  have marks : Unbroken "" ∧ Unbroken "|" ∧ Unbroken "---|" := by decide
  have behind : Unbroken (String.join (columns.map fun _ => "---|")) := by
    induction columns with
    | nil => exact marks.1
    | cons column columns ih =>
        rw [List.map_cons, String.join_cons, unbroken_append]
        exact ⟨marks.2.2, ih⟩
  exact unbroken_append.mpr ⟨marks.2.1, behind⟩

/-- Each line of a regular table is one line with a cell for each column. -/
theorem Table.Regular.length_cells {table : Table} (regular : table.Regular)
    {line : String} (member : line ∈ table.lines) :
    Unbroken line ∧ (cellsOf line).length = table.columns.length := by
  have header : (cellsOf (rowLine table.columns)).length =
      table.columns.length := by
    rw [cellsOf_rowLine regular.some regular.columns, List.length_map]
  simp only [Table.lines, List.cons_append, List.nil_append, List.mem_cons,
    List.mem_map] at member
  rcases member with rfl | rfl | ⟨row, among, rfl⟩
  · exact ⟨unbroken_rowLine regular.columns, header⟩
  · exact ⟨unbroken_rule _, by rw [cellsOf_rule, List.length_map]⟩
  · have width := regular.length_row row among
    have filled : row ≠ [] := by
      rintro rfl
      exact regular.some (List.length_eq_zero_iff.mp width.symm)
    refine ⟨unbroken_rowLine (regular.rows row among), ?_⟩
    rw [cellsOf_rowLine filled (regular.rows row among), List.length_map, width]

/-! ## The tables of the catalogs -/

theorem regular_of_row {α : Type} {columns : List String} {items : List α}
    {row : α → List String} (width : Nat)
    (length_columns : columns.length = width + 1)
    (length_row : ∀ item, (row item).length = width + 1)
    (plain : ∀ column ∈ columns, ∀ c ∈ column.toList, c ∉ ['|', '\n', '\r'])
    (cells : ∀ item, ∀ cell ∈ row item, IsCell cell) :
    Table.Regular ⟨columns, items.map row⟩ where
  some := List.ne_nil_of_length_eq_add_one length_columns
  columns column member := isCell_of_plain (plain column member)
  length_row := List.forall_mem_map.mpr fun item _ =>
    (length_row item).trans length_columns.symm
  rows := List.forall_mem_map.mpr fun item _ => cells item

theorem isCell_endpointRow (endpoint : Endpoint) :
    ∀ cell ∈ endpointRow endpoint, IsCell cell := by
  have kind : IsCell endpoint.kind.title := by
    apply isCell_of_plain
    cases endpoint.kind <;> decide
  have authentication :
      IsCell ((endpoint.authentication.map cell).getD "None") := by
    cases endpoint.authentication with
    | none => exact isCell_of_plain (by decide)
    | some text => exact isCell_cell text
  simp only [endpointRow, List.forall_mem_cons, List.not_mem_nil,
    false_implies, implies_true, and_true]
  exact ⟨isCell_cellOrDash _, isCell_codeCell _, kind, authentication,
    isCell_cellOrDash _⟩

theorem isCell_componentRow (component : Component) :
    ∀ cell ∈ componentRow component, IsCell cell := by
  simp only [componentRow, List.forall_mem_cons, List.not_mem_nil,
    false_implies, implies_true, and_true]
  exact ⟨isCell_cell _, isCell_cellOrDash _, isCell_cellOrDash _,
    isCell_cellOrDash _⟩

theorem isCell_dependencyRow (dependency : Dependency) :
    ∀ cell ∈ dependencyRow dependency, IsCell cell := by
  have direct :
      IsCell (if dependency.direct then "Direct" else "Transitive") := by
    apply isCell_of_plain
    cases dependency.direct <;> decide
  simp only [dependencyRow, List.forall_mem_cons, List.not_mem_nil,
    false_implies, implies_true, and_true]
  exact ⟨isCell_cellOrDash _, isCell_cell _, isCell_cellOrDash _,
    isCell_cell _, direct⟩

theorem isCell_fieldRow (field : Field) :
    ∀ cell ∈ fieldRow field, IsCell cell := by
  have nullable : IsCell (if field.nullable then "Yes" else "No") := by
    apply isCell_of_plain
    cases field.nullable <;> decide
  simp only [fieldRow, List.forall_mem_cons, List.not_mem_nil,
    false_implies, implies_true, and_true]
  exact ⟨isCell_cell _, isCell_codeCell _, nullable, isCell_cellOrDash _,
    isCell_cellOrDash _⟩

theorem isCell_flowRow (model : Model) (flow : MessageFlow) :
    ∀ cell ∈ flowRow model flow, IsCell cell := by
  simp only [flowRow, List.forall_mem_cons, List.not_mem_nil,
    false_implies, implies_true, and_true]
  exact ⟨isCell_cellOrDash _, isCell_cellOrDash _, isCell_cellOrDash _,
    isCell_cellOrDash _⟩

theorem regular_dependencySummary (dependencies : List Dependency) :
    (dependencySummary dependencies).Regular where
  some := by simp [dependencySummary, countTable]
  columns column member := isCell_of_plain (by
    revert column member
    simp only [dependencySummary, countTable]
    decide)
  length_row row member := by
    obtain ⟨count, -, rfl⟩ := List.mem_map.mp member
    rfl
  rows row member := by
    obtain ⟨⟨name, count⟩, among, rfl⟩ := List.mem_map.mp member
    have plain : IsCell name := by
      simp only [List.mem_cons, List.not_mem_nil, or_false,
        Prod.mk.injEq] at among
      rcases among with ⟨rfl, -⟩ | ⟨rfl, -⟩ | ⟨rfl, -⟩
      · exact isCell_of_plain (by decide)
      · exact isCell_of_plain (by decide)
      · exact isCell_of_plain (by decide)
    simp only [List.forall_mem_cons, List.not_mem_nil, false_implies,
      implies_true, and_true]
    exact ⟨plain, isCell_toString count⟩

theorem regular_of_mem_sections {α : Type} {items : List α}
    {part : α → Section}
    (each : ∀ item table, (part item).table = some table → table.Regular)
    {table : Table}
    (member : table ∈ (items.map part).filterMap Section.table) :
    table.Regular := by
  obtain ⟨shown, inside, held⟩ := List.mem_filterMap.mp member
  obtain ⟨item, -, rfl⟩ := List.mem_map.mp inside
  exact each item table held

theorem regular_of_mem_tables {model : Model} {kind : DiagramKind}
    {table : Table} (member : table ∈ tables model kind) : table.Regular := by
  cases kind with
  | context | container | deployment | sequence => cases member
  | endpoints =>
      refine regular_of_mem_sections (fun group table held => ?_) member
      cases held
      exact regular_of_row 4 rfl (fun _ => rfl) (by decide +kernel)
        isCell_endpointRow
  | component =>
      refine regular_of_mem_sections (fun group table held => ?_) member
      cases held
      exact regular_of_row 3 rfl (fun _ => rfl) (by decide +kernel)
        isCell_componentRow
  | dependencies =>
      rcases List.mem_append.mp member with section_ | summary
      · refine regular_of_mem_sections (fun group table held => ?_) section_
        cases held
        exact regular_of_row 4 rfl (fun _ => rfl) (by decide +kernel)
          isCell_dependencyRow
      · split at summary
        · cases summary
        · rw [List.mem_singleton.mp summary]
          exact regular_dependencySummary _
  | entities =>
      refine regular_of_mem_sections (fun entity table held => ?_) member
      rw [entitySection] at held
      split at held
      · cases held
      · cases held
        exact regular_of_row 4 rfl (fun _ => rfl) (by decide +kernel)
          isCell_fieldRow
  | flows =>
      refine regular_of_mem_sections (fun group table held => ?_) member
      cases held
      exact regular_of_row 3 rfl (fun _ => rfl) (by decide +kernel)
        (isCell_flowRow model)

theorem exists_catalog? (model : Model) {kind : DiagramKind}
    (member : kind ∈ Generator.catalogs.kinds) :
    ∃ name page, Generator.catalog? model kind = some (name, page) := by
  simp only [Generator.kinds, List.mem_cons, List.not_mem_nil, or_false]
    at member
  rcases member with rfl | rfl | rfl | rfl | rfl
  · exact ⟨_, _, rfl⟩
  · exact ⟨_, _, rfl⟩
  · exact ⟨_, _, rfl⟩
  · exact ⟨_, _, rfl⟩
  · exact ⟨_, _, rfl⟩

/-- Every catalog is drawn as a page.  Its lines with a bar in front, but for
descriptions of entities, are the lines of its tables, which stand in it as a
whole.  Each of them is one line and has as many cells as the header. -/
theorem rows_match_header (model : Model) :
    ∀ kind ∈ Generator.catalogs.kinds, ∃ page, DrawnAs model kind page ∧
      (∀ line ∈ page.lines, HasBar line →
        (∃ table ∈ tables model kind, line ∈ table.lines) ∨
          kind = .entities ∧ ∃ entity ∈ model.entities,
            entity.description = some line) ∧
      ∀ table ∈ tables model kind,
        table.lines <:+: page.lines ∧
        ∀ line ∈ table.lines, Unbroken line ∧
          (cellsOf line).length =
            (cellsOf (rowLine table.columns)).length := by
  intro kind member
  obtain ⟨name, page, found⟩ := exists_catalog? model member
  refine ⟨page, drawnAs_of_catalog? found,
    fun line inside bar => table_of_hasBar found inside bar, ?_⟩
  intro table shown
  have regular := regular_of_mem_tables shown
  refine ⟨tables_isInfix found shown, fun line among => ?_⟩
  have header : rowLine table.columns ∈ table.lines := List.mem_cons_self
  rw [(regular.length_cells header).2]
  exact regular.length_cells among

/-- A shop that offers a path with bars, a backslash and a line feed in it. -/
def shopWithBars : Model :=
  { projectName := "shop"
    endpoints :=
      [{ component := "svc", kind := .rest, path := "/a\\|b|\n|c\\",
         description := some "|" }] }

theorem rows_match_header_bars :
    ∃ page, DrawnAs shopWithBars .endpoints page ∧
      ∀ table ∈ tables shopWithBars .endpoints, ∀ line ∈ table.lines,
        Unbroken line ∧ (cellsOf line).length =
          (cellsOf (rowLine table.columns)).length := by
  obtain ⟨page, drawn, -, rows⟩ :=
    rows_match_header shopWithBars .endpoints (by decide)
  exact ⟨page, drawn, fun table shown => (rows table shown).2⟩

/-- A text made of the marks of a table stays in its cell. -/
example : cellsOf (rowLine [cell "a\\|b|\n|c\\", cell "|", "-"]) =
    [" a\\\\|b\\| \\|c\\ ", " \\| ", " - "] := by decide +kernel

end ArchSurvey.Catalog
