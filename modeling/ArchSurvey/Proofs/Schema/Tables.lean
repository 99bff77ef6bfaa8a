import ArchSurvey.Proofs.Schema.Constraints

/-!
# Reading tables

The items of a new table are split at the commas outside parentheses and
quotes, and what is read of each item together makes the table that the items
mean.
-/

namespace ArchSurvey.Schema

open Text

section Items

theorem DeclarationText.segment {declaration : Declaration} {text : List Char}
    (spelled : DeclarationText declaration text) : Segment Inline text := by
  obtain ⟨named, spaced, typed, clauses⟩ := spelled
  obtain ⟨texts, rfl, -, parts⟩ := typed.exists_parts
  have kind : Segment Inline (joinWith [' '] texts) := by
    clear typed
    induction texts with
    | nil => exact .nil
    | cons text texts ih =>
        obtain ⟨part, cased⟩ := parts text List.mem_cons_self
        have here : Segment Inline text :=
          (TypePart.segment cased).mono fun _ passes => passes.1
        have later := ih fun other member =>
          parts other (List.mem_cons_of_mem text member)
        by_cases last : texts = []
        · rwa [last, joinWith_singleton]
        · rw [joinWith_cons last]
          exact (here.append (segment_gap (by decide))).append later
  exact ((named.inline.append (segment_gap spaced.2)).append kind).append
    clauses.segment

theorem DeclarationText.starts {declaration : Declaration} {text : List Char}
    (spelled : DeclarationText declaration text) : Starts text := by
  obtain ⟨named, -, -, -⟩ := spelled
  rw [List.append_assoc, List.append_assoc]
  exact (QualifiedText.bare named).starts.append

theorem ClausesText.ends {clauses : List Clause} {before text : List Char}
    (spelled : ClausesText clauses text) (ends : Ends before) :
    Ends (before ++ text) := by
  induction spelled generalizing before with
  | nil => rwa [List.append_nil]
  | @cons clause clauses space text rest _ here _ ih =>
      rw [← List.append_assoc]
      exact ih here.ends.append.append

theorem DeclarationText.ends {declaration : Declaration} {text : List Char}
    (spelled : DeclarationText declaration text) : Ends text := by
  obtain ⟨-, -, typed, clauses⟩ := spelled
  obtain ⟨texts, rfl, filled, parts⟩ := typed.exists_parts
  refine clauses.ends (Ends.append ?_)
  obtain ⟨before, last, rfl⟩ :=
    List.eq_nil_or_concat texts |>.resolve_left filled
  rw [List.concat_eq_append] at parts ⊢
  obtain ⟨part, cased⟩ := parts last (by simp)
  by_cases only : before = []
  · rw [only, List.nil_append, joinWith_singleton]
    exact TypePart.ends cased
  · rw [joinWith_append only (by simp), joinWith_singleton]
    exact (TypePart.ends cased).append

theorem ItemText.segment {item : Item} {text : List Char}
    (spelled : ItemText item text) : Segment Inline text := by
  cases spelled with
  | column declaration => exact declaration.segment
  | constraint constraint => exact constraint.segment

theorem ItemText.starts {item : Item} {text : List Char}
    (spelled : ItemText item text) : Starts text := by
  cases spelled with
  | column declaration => exact declaration.starts
  | constraint constraint => exact constraint.starts

theorem Padded.isAllBlank {spelled : List Char → Prop} {text : List Char}
    (padded : Padded spelled text)
    (starts : ∀ text, spelled text → Starts text) : isAllBlank text = false := by
  obtain ⟨-, here, -⟩ := padded
  exact (starts _ here).isAllBlank

/-- Items with commas between them are split at these commas. -/
theorem splitOutside_padded {α : Type} {spelled : α → List Char → Prop}
    (segment : ∀ item text, spelled item text → Segment Inline text)
    (starts : ∀ item text, spelled item text → Starts text)
    {items : List α} {text : List Char}
    (separated : Separated ',' (fun item => Padded (spelled item)) items text) :
    List.Forall₂ (fun item => Padded (spelled item)) items
      (splitOutside ',' text) :=
  splitOutside_separated (by decide)
    (fun item _ padded => (padded.segment (segment item)).mono
      fun _ passes => passes.1)
    (fun item _ padded => padded.isAllBlank (starts item)) separated

theorem Separated.filled {α : Type} {separator : Char}
    {spelled : α → List Char → Prop} {items : List α} {text : List Char}
    (separated : Separated separator spelled items text) : items ≠ [] := by
  cases separated <;> simp

end Items

section Tables

theorem Padded.cases_item {item : Item} {text : List Char}
    (padded : Padded (ItemText item) text) :
    (∃ declaration, item = .column declaration ∧
        Padded (DeclarationText declaration) text) ∨
      ∃ constraint, item = .constraint constraint ∧
        Padded (ConstraintText constraint) text := by
  obtain ⟨front, spelled, back⟩ := padded
  cases spelled with
  | column declaration => exact .inl ⟨_, rfl, front, declaration, back⟩
  | constraint constraint => exact .inr ⟨_, rfl, front, constraint, back⟩

/-- What the pieces of a table are read as: columns, the keys among the
constraints and the links of the foreign keys. -/
theorem readItems {items : List Item} {pieces : List (List Char)}
    (spelled : List.Forall₂ (fun item => Padded (ItemText item)) items pieces) :
    (pieces.filter fun piece => !isConstraint piece).filterMap readColumn =
        (items.filterMap Item.declaration?).map Declaration.column ∧
      ((pieces.filter isConstraint).filterMap primaryKey.search).map
          (fun found => identifiers (found.group 1)) =
        items.filterMap Item.key? ∧
      foreignKeys (pieces.filter isConstraint) = items.flatMap Item.links := by
  induction spelled with
  | nil => simp [foreignKeys]
  | @cons item piece items pieces here _ ih =>
      obtain ⟨columns, keys, links⟩ := ih
      rw [foreignKeys] at links ⊢
      rcases here.cases_item with ⟨declaration, rfl, padded⟩ |
        ⟨constraint, rfl, padded⟩
      · have plain := isConstraint_declaration padded
        have read := readColumn_declaration padded
        simp [List.filterMap_cons, plain, read, columns, keys, links,
          Item.declaration?, Item.key?, Item.links]
      · have known := isConstraint_constraint padded
        cases constraint with
        | primaryKey names =>
            obtain ⟨found, search, listed⟩ := search_primaryKey padded
            have none := search_foreignKey_eq_none padded
            simp [List.filterMap_cons, known, search, listed, none, columns,
              keys, links, Item.declaration?, Item.key?, Item.links]
        | foreignKey names table =>
            obtain ⟨found, search, listed, aimed⟩ := search_foreignKey padded
            have none := search_primaryKey_eq_none padded
            simp [List.filterMap_cons, known, search, listed, aimed, none,
              columns, keys, links, Item.declaration?, Item.key?, Item.links]

theorem key_ne_nil {items : List Item} {text : List Char}
    (separated : Separated ',' (fun item => Padded (ItemText item)) items text)
    {key : List String} (member : key ∈ items.filterMap Item.key?) :
    key ≠ [] := by
  have filled {item : Item} {text : List Char} {key : List String}
      (padded : Padded (ItemText item) text) (declares : item.key? = some key) :
      key ≠ [] := by
    have keyFilled {columns : List Name} {text : List Char}
        (spelled : KeyText (.primaryKey columns) text) : columns ≠ [] := by
      cases spelled with
      | primaryKey _ _ _ list => exact list.filled
    obtain ⟨-, spelled, -⟩ := padded
    cases spelled with
    | column _ => cases declares
    | @constraint constraint text spelled =>
        cases constraint with
        | foreignKey _ _ => cases declares
        | primaryKey columns =>
            have named : columns ≠ [] := by
              cases spelled with
              | anonymous key => exact keyFilled key
              | named _ _ _ key => exact keyFilled key
            rw [← Option.some.inj declares]
            simpa using named
  induction separated with
  | one padded =>
      obtain ⟨item, inside, declares⟩ := List.mem_filterMap.mp member
      rw [List.mem_singleton.mp inside] at declares
      exact filled padded declares
  | more padded _ ih =>
      obtain ⟨item, inside, declares⟩ := List.mem_filterMap.mp member
      rcases List.mem_cons.mp inside with rfl | later
      · exact filled padded declares
      · exact ih (List.mem_filterMap.mpr ⟨item, later, declares⟩)

theorem constrain_column (key : List String) (links : List (String × String))
    (declaration : Declaration) :
    constrain key links declaration.column =
      declaration.columnIn key links := by
  by_cases inKey : declaration.name.text ∈ key <;>
    cases target : links.lookup declaration.name.text <;>
      simp [constrain, Declaration.columnIn, Declaration.column, inKey, target]

/-- The text of the items of a table is read as the table they mean. -/
theorem readTable_separated {items : List Item} {table : Name}
    {text : List Char}
    (separated : Separated ',' (fun item => Padded (ItemText item)) items
      text) : readTable table.text text = tableOf table items := by
  obtain ⟨columns, keys, links⟩ := readItems (splitOutside_padded
    (fun _ _ => ItemText.segment) (fun _ _ => ItemText.starts) separated)
  have declared : declaredKey ((splitOutside ',' text).filter isConstraint) =
      (items.filterMap Item.key?).getLast?.getD [] := by
    rw [declaredKey, ← keys, List.getLast?_map]
  have key : (if ((items.filterMap Item.key?).getLast?.getD []).isEmpty then
      ((((items.filterMap Item.declaration?).map Declaration.column).filter
        Column.inKey).map Column.name)
      else (items.filterMap Item.key?).getLast?.getD []) = keyOf items := by
    rw [keyOf]
    cases last : (items.filterMap Item.key?).getLast? with
    | none => simp [List.filter_map, Function.comp_def, Declaration.column]
    | some key =>
        have filled := key_ne_nil separated (List.mem_of_getLast? last)
        simp [filled]
  rw [readTable]
  simp only [columns, declared, links, key, tableOf, List.map_map]
  congr 1
  exact List.map_congr_left fun declaration _ => constrain_column _ _ _

end Tables

end ArchSurvey.Schema
