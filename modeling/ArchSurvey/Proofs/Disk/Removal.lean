import ArchSurvey.Proofs.Disk.Lookup

/-!
# Removing a file

A tree without one of its files has the other files at the same places, and
lists them in the same order.
-/

namespace ArchSurvey

open ArchSurvey.Path (IsName)

theorem placeLe_trans (a b c : List String) (first : placeLe a b = true)
    (second : placeLe b c = true) : placeLe a c = true := by
  induction a generalizing b c with
  | nil => rfl
  | cons x p ih =>
      cases b with
      | nil => cases first
      | cons y q =>
          cases c with
          | nil => cases second
          | cons z r =>
              simp only [placeLe, Bool.or_eq_true, Bool.and_eq_true,
                decide_eq_true_eq, beq_iff_eq] at first second ⊢
              rcases first with less | ⟨rfl, below⟩
              · rcases second with less' | ⟨rfl, -⟩
                · exact Or.inl (String.lt_trans less less')
                · exact Or.inl less
              · rcases second with less' | ⟨rfl, below'⟩
                · exact Or.inl less'
                · exact Or.inr ⟨rfl, ih q r below below'⟩

theorem placeLe_total (a b : List String) :
    (placeLe a b || placeLe b a) = true := by
  induction a generalizing b with
  | nil => rfl
  | cons x p ih =>
      cases b with
      | nil => rfl
      | cons y q =>
          have tails := ih q
          simp only [placeLe, Bool.or_eq_true, Bool.and_eq_true,
            decide_eq_true_eq, beq_iff_eq] at tails ⊢
          by_cases same : x = y
          · subst same
            rcases tails with below | above
            · exact Or.inl (Or.inr ⟨rfl, below⟩)
            · exact Or.inr (Or.inr ⟨rfl, above⟩)
          · rcases String.le_total x y with le | ge
            · refine Or.inl (Or.inl (String.not_le.mp fun ge => same ?_))
              exact String.le_antisymm le ge
            · refine Or.inr (Or.inl (String.not_le.mp fun le => same ?_))
              exact String.le_antisymm le ge

namespace Node

/-- Below a regular file stands nothing else. -/
theorem eq_nil_of_at?_file {content : List UInt8} {place : List String}
    {found : Node} (stands : (file content).at? place = some found) :
    place = [] := by
  cases place with
  | nil => rfl
  | cons name rest => cases stands

/-- What stands below the root stands in a directory entry. -/
theorem exists_of_at?_cons {node found : Node} {name : String}
    {rest : List String} (stands : node.at? (name :: rest) = some found) :
    ∃ entries child, node = directory entries ∧
      entries.lookup name = some child ∧ child.at? rest = some found := by
  cases node with
  | file content => cases stands
  | link target => cases stands
  | directory entries =>
      rw [at?, entry?] at stands
      cases held : entries.lookup name with
      | none =>
          rw [held] at stands
          cases stands
      | some child =>
          rw [held] at stands
          exact ⟨entries, child, rfl, held, stands⟩

theorem EntriesWellFormed.lookup {entries : List (String × Node)}
    (wellFormed : EntriesWellFormed entries) {name : String} {child : Node}
    (held : entries.lookup name = some child) :
    IsName name ∧ child.WellFormed := by
  induction entries with
  | nil => cases held
  | cons entry rest ih =>
      obtain ⟨other, node⟩ := entry
      rw [EntriesWellFormed] at wellFormed
      obtain ⟨isName, -, nodeFormed, restFormed⟩ := wellFormed
      rw [List.lookup_cons] at held
      cases same : name == other with
      | true =>
          rw [same] at held
          cases held
          exact ⟨eq_of_beq same ▸ isName, nodeFormed⟩
      | false =>
          rw [same] at held
          exact ih restFormed held

/-- What stands in a well-formed tree is well-formed. -/
theorem WellFormed.at? {place : List String} {tree found : Node}
    (wellFormed : tree.WellFormed) (stands : tree.at? place = some found) :
    found.WellFormed := by
  induction place generalizing tree with
  | nil =>
      cases stands
      exact wellFormed
  | cons name rest ih =>
      obtain ⟨entries, child, rfl, held, below⟩ := exists_of_at?_cons stands
      rw [WellFormed] at wellFormed
      exact ih (wellFormed.lookup held).2 below

/-- What stands in a well-formed tree has a proper place there. -/
theorem proper_of_at? {place : List String} {node found : Node}
    (wellFormed : node.WellFormed) (stands : node.at? place = some found) :
    ∀ name ∈ place, IsName name := by
  induction place generalizing node with
  | nil => simp
  | cons name rest ih =>
      obtain ⟨entries, child, rfl, held, stands⟩ := exists_of_at?_cons stands
      rw [WellFormed] at wellFormed
      obtain ⟨isName, childFormed⟩ := wellFormed.lookup held
      intro other member
      rcases List.mem_cons.mp member with rfl | below
      · exact isName
      · exact ih childFormed stands other below

theorem lookup_setEntry (name other : String) (node : Node)
    (entries : List (String × Node)) :
    (setEntry name node entries).lookup other =
      if other = name then some node else entries.lookup other := by
  have first (child : Node) (rest : List (String × Node)) :
      ((name, child) :: rest).lookup other =
        if other = name then some child else rest.lookup other := by
    rw [List.lookup_cons]
    cases same : other == name with
    | true => rw [if_pos (eq_of_beq same)]
    | false => rw [if_neg (beq_eq_false_iff_ne.mp same)]
  induction entries with
  | nil => exact first node []
  | cons entry rest ih =>
      obtain ⟨held, child⟩ := entry
      rw [setEntry]
      by_cases here : name = held
      · subst here
        rw [if_pos (beq_self_eq_true _), first, first]
        split <;> rfl
      · rw [if_neg (by simpa using here), List.lookup_cons, List.lookup_cons, ih]
        cases same : other == held with
        | true =>
            obtain rfl := eq_of_beq same
            simp only [if_neg (Ne.symm here)]
        | false => rfl

theorem lookup_filter_ne {name other : String} (apart : other ≠ name)
    (entries : List (String × Node)) :
    (entries.filter fun entry => entry.1 != name).lookup other =
      entries.lookup other := by
  induction entries with
  | nil => rfl
  | cons entry rest ih =>
      obtain ⟨held, child⟩ := entry
      by_cases here : held = name
      · subst here
        rw [List.filter_cons_of_neg (by simp), ih, List.lookup_cons,
          beq_eq_false_iff_ne.mpr apart]
      · rw [List.filter_cons_of_pos (by simpa using here), List.lookup_cons,
          List.lookup_cons, ih]

/-- Other entries of a directory are untouched. -/
theorem entry?_remove_of_ne {name other : String} (apart : other ≠ name)
    (rest : List String) (entries : List (String × Node)) :
    Node.entry? other ((directory entries).remove (name :: rest)) =
      entries.lookup other := by
  cases rest with
  | nil => exact lookup_filter_ne apart entries
  | cons next below =>
      rw [remove]
      · cases entries.lookup name with
        | none => rfl
        | some child =>
            dsimp only [Node.entry?]
            rw [lookup_setEntry, if_neg apart]
      · simp

/-- Other files stay in their places. -/
theorem at?_remove {place other : List String} {node : Node}
    {content found : List UInt8} (stands : node.at? place = some (file content))
    (apart : other ≠ place) (kept : node.at? other = some (file found)) :
    (node.remove place).at? other = some (file found) := by
  induction place generalizing node other with
  | nil => exact kept
  | cons name rest ih =>
      obtain ⟨entries, child, rfl, held, below⟩ := exists_of_at?_cons stands
      cases other with
      | nil => cases kept
      | cons head tail =>
          obtain ⟨_, inner, same, heldInner, keptInner⟩ :=
            exists_of_at?_cons kept
          cases same
          by_cases here : head = name
          · subst here
            obtain rfl : inner = child :=
              Option.some.inj (heldInner.symm.trans held)
            have tailsApart : tail ≠ rest := fun equal => apart (equal ▸ rfl)
            cases rest with
            | nil =>
                cases below
                exact absurd (eq_nil_of_at?_file keptInner) tailsApart
            | cons next more =>
                rw [remove, held]
                · dsimp only
                  rw [at?, entry?, lookup_setEntry, if_pos rfl]
                  exact ih below tailsApart keptInner
                · simp
          · rw [at?, entry?_remove_of_ne here, heldInner]
            exact keptInner

/-- Of the places below an entry, one place is left out by its rest. -/
theorem filter_map_cons (head name : String) (rest : List String)
    (places : List (List String)) :
    (places.map (head :: ·)).filter (· != name :: rest) =
      if head = name then (places.filter (· != rest)).map (head :: ·)
      else places.map (head :: ·) := by
  rw [List.filter_map]
  split
  · next same =>
      subst same
      congr 1
      apply List.filter_congr
      intro place member
      rw [Bool.eq_iff_iff]
      simp
  · next apart =>
      congr 1
      apply List.filter_eq_self.mpr
      intro place member
      simp [apart]

variable {skipped : List String}

/-- No place goes through a name that is not there. -/
theorem filter_entryPlaces_of_absent {name : String}
    {entries : List (String × Node)} (absent : name ∉ entries.map Prod.fst)
    (rest : List String) :
    (entryPlaces skipped entries).filter (· != name :: rest) =
      entryPlaces skipped entries := by
  induction entries with
  | nil => rfl
  | cons entry others ih =>
      obtain ⟨head, child⟩ := entry
      rw [List.map_cons, List.mem_cons, not_or] at absent
      rw [entryPlaces, List.filter_append, filter_map_cons,
        if_neg (Ne.symm absent.1), ih absent.2]

/-- The files of a directory without one that stands in the directory itself. -/
theorem entryPlaces_filter_ne {entries : List (String × Node)}
    (wellFormed : EntriesWellFormed entries) {name : String}
    {content : List UInt8} (held : entries.lookup name = some (file content)) :
    entryPlaces skipped (entries.filter fun entry => entry.1 != name) =
      (entryPlaces skipped entries).filter (· != [name]) := by
  induction entries with
  | nil => cases held
  | cons entry rest ih =>
      obtain ⟨head, child⟩ := entry
      rw [EntriesWellFormed] at wellFormed
      obtain ⟨-, distinct, -, restFormed⟩ := wellFormed
      rw [List.lookup_cons] at held
      rw [entryPlaces, List.filter_append, filter_map_cons]
      cases same : name == head with
      | true =>
          rw [same] at held
          cases held
          obtain rfl := eq_of_beq same
          have others : (rest.filter fun entry => entry.1 != name) = rest := by
            apply List.filter_eq_self.mpr
            intro entry member
            have apart : entry.1 ≠ name := fun equal =>
              distinct (equal ▸ List.mem_map_of_mem member)
            simpa using apart
          rw [List.filter_cons_of_neg (by simp), others, if_pos rfl,
            filter_entryPlaces_of_absent distinct]
          rfl
      | false =>
          rw [same] at held
          have apart : head ≠ name := Ne.symm (beq_eq_false_iff_ne.mp same)
          rw [List.filter_cons_of_pos (by simpa using apart), if_neg apart,
            entryPlaces, ih restFormed held]

/-- The files of a directory without one that stands in an inner directory. -/
theorem entryPlaces_setEntry {entries : List (String × Node)}
    (wellFormed : EntriesWellFormed entries) {name : String}
    {child smaller : Node} (held : entries.lookup name = some child)
    (kind : smaller.isDirectory = child.isDirectory) {rest : List String}
    (fewer : smaller.filePlaces skipped =
      (child.filePlaces skipped).filter (· != rest)) :
    entryPlaces skipped (setEntry name smaller entries) =
      (entryPlaces skipped entries).filter (· != name :: rest) := by
  induction entries with
  | nil => cases held
  | cons entry others ih =>
      obtain ⟨head, node⟩ := entry
      rw [EntriesWellFormed] at wellFormed
      obtain ⟨-, distinct, -, othersFormed⟩ := wellFormed
      rw [List.lookup_cons] at held
      rw [setEntry, entryPlaces, List.filter_append, filter_map_cons]
      cases same : name == head with
      | true =>
          rw [same] at held
          cases held
          obtain rfl := eq_of_beq same
          rw [if_pos rfl, if_pos rfl, filter_entryPlaces_of_absent distinct,
            entryPlaces, kind, fewer]
          split <;> rfl
      | false =>
          rw [same] at held
          have apart : head ≠ name := Ne.symm (beq_eq_false_iff_ne.mp same)
          rw [if_neg (by decide), if_neg apart, entryPlaces,
            ih othersFormed held]

/-- A directory from which something is removed is still one. -/
theorem isDirectory_remove (place : List String) (node : Node) :
    (node.remove place).isDirectory = node.isDirectory := by
  fun_cases remove place node <;> rfl

/-- The files of a tree without one of them. -/
theorem filePlaces_remove {place : List String} (nonempty : place ≠ [])
    {node : Node} (wellFormed : node.WellFormed) {content : List UInt8}
    (stands : node.at? place = some (file content)) :
    (node.remove place).filePlaces skipped =
      (node.filePlaces skipped).filter (· != place) := by
  induction place generalizing node with
  | nil => exact absurd rfl nonempty
  | cons name rest ih =>
      obtain ⟨entries, child, rfl, held, below⟩ := exists_of_at?_cons stands
      rw [WellFormed] at wellFormed
      cases rest with
      | nil =>
          cases below
          rw [remove, filePlaces, filePlaces]
          exact entryPlaces_filter_ne wellFormed held
      | cons next more =>
          have fewer := ih (by simp) (wellFormed.lookup held).2 below
          rw [remove, held]
          · dsimp only
            rw [filePlaces, filePlaces]
            exact entryPlaces_setEntry wellFormed held
              (isDirectory_remove _ child) fewer
          · simp

end Node

end ArchSurvey
