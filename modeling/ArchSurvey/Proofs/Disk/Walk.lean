import ArchSurvey.Proofs.Disk.Additions
import ArchSurvey.Proofs.Disk.Removal

/-!
# Walks

A walk goes through a tree depth first, the entries of each directory by name.
It comes by the regular files that stand below no skipped directory, by each of
them once, and in the order in which places are sorted.
-/

namespace ArchSurvey

theorem placeLe_antisymm {a b : List String} (first : placeLe a b = true)
    (second : placeLe b a = true) : a = b := by
  induction a generalizing b with
  | nil =>
      cases b with
      | nil => rfl
      | cons y q => cases second
  | cons x p ih =>
      cases b with
      | nil => cases first
      | cons y q =>
          simp only [placeLe, Bool.or_eq_true, Bool.and_eq_true,
            decide_eq_true_eq, beq_iff_eq] at first second
          rcases first with less | ⟨rfl, below⟩
          · rcases second with more | ⟨rfl, -⟩
            · exact absurd more (String.lt_asymm less)
            · exact absurd less (String.lt_irrefl _)
          · rcases second with more | ⟨-, above⟩
            · exact absurd more (String.lt_irrefl _)
            · rw [ih below above]

/-- One place stands before another one. -/
def Before (a b : List String) : Prop :=
  placeLe a b = true ∧ a ≠ b

theorem before_cons_iff {name : String} {a b : List String} :
    Before (name :: a) (name :: b) ↔ Before a b := by
  simp [Before, placeLe]

theorem before_of_lt {x y : String} (less : x < y) (p q : List String) :
    Before (x :: p) (y :: q) := by
  refine ⟨by simp [placeLe, less], fun same => ?_⟩
  obtain ⟨rfl, -⟩ := List.cons.inj same
  exact String.lt_irrefl _ less

namespace Node

variable {skipped : List String}

mutual

/-- The places of the regular files that a walk comes by: in a directory it goes
through the entries by name, and through everything below an entry before the
next one. -/
def walk (skipped : List String) : Node → List (List String)
  | file _ => [[]]
  | link _ => []
  | directory entries =>
      ((visits skipped entries).mergeSort fun a b => a.1 ≤ b.1).flatMap
        fun visit => visit.2.map (visit.1 :: ·)

/-- What a walk comes by below each of some entries; a skipped directory is not
entered. -/
def visits (skipped : List String) :
    List (String × Node) → List (String × List (List String))
  | [] => []
  | (name, child) :: rest =>
      (name,
        if child.isDirectory && skipped.contains name then []
        else walk skipped child) :: visits skipped rest

end

theorem map_fst_visits (entries : List (String × Node)) :
    (visits skipped entries).map Prod.fst = entries.map Prod.fst := by
  induction entries with
  | nil => rfl
  | cons entry rest ih => rw [visits, List.map_cons, List.map_cons, ih]

/-! ## The files that a walk comes by -/

mutual

theorem walk_perm :
    ∀ node : Node, (node.walk skipped).Perm (node.filePlaces skipped)
  | file _ => by
      rw [walk, filePlaces]
  | link _ => by
      rw [walk, filePlaces]
  | directory entries => by
      rw [walk, filePlaces]
      exact ((List.mergeSort_perm _ _).flatMap_right _).trans
        (visits_perm entries)

theorem visits_perm : ∀ entries : List (String × Node),
    ((visits skipped entries).flatMap fun visit =>
      visit.2.map (visit.1 :: ·)).Perm (entryPlaces skipped entries)
  | [] => by
      rw [visits, entryPlaces]
      exact .nil
  | (name, child) :: rest => by
      rw [visits, List.flatMap_cons, entryPlaces]
      refine .append (.map _ ?_) (visits_perm rest)
      split
      · exact .nil
      · exact walk_perm child

end

theorem mem_entryPlaces_iff {entries : List (String × Node)}
    (wellFormed : EntriesWellFormed entries) {place : List String} :
    place ∈ entryPlaces skipped entries ↔
      ∃ name below child, place = name :: below ∧
        entries.lookup name = some child ∧
        below ∈ placesIn skipped name child := by
  induction entries with
  | nil => simp [entryPlaces]
  | cons entry rest ih =>
      obtain ⟨head, node⟩ := entry
      rw [EntriesWellFormed] at wellFormed
      obtain ⟨-, distinct, -, restFormed⟩ := wellFormed
      rw [entryPlaces_cons, List.mem_append, ih restFormed, List.mem_map]
      constructor
      · rintro (⟨below, inside, rfl⟩ | ⟨name, below, child, rfl, held, inside⟩)
        · exact ⟨head, below, node, rfl, List.lookup_cons_self, inside⟩
        · have apart : name ≠ head := by
            rintro rfl
            rw [Keyed.lookup_eq_none distinct] at held
            cases held
          refine ⟨name, below, child, rfl, ?_, inside⟩
          rw [List.lookup_cons, beq_eq_false_iff_ne.mpr apart]
          exact held
      · rintro ⟨name, below, child, rfl, held, inside⟩
        rw [List.lookup_cons] at held
        cases same : name == head with
        | true =>
            rw [same] at held
            obtain rfl := Option.some.inj held
            obtain rfl := eq_of_beq same
            exact .inl ⟨below, inside, rfl⟩
        | false =>
            rw [same] at held
            exact .inr ⟨name, below, child, rfl, held, inside⟩

theorem mem_placesIn_iff {name : String} {child : Node} {below : List String} :
    below ∈ placesIn skipped name child ↔
      below ∈ child.filePlaces skipped ∧
        (child.isDirectory = true → name ∉ skipped) := by
  rw [placesIn]
  cases child.isDirectory <;> simp [and_comm]

/-- Only what stands in a directory has a longer place. -/
theorem isDirectory_iff_of_at?_file {node : Node} {place : List String}
    {content : List UInt8} (stands : node.at? place = some (file content)) :
    node.isDirectory = true ↔ place ≠ [] := by
  cases place with
  | nil =>
      obtain rfl := Option.some.inj stands
      simp [isDirectory]
  | cons name rest =>
      obtain ⟨entries, -, rfl, -, -⟩ := exists_of_at?_cons stands
      simp [isDirectory]

/-- The listed places are those of the regular files below no skipped
directory.  The root itself is never skipped, and neither is a file. -/
theorem mem_filePlaces_iff {place : List String} {node : Node}
    (wellFormed : node.WellFormed) :
    place ∈ node.filePlaces skipped ↔
      (∃ content, node.at? place = some (file content)) ∧
        ∀ name ∈ place.dropLast, name ∉ skipped := by
  induction place generalizing node with
  | nil =>
      cases node with
      | file content => simp [filePlaces, at?]
      | link target => simp [filePlaces, at?]
      | directory entries =>
          rw [WellFormed] at wellFormed
          simp [filePlaces, at?, mem_entryPlaces_iff wellFormed]
  | cons name rest ih =>
      cases node with
      | file content => simp [filePlaces, at?, entry?]
      | link target => simp [filePlaces, at?, entry?]
      | directory entries =>
          rw [WellFormed] at wellFormed
          rw [filePlaces, mem_entryPlaces_iff wellFormed]
          have above : (∀ other ∈ (name :: rest).dropLast, other ∉ skipped) ↔
              (rest ≠ [] → name ∉ skipped) ∧
                ∀ other ∈ rest.dropLast, other ∉ skipped := by
            cases rest <;> simp
          constructor
          · rintro ⟨_, _, child, same, held, inside⟩
            obtain ⟨rfl, rfl⟩ := List.cons.inj same
            obtain ⟨listed, entered⟩ := mem_placesIn_iff.mp inside
            obtain ⟨⟨content, stands⟩, free⟩ :=
              (ih (wellFormed.lookup held).2).mp listed
            refine ⟨⟨content, ?_⟩, above.mpr ⟨fun longer => ?_, free⟩⟩
            · rw [at?, entry?, held]
              exact stands
            · exact entered ((isDirectory_iff_of_at?_file stands).mpr longer)
          · rintro ⟨⟨content, stands⟩, free⟩
            obtain ⟨_, child, same, held, stands⟩ := exists_of_at?_cons stands
            cases same
            obtain ⟨entered, free⟩ := above.mp free
            refine ⟨name, rest, child, rfl, held, mem_placesIn_iff.mpr ⟨?_, ?_⟩⟩
            · exact (ih (wellFormed.lookup held).2).mpr ⟨⟨content, stands⟩, free⟩
            · intro entersChild
              exact entered ((isDirectory_iff_of_at?_file stands).mp entersChild)

/-! ## The order of a walk -/

theorem pairwise_fst_mergeSort {α : Type} {named : List (String × α)}
    (distinct : (named.map Prod.fst).Nodup) :
    (named.mergeSort fun a b => a.1 ≤ b.1).Pairwise fun a b => a.1 < b.1 := by
  have sorted : (named.mergeSort fun a b => a.1 ≤ b.1).Pairwise
      fun a b => decide (a.1 ≤ b.1) = true := by
    refine List.pairwise_mergeSort (fun a b c first second => ?_)
      (fun a b => ?_) named
    · rw [decide_eq_true_eq] at first second ⊢
      exact String.le_trans first second
    · rw [Bool.or_eq_true, decide_eq_true_eq, decide_eq_true_eq]
      exact String.le_total a.1 b.1
  have apart : (named.mergeSort fun a b => a.1 ≤ b.1).Pairwise
      fun a b => a.1 ≠ b.1 := by
    rw [← List.pairwise_map (f := Prod.fst)]
    exact (((List.mergeSort_perm _ _).map _).nodup_iff).mpr distinct
  refine (sorted.and apart).imp fun {a b} both => ?_
  obtain ⟨le, ne⟩ := both
  rw [decide_eq_true_eq] at le
  exact String.not_le.mp fun ge => ne (String.le_antisymm le ge)

theorem EntriesWellFormed.nodup {entries : List (String × Node)}
    (wellFormed : EntriesWellFormed entries) :
    (entries.map Prod.fst).Nodup := by
  induction entries with
  | nil => exact .nil
  | cons entry rest ih =>
      rw [EntriesWellFormed] at wellFormed
      exact List.nodup_cons.mpr ⟨wellFormed.2.1, ih wellFormed.2.2.2⟩

mutual

theorem pairwise_walk : ∀ node : Node, node.WellFormed →
    (node.walk skipped).Pairwise Before
  | file _, _ => by
      rw [walk]
      exact List.pairwise_singleton _ _
  | link _, _ => by
      rw [walk]
      exact .nil
  | directory entries, wellFormed => by
      rw [WellFormed] at wellFormed
      rw [walk, List.pairwise_flatMap]
      constructor
      · intro visit member
        rw [List.pairwise_map]
        have inner := pairwise_visits entries wellFormed visit
          (List.mem_mergeSort.mp member)
        exact inner.imp before_cons_iff.mpr
      · have distinct : ((visits skipped entries).map Prod.fst).Nodup := by
          rw [map_fst_visits]
          exact wellFormed.nodup
        refine (pairwise_fst_mergeSort distinct).imp fun less => ?_
        intro place inFirst place' inSecond
        obtain ⟨below, -, rfl⟩ := List.mem_map.mp inFirst
        obtain ⟨below', -, rfl⟩ := List.mem_map.mp inSecond
        exact before_of_lt less below below'

theorem pairwise_visits : ∀ entries : List (String × Node),
    EntriesWellFormed entries →
    ∀ visit ∈ visits skipped entries, visit.2.Pairwise Before
  | [], _ => by
      rw [visits]
      simp
  | (name, child) :: rest, wellFormed => by
      rw [EntriesWellFormed] at wellFormed
      rw [visits, List.forall_mem_cons]
      refine ⟨?_, pairwise_visits rest wellFormed.2.2.2⟩
      dsimp only
      split
      · exact .nil
      · exact pairwise_walk child wellFormed.2.2.1

end

/-- Sorting the places of the files gives the walk. -/
theorem mergeSort_filePlaces {node : Node} (wellFormed : node.WellFormed) :
    (node.filePlaces skipped).mergeSort placeLe = node.walk skipped := by
  have walked : (node.walk skipped).Pairwise fun a b => placeLe a b = true :=
    (pairwise_walk node wellFormed).imp And.left
  exact List.Perm.eq_of_pairwise (fun _ _ _ _ => placeLe_antisymm)
    (List.pairwise_mergeSort placeLe_trans placeLe_total _) walked
    ((List.mergeSort_perm _ _).trans (walk_perm node).symm)

theorem nodup_walk {node : Node} (wellFormed : node.WellFormed) :
    (node.walk skipped).Nodup :=
  (pairwise_walk node wellFormed).imp And.right

end Node

end ArchSurvey
