import ArchSurvey.Disk.Access
import ArchSurvey.Proofs.Disk.Path
import ArchSurvey.Proofs.Keyed

/-!
# Laws of look-ups

A path that spells out directories without links is looked up name by name, so
what is found depends only on what stands at the place.  The files of a
well-formed tree stand at the places that are listed for them.
-/

namespace ArchSurvey

open ArchSurvey.Path (IsName ofPlace)

namespace Node

theorem at?_append (first second : List String) (node : Node) :
    node.at? (first ++ second) =
      (node.at? first).bind fun inner => inner.at? second := by
  induction first generalizing node with
  | nil => rfl
  | cons name rest ih =>
      rw [List.cons_append, at?, at?]
      cases node.entry? name with
      | none => rfl
      | some child => exact ih child

mutual

/-- The names in a directory are names of entries, and each occurs once. -/
def WellFormed : Node → Prop
  | file _ => True
  | link _ => True
  | directory entries => EntriesWellFormed entries

/-- Entries with distinct names and well-formed nodes. -/
def EntriesWellFormed : List (String × Node) → Prop
  | [] => True
  | (name, child) :: rest =>
      IsName name ∧ name ∉ rest.map Prod.fst ∧ WellFormed child ∧
        EntriesWellFormed rest

end

mutual

/-- A listed place leads to a regular file. -/
theorem at?_of_mem_filePlaces {skipped place : List String} :
    ∀ node : Node, node.WellFormed → place ∈ node.filePlaces skipped →
      (∀ name ∈ place, IsName name) ∧
        ∃ content, node.at? place = some (file content)
  | file content, _, member => by
      rw [filePlaces, List.mem_singleton] at member
      subst member
      exact ⟨by simp, content, rfl⟩
  | link _, _, member => by
      rw [filePlaces] at member
      cases member
  | directory entries, wellFormed, member => by
      rw [WellFormed] at wellFormed
      rw [filePlaces] at member
      obtain ⟨name, below, child, rfl, proper, held, found⟩ :=
        lookup_of_mem_entryPlaces entries wellFormed member
      refine ⟨proper, ?_⟩
      rw [at?, entry?, held]
      exact found

/-- A place listed for some entries goes on below one of them. -/
theorem lookup_of_mem_entryPlaces {skipped place : List String} :
    ∀ entries : List (String × Node), EntriesWellFormed entries →
      place ∈ entryPlaces skipped entries →
      ∃ name below child, place = name :: below ∧
        (∀ part ∈ name :: below, IsName part) ∧
        entries.lookup name = some child ∧
        ∃ content, child.at? below = some (file content)
  | [], _, member => by
      rw [entryPlaces] at member
      cases member
  | (name, child) :: rest, wellFormed, member => by
      rw [EntriesWellFormed] at wellFormed
      obtain ⟨isName, distinct, childFormed, restFormed⟩ := wellFormed
      rw [entryPlaces] at member
      rcases List.mem_append.mp member with here | later
      · obtain ⟨below, inner, rfl⟩ := List.mem_map.mp here
        have listed : below ∈ child.filePlaces skipped := by
          split at inner
          · cases inner
          · exact inner
        obtain ⟨proper, found⟩ :=
          at?_of_mem_filePlaces child childFormed listed
        refine ⟨name, below, child, rfl, ?_, by simp, found⟩
        intro part among
        rcases List.mem_cons.mp among with rfl | inside
        · exact isName
        · exact proper part inside
      · obtain ⟨other, below, found, rfl, proper, held, content⟩ :=
          lookup_of_mem_entryPlaces rest restFormed later
        refine ⟨other, below, found, rfl, proper, ?_, content⟩
        have different : (other == name) = false := by
          have present : other ∈ rest.map Prod.fst := by
            apply Decidable.byContradiction
            intro absent
            rw [Keyed.lookup_eq_none absent] at held
            cases held
          have apart : other ≠ name := fun equal => distinct (equal ▸ present)
          simpa using apart
        rw [List.lookup_cons, different]
        exact held

end

end Node

namespace Disk

theorem lookupNames_ofPlace {place : List String} (followLast : Bool)
    (proper : ∀ name ∈ place, IsName name) :
    lookupNames followLast (ofPlace place) = place := by
  by_cases empty : place = []
  · subst empty
    rw [Path.ofPlace_nil]
    cases followLast <;> decide
  · have named : ("" :: place).filter (· != "") = place := by
      rw [List.filter_cons_of_neg (by simp)]
      apply List.filter_eq_self.mpr
      intro name member
      simp [(proper name member).notEmpty]
    have last : (("" :: place).getLast? == some "") = false := by
      rw [List.getLast?_cons, List.getLast?_eq_some_getLast empty,
        Option.getD_some]
      simp [(proper _ (List.getLast_mem empty)).notEmpty]
    rw [lookupNames]
    simp only [Path.splitOn_ofPlace empty proper, named, last, Bool.and_false,
      Bool.false_and, Bool.false_eq_true, if_false]

/-- Names that lead to a node are followed one by one. -/
theorem walk_eq_ok {tree found : Node} {followLast : Bool}
    {follow : List String → List String → Except Fault (List String)}
    {here pending : List String} (proper : ∀ name ∈ pending, IsName name)
    (leads : tree.at? (here.reverse ++ pending) = some found)
    (noLink : ∀ target, found ≠ .link target) :
    walk tree followLast follow here pending =
      .ok (pending.reverse ++ here) := by
  induction pending generalizing here with
  | nil => rfl
  | cons name rest ih =>
      have isName := proper name List.mem_cons_self
      have properRest : ∀ other ∈ rest, IsName other :=
        fun other member => proper other (List.mem_cons_of_mem _ member)
      have further : tree.at? ((name :: here).reverse ++ rest) = some found := by
        rw [List.reverse_cons, List.append_assoc]
        exact leads
      rw [Node.at?_append] at leads
      obtain ⟨node, stands, leads⟩ := Option.bind_eq_some_iff.mp leads
      rw [Node.at?] at leads
      cases held : node.entry? name with
      | none =>
          rw [held] at leads
          cases leads
      | some child =>
          rw [held] at leads
          have directory : node.isDirectory = true := by
            cases node with
            | directory entries => rfl
            | file content => cases held
            | link target => cases held
          have step : walk tree followLast follow here (name :: rest) =
              walk tree followLast follow (name :: here) rest := by
            rw [walk, stands]
            simp only [directory, Bool.not_true, Bool.false_eq_true, if_false,
              beq_iff_eq, isName.notHere, isName.notAbove]
            cases child with
            | link target =>
                exfalso
                cases rest with
                | nil => exact noLink target (Option.some.inj leads).symm
                | cons => cases leads
            | file content => rw [held]
            | directory entries => rw [held]
          rw [step, ih properRest further]
          simp

/-- A path that spells out a place without links leads to the place. -/
theorem place_ofPlace {disk : Disk} {place : List String} {found : Node}
    (proper : ∀ name ∈ place, IsName name)
    (stands : disk.tree.at? place = some found)
    (noLink : ∀ target, found ≠ .link target) (followLast : Bool) :
    disk.place followLast (ofPlace place) = .ok place := by
  have inhabited : (ofPlace place == "") = false := by
    rw [beq_eq_false_iff_ne]
    intro empty
    have absolute := Path.isAbsolute_ofPlace place
    rw [empty] at absolute
    exact absurd absolute (by decide)
  have resolved : resolveFrom disk.tree followLast maxLinks [] place =
      .ok (place.reverse ++ []) :=
    walk_eq_ok proper stands noLink
  rw [Disk.place, inhabited, Path.isAbsolute_ofPlace, if_pos rfl,
    lookupNames_ofPlace followLast proper, if_neg (by decide)]
  simp [resolved, Except.map]

theorem node_ofPlace {disk : Disk} {place : List String} {found : Node}
    (proper : ∀ name ∈ place, IsName name)
    (stands : disk.tree.at? place = some found)
    (noLink : ∀ target, found ≠ .link target) :
    disk.node (ofPlace place) = .ok found := by
  rw [Disk.node, place_ofPlace proper stands noLink]
  simp [bind, Except.bind, stands]

theorem read_ofPlace {disk : Disk} {place : List String} {content : List UInt8}
    (proper : ∀ name ∈ place, IsName name)
    (stands : disk.tree.at? place = some (.file content)) :
    disk.read (ofPlace place) = .ok content := by
  rw [Disk.read, node_ofPlace proper stands (by simp)]
  rfl

end Disk

end ArchSurvey
