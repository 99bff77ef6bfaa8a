import ArchSurvey.Proofs.Disk.Writing

/-!
# What a disk keeps when something is added

Files that are written and directories that are made leave every directory where
it was.  Its files are listed as before, apart from the written ones, and the
others keep their contents.
-/

namespace ArchSurvey

namespace Node

variable {skipped : List String}

/-- The places of the files of an entry, as seen from the entry. -/
def placesIn (skipped : List String) (name : String) (child : Node) :
    List (List String) :=
  if child.isDirectory && skipped.contains name then []
  else child.filePlaces skipped

theorem entryPlaces_cons (name : String) (child : Node)
    (rest : List (String × Node)) :
    entryPlaces skipped ((name, child) :: rest) =
      (placesIn skipped name child).map (name :: ·) ++
        entryPlaces skipped rest := by
  rw [entryPlaces, placesIn]

theorem placesIn_of_not_directory {child : Node}
    (plain : child.isDirectory = false) (name : String) :
    placesIn skipped name child = child.filePlaces skipped := by
  rw [placesIn, plain]
  rfl

theorem IsLeaf.placesIn_eq {node : Node} (leaf : node.IsLeaf) (name : String) :
    placesIn skipped name node = node.filePlaces skipped := by
  cases leaf with
  | file content => exact placesIn_of_not_directory rfl name
  | emptyDirectory =>
      rw [placesIn, Node.emptyDirectory, filePlaces, entryPlaces]
      exact ite_self []

/-- The files of a directory in which one entry was set, as far as they do not
differ below that entry. -/
theorem filter_entryPlaces_setEntry {keeps : List String → Bool} {name : String}
    {node : Node} {entries : List (String × Node)}
    (same : (placesIn skipped name node).filter
        (fun below => keeps (name :: below)) =
      ((entries.lookup name).elim [] (placesIn skipped name)).filter
        fun below => keeps (name :: below)) :
    (entryPlaces skipped (setEntry name node entries)).filter keeps =
      (entryPlaces skipped entries).filter keeps := by
  have below (child : Node) (name : String) :
      ((placesIn skipped name child).map (name :: ·)).filter keeps =
        ((placesIn skipped name child).filter fun below =>
          keeps (name :: below)).map (name :: ·) := by
    rw [List.filter_map]
    rfl
  induction entries with
  | nil =>
      rw [setEntry, entryPlaces_cons, List.filter_append, below, same]
      rfl
  | cons entry rest ih =>
      obtain ⟨other, held⟩ := entry
      rw [setEntry]
      by_cases here : name = other
      · subst here
        rw [List.lookup_cons_self] at same
        rw [if_pos (beq_self_eq_true _), entryPlaces_cons, entryPlaces_cons,
          List.filter_append, List.filter_append, below, below, same]
        rfl
      · rw [List.lookup_cons, beq_eq_false_iff_ne.mpr here] at same
        rw [if_neg (by simpa using here), entryPlaces_cons, entryPlaces_cons,
          List.filter_append, List.filter_append, ih same]

/-- A node that is put at a place changes nothing of the list of files but
whether it has the place; an empty directory where nothing stood does not change
that either. -/
theorem filter_filePlaces_insert {place : List String} {tree node : Node}
    (takes : tree.Takes place) (leaf : node.IsLeaf)
    {keeps : List String → Bool}
    (seen : keeps place = true →
      node = emptyDirectory ∧ tree.at? place = none) :
    ((tree.insert place node).filePlaces skipped).filter keeps =
      (tree.filePlaces skipped).filter keeps := by
  induction place generalizing tree keeps with
  | nil =>
      have hidden : keeps [] = false := by
        rw [← Bool.not_eq_true]
        intro kept
        cases (seen kept).2
      have nothing : (tree.filePlaces skipped).filter keeps = [] := by
        cases tree with
        | file content => simp [filePlaces, hidden]
        | link target => simp [filePlaces]
        | directory entries => cases takes
      rw [nothing, insert]
      cases leaf with
      | file content => simp [filePlaces, hidden]
      | emptyDirectory => rfl
  | cons name rest ih =>
      obtain ⟨entries, rfl, child⟩ := takes
      rw [insert, filePlaces, filePlaces]
      apply filter_entryPlaces_setEntry
      cases held : entries.lookup name with
      | none =>
          -- The place is free, so it may only be seen if a directory is made.
          rw [held] at child
          dsimp only at child
          subst child
          rw [Option.getD_none, insert, leaf.placesIn_eq]
          cases leaf with
          | emptyDirectory => rfl
          | file content =>
              have hidden : keeps [name] = false := by
                rw [← Bool.not_eq_true]
                intro kept
                cases (seen kept).1
              simp [filePlaces, hidden]
      | some inner =>
          rw [held] at child
          have further : keeps (name :: rest) = true →
              node = emptyDirectory ∧ inner.at? rest = none := by
            intro kept
            obtain ⟨directory, free⟩ := seen kept
            rw [at?_cons, held] at free
            exact ⟨directory, free⟩
          have listed :=
            @ih inner child (fun below => keeps (name :: below)) further
          rw [Option.getD_some, Option.elim_some]
          cases rest with
          | nil =>
              rw [insert] at listed ⊢
              rw [leaf.placesIn_eq, placesIn_of_not_directory child]
              exact listed
          | cons next more =>
              obtain ⟨inside, rfl, -⟩ := child
              have kind : ((directory inside).insert (next :: more)
                  node).isDirectory = (directory inside).isDirectory := rfl
              rw [placesIn, placesIn, kind]
              split
              · rfl
              · exact listed

/-- A directory stays where it is when a node is put somewhere, and its files
are listed as before, as far as they are seen. -/
theorem exists_directory_insert {place root : List String} {tree node : Node}
    (takes : tree.Takes place) (leaf : node.IsLeaf)
    {entries : List (String × Node)}
    (stands : tree.at? root = some (directory entries))
    {keeps : List String → Bool}
    (seen : ∀ below, place = root ++ below → keeps below = true →
      node = emptyDirectory ∧ tree.at? place = none) :
    ∃ entries', (tree.insert place node).at? root = some (directory entries') ∧
      ∀ skipped, ((directory entries').filePlaces skipped).filter keeps =
        ((directory entries).filePlaces skipped).filter keeps := by
  induction root generalizing tree place with
  | nil =>
      cases stands
      cases place with
      | nil => cases takes
      | cons name rest =>
          exact ⟨_, rfl, fun _ =>
            filter_filePlaces_insert takes leaf (seen _ rfl)⟩
  | cons head tail ih =>
      obtain ⟨all, child, rfl, held, below⟩ := exists_of_at?_cons stands
      cases place with
      | nil => cases takes
      | cons name rest =>
          obtain ⟨_, same, inner⟩ := takes
          cases same
          rw [insert, at?_cons, lookup_setEntry]
          by_cases here : head = name
          · subst here
            rw [held] at inner
            rw [if_pos rfl, Option.bind_some, held, Option.getD_some]
            apply ih inner below
            rintro deeper rfl kept
            obtain ⟨directory, free⟩ := seen deeper rfl kept
            rw [at?_cons, held] at free
            exact ⟨directory, free⟩
          · rw [if_neg here, held]
            exact ⟨entries, below, fun _ => rfl⟩

end Node

namespace Disk

open Node (IsLeaf)

/-- A disk after files were written at some places, directories made where
nothing stood, or neither. -/
structure Adds (places : List (List String)) (disk next : Disk) : Prop where
  place_eq : ∀ {followLast path reached},
    disk.place followLast path = .ok reached →
      next.place followLast path = .ok reached
  file : ∀ {place content}, place ∉ places →
    disk.tree.at? place = some (.file content) →
      next.tree.at? place = some (.file content)
  directory : ∀ {root entries},
    disk.tree.at? root = some (.directory entries) →
      ∃ entries', next.tree.at? root = some (.directory entries') ∧
        ∀ (skipped : List String) (keeps : List String → Bool),
          (∀ below, root ++ below ∈ places → keeps below = false) →
            ((Node.directory entries').filePlaces skipped).filter keeps =
              ((Node.directory entries).filePlaces skipped).filter keeps

namespace Adds

variable {places others : List (List String)} {disk next final : Disk}

theorem refl (disk : Disk) : Adds [] disk disk :=
  ⟨id, fun _ stands => stands, fun stands => ⟨_, stands, fun _ _ _ => rfl⟩⟩

theorem trans (first : Adds places disk next) (second : Adds others next final) :
    Adds (places ++ others) disk final := by
  constructor
  · intro followLast path reached led
    exact second.place_eq (first.place_eq led)
  · intro place content apart stands
    rw [List.mem_append, not_or] at apart
    exact second.file apart.2 (first.file apart.1 stands)
  · intro root entries stands
    obtain ⟨between, standsNext, listedNext⟩ := first.directory stands
    obtain ⟨last, standsFinal, listedFinal⟩ := second.directory standsNext
    refine ⟨last, standsFinal, fun skipped keeps hidden => ?_⟩
    have before : ∀ below, root ++ below ∈ places → keeps below = false :=
      fun below member => hidden below (List.mem_append_left _ member)
    have after : ∀ below, root ++ below ∈ others → keeps below = false :=
      fun below member => hidden below (List.mem_append_right _ member)
    rw [listedFinal skipped keeps after, listedNext skipped keeps before]

end Adds

variable {disk next : Disk} {path : String} {place : List String}
  {content : List UInt8}

theorem Puts.adds {node : Node} (puts : Puts disk next place node)
    (leaf : node.IsLeaf) {places : List (List String)}
    (seen : place ∉ places →
      node = .emptyDirectory ∧ disk.tree.at? place = none) :
    Adds places disk next := by
  constructor
  · intro followLast path reached
    exact puts.place_eq leaf
  · intro other content apart stands
    have elsewhere : other ≠ place := by
      rintro rfl
      rw [(seen apart).2] at stands
      cases stands
    have kept : next.tree.standingAt other = some (.file content) := by
      rw [(puts.receives leaf).stands, if_neg elsewhere, Node.standingAt,
        stands]
      rfl
    obtain ⟨node, found, same⟩ := Option.map_eq_some_iff.mp kept
    cases node with
    | file held =>
        cases same
        exact found
    | directory entries => cases same
    | link target => cases same
  · intro root entries stands
    rw [puts.made]
    obtain ⟨entries', standsNext, -⟩ := @Node.exists_directory_insert _ _ _ _
      puts.takes leaf _ stands (fun _ => false) (by simp)
    refine ⟨entries', standsNext, fun skipped keeps hidden => ?_⟩
    have visible : ∀ below, place = root ++ below → keeps below = true →
        node = .emptyDirectory ∧ disk.tree.at? place = none := by
      rintro below rfl kept
      apply seen
      intro among
      rw [hidden below among] at kept
      cases kept
    obtain ⟨_, again, listed⟩ :=
      Node.exists_directory_insert puts.takes leaf stands visible
    cases standsNext.symm.trans again
    exact listed skipped

/-- A written file stands where its path leads. -/
theorem adds_of_write (written : disk.write path content = .ok next) :
    ∃ place, disk.place true path = .ok place ∧ Adds [place] disk next := by
  obtain ⟨place, led, puts⟩ := puts_of_write written
  refine ⟨place, led, puts.adds (.file content) ?_⟩
  intro apart
  exact absurd List.mem_cons_self apart

theorem adds_of_makeDirectory (made : disk.makeDirectory path = .ok next) :
    Adds [] disk next := by
  obtain ⟨place, free, puts⟩ := puts_of_makeDirectory made
  exact puts.adds .emptyDirectory fun _ => ⟨rfl, free⟩

/-- Directories are made, as far as they can be, and nothing else happens. -/
theorem adds_of_makeDirectoriesFrom (disk : Disk) (paths : List String) :
    Adds [] disk (disk.makeDirectoriesFrom paths).2 := by
  induction paths generalizing disk with
  | nil => exact .refl disk
  | cons path parents ih =>
      rw [makeDirectoriesFrom]
      cases made : disk.makeDirectory path with
      | ok next => exact adds_of_makeDirectory made
      | error fault =>
          cases fault with
          | notFound =>
              have above := ih disk
              dsimp only
              cases outcome : disk.makeDirectoriesFrom parents with
              | mk result start =>
                  rw [outcome] at above
                  cases result with
                  | error fault => exact above
                  | ok =>
                      dsimp only
                      cases again : start.makeDirectory path with
                      | error fault => exact above
                      | ok next => exact above.trans (adds_of_makeDirectory again)
          | «exists» => exact .refl disk
          | notDirectory => exact .refl disk
          | isDirectory => exact .refl disk
          | tooManyLinks => exact .refl disk
          | notText => exact .refl disk

theorem adds_of_makeDirectories (disk : Disk) (path : String) :
    Adds [] disk (disk.makeDirectories path).2 := by
  rw [makeDirectories]
  split
  · exact .refl disk
  · exact adds_of_makeDirectoriesFrom disk _

end Disk

end ArchSurvey
