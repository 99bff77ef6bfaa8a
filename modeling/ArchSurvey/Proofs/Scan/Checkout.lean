import ArchSurvey.Proofs.Disk.Lookup
import ArchSurvey.Proofs.Scan.Index
import ArchSurvey.Scan.Context

/-!
# Checkouts

A project tree that stands somewhere on a disk.  Which of its files are listed,
and which of them match a pattern, is known by their places in the tree; where
the tree stands only makes their paths.
-/

namespace ArchSurvey

open ArchSurvey.Path (IsName ofPlace)

/-- A directory with a name that stands on a disk, and a path that leads there,
links followed. -/
structure Checkout (name : String) (entries : List (String × Node)) where
  disk : Disk
  path : String
  parent : List String
  proper : ∀ part ∈ parent ++ [name], IsName part
  stands : disk.tree.at? (parent ++ [name]) = some (.directory entries)
  leads : disk.place true path = .ok (parent ++ [name])

/-- What a scan is given besides the files of a project.  A deadline is told
the files by their paths below the root. -/
structure View where
  projectName : String
  excludes : List Glob := []
  settings : List (String × String) := []
  previous : List (String × ScanResult) := []
  deadline : Option (String → Bool) := none

namespace Listing

/-- The text of a place below a root. -/
def relativeText (place : List String) : String :=
  String.intercalate "/" place

/-- The text of a place ends with its last name. -/
theorem suffix_relativeText (front : List String) (name : String) :
    name.toList <:+ (relativeText (front ++ [name])).toList := by
  rw [relativeText]
  by_cases top : front = []
  · subst top
    simp only [List.nil_append, String.intercalate_singleton,
      List.suffix_refl]
  · rw [String.intercalate_append_of_ne_nil top (by simp),
      String.intercalate_singleton, String.toList_append]
    exact List.suffix_append _ _

/-- The places of the listed files of a project. -/
def places (excludes : List Glob) (entries : List (String × Node)) :
    List (List String) :=
  (((Node.directory entries).filePlaces skipped).mergeSort placeLe).filter
    fun place => !excludes.any fun glob => glob.matchesPath (relativeText place)

/-- The places of the listed files that match a pattern. -/
def placesMatching (excludes : List Glob) (entries : List (String × Node))
    (pattern : String) : Except ScanError (List (List String)) :=
  (Glob.ofText pattern).map fun glob =>
    (places excludes entries).filter fun place =>
      glob.matchesPath (relativeText place)

/-- The places that match some of the patterns, after those found before. -/
def placesMore (excludes : List Glob) (entries : List (String × Node))
    (found : List (List String)) :
    List String → Except ScanError (List (List String))
  | [] => .ok found
  | pattern :: rest =>
      match placesMatching excludes entries pattern with
      | .error error => .error error
      | .ok more => placesMore excludes entries (found ++ more).eraseDups rest

variable {excludes : List Glob} {entries : List (String × Node)}

/-- A listed place leads to a file of the project, under its root. -/
theorem file_of_mem_places
    (wellFormed : (Node.directory entries).WellFormed) {place : List String}
    (member : place ∈ places excludes entries) :
    place ≠ [] ∧ (∀ part ∈ place, IsName part) ∧
      ∃ content, (Node.directory entries).at? place = some (.file content) := by
  have listed : place ∈ (Node.directory entries).filePlaces skipped :=
    List.mem_mergeSort.mp (List.mem_filter.mp member).1
  obtain ⟨proper, content, found⟩ :=
    Node.at?_of_mem_filePlaces _ wellFormed listed
  refine ⟨?_, proper, content, found⟩
  rintro rfl
  cases found

theorem placesMatching_subset {pattern : String}
    {matched : List (List String)}
    (found : placesMatching excludes entries pattern = .ok matched) :
    matched ⊆ places excludes entries := by
  rw [placesMatching] at found
  cases read : Glob.ofText pattern with
  | error error =>
      rw [read] at found
      cases found
  | ok glob =>
      rw [read] at found
      cases found
      exact List.filter_sublist.subset

theorem placesMore_subset {patterns : List String}
    {found matched : List (List String)}
    (before : found ⊆ places excludes entries)
    (more : placesMore excludes entries found patterns = .ok matched) :
    matched ⊆ places excludes entries := by
  induction patterns generalizing found with
  | nil =>
      cases more
      exact before
  | cons pattern rest ih =>
      rw [placesMore] at more
      cases first : placesMatching excludes entries pattern with
      | error error =>
          rw [first] at more
          cases more
      | ok matching =>
          rw [first] at more
          refine ih ?_ more
          intro place member
          rcases List.mem_append.mp (List.mem_eraseDups.mp member) with
            earlier | new
          · exact before earlier
          · exact placesMatching_subset first new

end Listing

namespace Disk

/-- A directory stands on a disk, and a path spells out where. -/
structure HasDirectory (disk : Disk) (root : String) (place : List String)
    (entries : List (String × Node)) : Prop where
  spelled : root = ofPlace place
  proper : ∀ part ∈ place, IsName part
  stands : disk.tree.at? place = some (.directory entries)

namespace HasDirectory

variable {disk : Disk} {root : String} {place below : List String}
  {entries : List (String × Node)}
  (has : disk.HasDirectory root place entries)

include has

theorem canonical_of_place {path : String}
    (led : disk.place true path = .ok place) :
    disk.canonical path = .ok root := by
  rw [canonical, led, has.spelled]
  simp [bind, Except.bind, has.stands]
  rfl

theorem canonical_eq : disk.canonical root = .ok root := by
  apply has.canonical_of_place
  rw [has.spelled]
  exact place_ofPlace has.proper has.stands (by simp) true

theorem node_eq : disk.node root = .ok (.directory entries) := by
  rw [has.spelled]
  exact node_ofPlace has.proper has.stands (by simp)

theorem isDirectory_eq : disk.isDirectory root = true := by
  rw [Disk.isDirectory, has.node_eq]
  rfl

theorem absoluteRoot_eq : Context.absoluteRoot disk root = root := by
  rw [Context.absoluteRoot, has.canonical_eq]

theorem take_eq (excludes : List Glob) :
    Listing.take disk root excludes =
      .ok ((Listing.places excludes entries).map (Listing.entryAt root)) := by
  rw [Listing.take, has.node_eq]
  dsimp only
  rw [Listing.ofNode, List.filter_map]
  rfl

theorem path_entryAt (nonempty : below ≠ [])
    (proper : ∀ part ∈ below, IsName part) :
    (Listing.entryAt root below).path = ofPlace (place ++ below) := by
  rw [has.spelled]
  by_cases top : place = []
  · subst top
    have relative := Path.isAbsolute_intercalate proper
    change Path.join (ofPlace []) (String.intercalate "/" below) = _
    rw [Path.join, relative]
    rfl
  · exact Path.join_ofPlace top nonempty
      (List.forall_mem_append.mpr ⟨has.proper, proper⟩)

theorem at?_append (below : List String) :
    disk.tree.at? (place ++ below) = (Node.directory entries).at? below := by
  rw [Node.at?_append, has.stands]
  rfl

theorem read_eq (proper : ∀ part ∈ below, IsName part) {content : List UInt8}
    (stands : disk.tree.at? (place ++ below) = some (.file content)) :
    disk.read (ofPlace (place ++ below)) = .ok content :=
  read_ofPlace (List.forall_mem_append.mpr ⟨has.proper, proper⟩) stands

end HasDirectory

end Disk

namespace Context

/-- The files that a pattern finds below a root. -/
theorem findFiles_of_listing {context : Context} {root : String}
    {excludes : List Glob} {entries : List (String × Node)}
    (listed : context.listing = .ok ((Listing.places excludes entries).map
      (Listing.entryAt root)))
    {pattern : String} {glob : Glob} (read : Glob.ofText pattern = .ok glob) :
    context.findFiles pattern =
      .ok (((Listing.places excludes entries).filter fun below =>
          glob.matchesPath (Listing.relativeText below)).map fun below =>
        (Listing.entryAt root below).path) := by
  rw [findFiles_of_ok read, Context.entries, listed]
  change Except.ok (Listing.matching _ glob) = _
  rw [Listing.matching, List.filter_map, List.map_map]
  rfl

end Context

/-- Items that stay apart have the same repetitions as their images. -/
theorem eraseDups_map_of_injective {α β : Type} [BEq α] [LawfulBEq α] [BEq β]
    [LawfulBEq β] {f : α → β} {items : List α}
    (injective : ∀ a ∈ items, ∀ b ∈ items, f a = f b → a = b) :
    (items.map f).eraseDups = items.eraseDups.map f := by
  induction measured : items.length using Nat.strongRecOn generalizing items with
  | _ length ih =>
      cases items with
      | nil => rfl
      | cons a rest =>
          have apart : (rest.map f).filter (fun b => !b == f a) =
              (rest.filter fun b => !b == a).map f := by
            rw [List.filter_map]
            congr 1
            apply List.filter_congr
            intro b member
            have same : (f b == f a) = (b == a) := by
              rw [Bool.eq_iff_iff, beq_iff_eq, beq_iff_eq]
              exact ⟨injective b (List.mem_cons_of_mem _ member) a
                List.mem_cons_self, congrArg f⟩
            simp [same]
          have shorter : (rest.filter fun b => !b == a).length < length := by
            rw [← measured, List.length_cons]
            exact Nat.lt_succ_of_le (List.length_filter_le _ _)
          rw [List.map_cons, List.eraseDups_cons, List.eraseDups_cons, apart,
            List.map_cons, ih _ shorter ?_ rfl]
          intro b bMember c cMember
          exact injective b
            (List.mem_cons_of_mem _ (List.mem_filter.mp bMember).1) c
            (List.mem_cons_of_mem _ (List.mem_filter.mp cMember).1)

namespace Checkout

variable {name : String} {entries : List (String × Node)}

/-- The absolute path of the project. -/
def root (checkout : Checkout name entries) : String :=
  ofPlace (checkout.parent ++ [name])

/-- The absolute path of a place in the project. -/
def file (checkout : Checkout name entries) (place : List String) : String :=
  ofPlace (checkout.parent ++ name :: place)

/-- What scanners see of the project. -/
def context (checkout : Checkout name entries) (view : View) : Context :=
  { Context.ofRoot checkout.disk checkout.path view.excludes with
    projectName := view.projectName
    settings := view.settings
    previous := view.previous
    deadline := view.deadline.map fun passed file =>
      passed (Path.relativeTo checkout.root file) }

theorem file_eq (checkout : Checkout name entries) (place : List String) :
    checkout.file place = ofPlace ((checkout.parent ++ [name]) ++ place) := by
  rw [file, List.append_cons]

theorem proper_below (checkout : Checkout name entries) {place : List String}
    (proper : ∀ part ∈ place, IsName part) :
    ∀ part ∈ (checkout.parent ++ [name]) ++ place, IsName part := by
  intro part member
  rcases List.mem_append.mp member with above | below
  · exact checkout.proper part above
  · exact proper part below

theorem proper_file (checkout : Checkout name entries) {place : List String}
    (proper : ∀ part ∈ place, IsName part) :
    ∀ part ∈ checkout.parent ++ name :: place, IsName part := by
  rw [List.append_cons]
  exact checkout.proper_below proper

theorem hasDirectory (checkout : Checkout name entries) :
    checkout.disk.HasDirectory checkout.root (checkout.parent ++ [name])
      entries :=
  ⟨rfl, checkout.proper, checkout.stands⟩

theorem absoluteRoot_eq (checkout : Checkout name entries) :
    Context.absoluteRoot checkout.disk checkout.path = checkout.root := by
  rw [Context.absoluteRoot,
    checkout.hasDirectory.canonical_of_place checkout.leads]

theorem path_entryAt (checkout : Checkout name entries) {place : List String}
    (nonempty : place ≠ []) (proper : ∀ part ∈ place, IsName part) :
    (Listing.entryAt checkout.root place).path = checkout.file place := by
  rw [checkout.file_eq]
  exact checkout.hasDirectory.path_entryAt nonempty proper

/-- The bytes of a file do not depend on where the project stands. -/
theorem read_file (checkout : Checkout name entries) {place : List String}
    (proper : ∀ part ∈ place, IsName part) {content : List UInt8}
    (found : (Node.directory entries).at? place = some (.file content)) :
    checkout.disk.read (checkout.file place) = .ok content := by
  rw [checkout.file_eq]
  exact checkout.hasDirectory.read_eq proper
    ((checkout.hasDirectory.at?_append place).trans found)

theorem file_injective (checkout : Checkout name entries)
    {place other : List String} (proper : ∀ part ∈ place, IsName part)
    (properOther : ∀ part ∈ other, IsName part)
    (equal : checkout.file place = checkout.file other) : place = other := by
  have names := congrArg Path.names equal
  rw [file, file, Path.names_ofPlace (checkout.proper_file proper),
    Path.names_ofPlace (checkout.proper_file properOther)] at names
  exact (List.cons.inj (List.append_cancel_left names)).2

theorem isExpired_file (checkout : Checkout name entries) (view : View)
    {place : List String} (proper : ∀ part ∈ place, IsName part) :
    (checkout.context view).isExpired (checkout.file place) =
      (view.deadline.any fun passed =>
        passed (Listing.relativeText place)) := by
  have relative : Path.relativeTo checkout.root (checkout.file place) =
      Listing.relativeText place := by
    rw [checkout.file_eq, root,
      Path.relativeTo_ofPlace (checkout.proper_below proper)]
    rfl
  rw [Context.isExpired, context]
  cases view.deadline with
  | none => rfl
  | some passed =>
      simp only [Option.map_some, Option.any_some, relative]

theorem listing_context (checkout : Checkout name entries) (view : View) :
    (checkout.context view).listing =
      .ok ((Listing.places view.excludes entries).map
        (Listing.entryAt checkout.root)) := by
  change Listing.take checkout.disk
    (Context.absoluteRoot checkout.disk checkout.path) view.excludes = _
  rw [absoluteRoot_eq, checkout.hasDirectory.take_eq]

section

variable (checkout : Checkout name entries) (view : View)
  (wellFormed : (Node.directory entries).WellFormed)

include wellFormed

theorem findFiles_context (pattern : String) :
    (checkout.context view).findFiles pattern =
      (Listing.placesMatching view.excludes entries pattern).map
        fun places => places.map checkout.file := by
  rw [Listing.placesMatching]
  cases read : Glob.ofText pattern with
  | error error =>
      rw [Context.findFiles_of_error read]
      rfl
  | ok glob =>
      rw [Context.findFiles_of_listing (checkout.listing_context view) read]
      change _ = Except.ok _
      congr 1
      apply List.map_congr_left
      intro place member
      obtain ⟨nonempty, proper, -⟩ := Listing.file_of_mem_places wellFormed
        (List.mem_filter.mp member).1
      exact checkout.path_entryAt nonempty proper

theorem findMore_context {found : List (List String)}
    (before : found ⊆ Listing.places view.excludes entries)
    (patterns : List String) :
    (checkout.context view).findMore (found.map checkout.file) patterns =
      (Listing.placesMore view.excludes entries found patterns).map
        fun places => places.map checkout.file := by
  induction patterns generalizing found with
  | nil => rfl
  | cons pattern rest ih =>
      rw [Context.findMore, Listing.placesMore,
        checkout.findFiles_context view wellFormed]
      cases first : Listing.placesMatching view.excludes entries pattern with
      | error error => rfl
      | ok more =>
          have listed : found ++ more ⊆ Listing.places view.excludes entries :=
            List.append_subset.mpr
              ⟨before, Listing.placesMatching_subset first⟩
          have united : Listing.union (found.map checkout.file)
              (more.map checkout.file) =
                (found ++ more).eraseDups.map checkout.file := by
            rw [Listing.union, ← List.map_append]
            apply eraseDups_map_of_injective
            intro place member other otherMember
            exact checkout.file_injective
              (Listing.file_of_mem_places wellFormed (listed member)).2.1
              (Listing.file_of_mem_places wellFormed (listed otherMember)).2.1
          change (checkout.context view).findMore
            (Listing.union (found.map checkout.file)
              (more.map checkout.file)) rest = _
          rw [united]
          exact ih fun place member => listed (List.mem_eraseDups.mp member)

/-- Which files are found does not depend on where the project stands. -/
theorem findFilesAny_context (patterns : List String) :
    (checkout.context view).findFilesAny patterns =
      (Listing.placesMore view.excludes entries [] patterns).map
        fun places => places.map checkout.file :=
  checkout.findMore_context view wellFormed (List.nil_subset _) patterns

end

end Checkout

end ArchSurvey
