import ArchSurvey.Proofs.Disk.Walk
import ArchSurvey.Proofs.Lists
import ArchSurvey.Proofs.Scan.Checkout
import Mathlib.Data.List.Nodup

/-!
# Discovering files

The index of a project has the files that a walk comes by, without the excluded
ones, each of them once.  A look-up of several patterns gives the files that
match the first one, then those of the others that match the second one, and so
on, so that a file that several patterns match is given where the first of them
stands.
-/

namespace ArchSurvey

open ArchSurvey.Path (IsName ofPlace)

namespace Listing

/-! ## Look-ups of several patterns -/

/-- The position of the first pattern that matches a file, or the number of
patterns if none does. -/
def firstMatch (patterns : List Glob) (entry : Entry) : Nat :=
  patterns.findIdx fun glob => glob.matchesPath entry.relative

/-- The files that match some of the patterns; each pattern takes its files from
those that the earlier ones leave. -/
def inTurn : List Glob → List Entry → List Entry
  | [], _ => []
  | glob :: rest, index =>
      (index.filter fun entry => glob.matchesPath entry.relative) ++
        inTurn rest (index.filter fun entry => !glob.matchesPath entry.relative)

/-- What a look-up of several patterns finds in an index. -/
structure Finds (patterns : List Glob) (index found : List Entry) : Prop where
  mem_iff : ∀ entry, entry ∈ found ↔
    entry ∈ index ∧ ∃ glob ∈ patterns, glob.matchesPath entry.relative = true
  nodup : (found.map Entry.path).Nodup
  inOrder : found.Pairwise fun a b =>
    firstMatch patterns a < firstMatch patterns b ∨
      firstMatch patterns a = firstMatch patterns b ∧
        index.idxOf a < index.idxOf b

theorem mem_inTurn_iff {patterns : List Glob} {index : List Entry}
    {entry : Entry} :
    entry ∈ inTurn patterns index ↔
      entry ∈ index ∧
        ∃ glob ∈ patterns, glob.matchesPath entry.relative = true := by
  induction patterns generalizing index with
  | nil => simp [inTurn]
  | cons glob rest ih =>
      rw [inTurn, List.mem_append, ih, List.mem_filter, List.mem_filter]
      cases here : glob.matchesPath entry.relative <;> simp [here]

theorem firstMatch_cons (glob : Glob) (rest : List Glob) (entry : Entry) :
    firstMatch (glob :: rest) entry =
      if glob.matchesPath entry.relative then 0
      else firstMatch rest entry + 1 := by
  rw [firstMatch, List.findIdx_cons, Bool.cond_eq_ite]
  rfl

/-- Files with the same first match stay in the order of the index. -/
theorem pairwise_inTurn {before : Entry → Entry → Prop} {patterns : List Glob}
    {index : List Entry} (ordered : index.Pairwise before) :
    (inTurn patterns index).Pairwise fun a b =>
      firstMatch patterns a < firstMatch patterns b ∨
        firstMatch patterns a = firstMatch patterns b ∧ before a b := by
  induction patterns generalizing index with
  | nil => exact .nil
  | cons glob rest ih =>
      have matched : ∀ entry ∈
          index.filter fun entry => glob.matchesPath entry.relative,
          firstMatch (glob :: rest) entry = 0 := by
        intro entry member
        rw [firstMatch_cons, if_pos (List.mem_filter.mp member).2]
      have left : ∀ entry ∈ inTurn rest
          (index.filter fun entry => !glob.matchesPath entry.relative),
          firstMatch (glob :: rest) entry = firstMatch rest entry + 1 := by
        intro entry member
        obtain ⟨-, unmatched⟩ := List.mem_filter.mp (mem_inTurn_iff.mp member).1
        rw [firstMatch_cons, if_neg (by simpa using unmatched)]
      rw [inTurn, List.pairwise_append]
      refine ⟨?_, ?_, fun a inFirst b inRest => ?_⟩
      · refine (ordered.filter _).imp_of_mem fun aMember bMember earlier => ?_
        rw [matched _ aMember, matched _ bMember]
        exact .inr ⟨rfl, earlier⟩
      · refine (ih (ordered.filter _)).imp_of_mem
          fun aMember bMember earlier => ?_
        rw [left _ aMember, left _ bMember]
        exact earlier.imp Nat.succ_lt_succ (And.imp_left (congrArg (· + 1)))
      · rw [matched a inFirst, left b inRest]
        exact .inl (Nat.zero_lt_succ _)

theorem pairwise_idxOf {index : List Entry} (distinct : index.Nodup) :
    index.Pairwise fun a b => index.idxOf a < index.idxOf b := by
  rw [List.pairwise_iff_getElem]
  intro i j hi hj less
  rw [distinct.idxOf_getElem, distinct.idxOf_getElem]
  exact less

theorem finds_inTurn {index : List Entry}
    (distinct : (index.map Entry.path).Nodup) (patterns : List Glob) :
    Finds patterns index (inTurn patterns index) where
  mem_iff := fun _ => mem_inTurn_iff
  nodup := by
    have apart : (inTurn patterns index).Nodup := by
      refine (pairwise_inTurn
        (pairwise_idxOf (List.Nodup.of_map _ distinct))).imp ?_
      rintro a _ earlier rfl
      omega
    refine apart.map_on fun a aMember b bMember => ?_
    exact List.inj_on_of_nodup_map distinct (mem_inTurn_iff.mp aMember).1
      (mem_inTurn_iff.mp bMember).1
  inOrder := pairwise_inTurn (pairwise_idxOf (List.Nodup.of_map _ distinct))

/-- What a look-up finds is known by the index. -/
theorem Finds.eq_inTurn {patterns : List Glob} {index found : List Entry}
    (finds : Finds patterns index found)
    (distinct : (index.map Entry.path).Nodup) :
    found = inTurn patterns index := by
  have inTurn_finds := finds_inTurn distinct patterns
  refine List.Perm.eq_of_pairwise (fun a b _ _ earlier later => ?_)
    finds.inOrder inTurn_finds.inOrder ?_
  · omega
  · rw [List.perm_ext_iff_of_nodup (.of_map _ finds.nodup)
      (.of_map _ inTurn_finds.nodup)]
    intro entry
    rw [finds.mem_iff, inTurn_finds.mem_iff]

/-- To files that were found those are added that were not. -/
theorem union_map_path {index found more : List Entry}
    (distinct : (index.map Entry.path).Nodup) (foundListed : found ⊆ index)
    (moreListed : more ⊆ index) (foundOnce : found.Nodup)
    (moreOnce : more.Nodup) :
    union (found.map Entry.path) (more.map Entry.path) =
      (found ++ more.filter (· ∉ found)).map Entry.path := by
  have injective : ∀ a ∈ found ++ more, ∀ b ∈ found ++ more,
      a.path = b.path → a = b := by
    intro a aMember b bMember
    exact List.inj_on_of_nodup_map distinct
      (List.append_subset.mpr ⟨foundListed, moreListed⟩ aMember)
      (List.append_subset.mpr ⟨foundListed, moreListed⟩ bMember)
  have new : more.removeAll found = more.filter (· ∉ found) := by
    rw [List.removeAll]
    congr 1
    funext entry
    simp
  rw [union, ← List.map_append, eraseDups_map_of_injective injective,
    List.eraseDups_append, eraseDups_of_nodup foundOnce, new,
    eraseDups_of_nodup (moreOnce.filter _)]

/-- The files that are left after a pattern has taken its own. -/
theorem filter_unfound (index found : List Entry) (matched : Entry → Bool) :
    (index.filter (· ∉ found ++ (index.filter (· ∉ found)).filter matched)) =
      (index.filter (· ∉ found)).filter fun entry => !matched entry := by
  refine Eq.trans (List.filter_congr fun entry member => ?_)
    List.filter_filter.symm
  by_cases before : entry ∈ found
  · simp [before]
  · cases here : matched entry <;> simp [before, member, here]

end Listing

namespace Context

/-- A look-up of several patterns adds, after the files found before, the others
that match. -/
theorem findMore_of_entries {context : Context} {index : List Entry}
    (listed : context.entries = .ok index)
    (distinct : (index.map Entry.path).Nodup) {texts : List String}
    {patterns : List Glob} (read : texts.mapM Glob.ofText = .ok patterns)
    {found : List Entry} (foundListed : found ⊆ index)
    (foundOnce : found.Nodup) :
    context.findMore (found.map Entry.path) texts =
      .ok ((found ++ Listing.inTurn patterns
        (index.filter (· ∉ found))).map Entry.path) := by
  induction texts generalizing patterns found with
  | nil =>
      obtain rfl : [] = patterns := Except.ok.inj read
      rw [findMore, Listing.inTurn, List.append_nil]
  | cons text rest ih =>
      obtain ⟨glob, others, here, later, rfl⟩ := mapM_cons_eq_ok_iff.mp read
      obtain ⟨more, taken⟩ : ∃ more, more =
          index.filter fun entry => glob.matchesPath entry.relative := ⟨_, rfl⟩
      have indexOnce : index.Nodup := List.Nodup.of_map _ distinct
      have moreListed : more ⊆ index := taken ▸ List.filter_sublist.subset
      have moreOnce : more.Nodup := taken ▸ indexOnce.filter _
      have looked : context.findFiles text = .ok (more.map Entry.path) := by
        rw [findFiles_of_ok here, listed, taken]
        rfl
      have united := Listing.union_map_path distinct foundListed moreListed
        foundOnce moreOnce
      have unitedListed : found ++ more.filter (· ∉ found) ⊆ index :=
        List.append_subset.mpr ⟨foundListed, fun entry member =>
          moreListed (List.mem_filter.mp member).1⟩
      have unitedOnce : (found ++ more.filter (· ∉ found)).Nodup := by
        refine foundOnce.append (moreOnce.filter _) fun entry before new => ?_
        exact of_decide_eq_true (List.mem_filter.mp new).2 before
      have new : more.filter (· ∉ found) =
          (index.filter (· ∉ found)).filter fun entry =>
            glob.matchesPath entry.relative := by
        rw [taken, List.filter_comm]
      rw [findMore, looked]
      change context.findMore (Listing.union _ _) rest = _
      rw [united, ih later unitedListed unitedOnce, new, Listing.filter_unfound,
        Listing.inTurn, List.append_assoc]

theorem findFilesAny_of_entries {context : Context} {index : List Entry}
    (listed : context.entries = .ok index)
    (distinct : (index.map Entry.path).Nodup) {texts : List String}
    {patterns : List Glob} (read : texts.mapM Glob.ofText = .ok patterns) :
    context.findFilesAny texts =
      .ok ((Listing.inTurn patterns index).map Entry.path) := by
  have found := findMore_of_entries listed distinct read
    (List.nil_subset index) .nil
  simp only [List.not_mem_nil, not_false_eq_true, decide_true,
    List.filter_true, List.nil_append] at found
  exact found

end Context

/-! ## The index of a project -/

namespace Listing

/-- The file at a place below a directory. -/
def fileAt (place below : List String) : Entry :=
  ⟨relativeText below, ofPlace (place ++ below)⟩

/-- A place below a directory that its index has: that of a regular file below
no skipped directory, which no pattern excludes. -/
structure IsIndexed (excludes : List Glob) (entries : List (String × Node))
    (below : List String) : Prop where
  isFile : ∃ content,
    (Node.directory entries).at? below = some (.file content)
  notBelowSkipped : ∀ name ∈ below.dropLast, name ∉ skipped
  notExcluded : ∀ glob ∈ excludes,
    glob.matchesPath (relativeText below) = false

/-- What the index of a directory holds. -/
structure Indexes (place : List String) (entries : List (String × Node))
    (excludes : List Glob) (index : List Entry) : Prop where
  walked : index =
    (((Node.directory entries).walk skipped).filter fun below =>
      !excludes.any fun glob => glob.matchesPath (relativeText below)).map
        (fileAt place)
  mem_iff : ∀ entry, entry ∈ index ↔
    ∃ below, IsIndexed excludes entries below ∧ entry = fileAt place below
  nodup : (index.map Entry.path).Nodup

section

variable {excludes : List Glob} {entries : List (String × Node)}
  (wellFormed : (Node.directory entries).WellFormed)

include wellFormed

theorem places_eq_walk :
    places excludes entries =
      ((Node.directory entries).walk skipped).filter fun below =>
        !excludes.any fun glob => glob.matchesPath (relativeText below) := by
  rw [places, Node.mergeSort_filePlaces wellFormed]

theorem mem_places_iff {below : List String} :
    below ∈ places excludes entries ↔ IsIndexed excludes entries below := by
  rw [places, List.mem_filter, List.mem_mergeSort,
    Node.mem_filePlaces_iff wellFormed, Bool.not_eq_true', List.any_eq_false]
  simp only [Bool.not_eq_true]
  exact ⟨fun ⟨⟨isFile, entered⟩, kept⟩ => ⟨isFile, entered, kept⟩,
    fun ⟨isFile, entered, kept⟩ => ⟨⟨isFile, entered⟩, kept⟩⟩

theorem indexes_places {disk : Disk} {root : String} {place : List String}
    (has : disk.HasDirectory root place entries) :
    Indexes place entries excludes
      ((places excludes entries).map (entryAt root)) := by
  have same : (places excludes entries).map (entryAt root) =
      (places excludes entries).map (fileAt place) := by
    apply List.map_congr_left
    intro below member
    obtain ⟨nonempty, proper, -⟩ := file_of_mem_places wellFormed member
    have path := has.path_entryAt nonempty proper
    rw [fileAt, ← path]
    rfl
  rw [same]
  refine ⟨by rw [places_eq_walk wellFormed], fun entry => ?_, ?_⟩
  · rw [List.mem_map]
    simp only [mem_places_iff wellFormed, eq_comm]
  · rw [List.map_map]
    have once : (places excludes entries).Nodup := by
      rw [places_eq_walk wellFormed]
      exact (Node.nodup_walk wellFormed).filter _
    refine once.map_on fun below member below' member' equal => ?_
    have proper := (file_of_mem_places wellFormed member).2.1
    have proper' := (file_of_mem_places wellFormed member').2.1
    have names := congrArg Path.names equal
    simp only [Function.comp_apply, fileAt] at names
    rw [Path.names_ofPlace (List.forall_mem_append.mpr ⟨has.proper, proper⟩),
      Path.names_ofPlace (List.forall_mem_append.mpr ⟨has.proper, proper'⟩)]
      at names
    exact List.append_cancel_left names

end

end Listing

/-- The index of a project holds every file that is to be indexed once, depth
first and by name, and a look-up of several patterns finds every indexed file
that matches one of them once, by the first matching pattern and then in the
order of the index.  An index that is shared and was asked before says the
same. -/
theorem Context.withExcludes_discovers {disk : Disk}
    (wellFormed : disk.tree.WellFormed) {path : String} {place : List String}
    {entries : List (String × Node)}
    (leads : disk.place true path = .ok place)
    (stands : disk.tree.at? place = some (.directory entries))
    {excluded : List String} {excludes : List Glob}
    (readable : excluded.mapM Glob.ofText = .ok excludes) :
    ∃ context index,
      Context.withExcludes disk path excluded = .ok context ∧
      context.root = ofPlace place ∧
      context.entries = .ok index ∧
      Listing.Indexes place entries excludes index ∧
      ∀ texts patterns, texts.mapM Glob.ofText = .ok patterns →
        ∃ found, context.findFilesAny texts = .ok (found.map Entry.path) ∧
          Listing.Finds patterns index found ∧
          ∀ shared : Index, shared.Sound → shared.root = context.root →
            shared.listingOn disk = context.listing →
            (shared.findFilesAny disk texts).1 =
              .ok (found.map Entry.path) := by
  have has : disk.HasDirectory (ofPlace place) place entries :=
    ⟨rfl, Node.proper_of_at? wellFormed stands, stands⟩
  have rooted : absoluteRoot disk path = ofPlace place := by
    rw [absoluteRoot, has.canonical_of_place leads]
  have listed : (ofRoot disk path excludes).listing =
      .ok ((Listing.places excludes entries).map
        (Listing.entryAt (ofPlace place))) := by
    change Listing.take disk (absoluteRoot disk path) excludes = _
    rw [rooted, has.take_eq]
  have indexed : Listing.Indexes place entries excludes _ :=
    Listing.indexes_places (wellFormed.at? stands) has
  have held : (ofRoot disk path excludes).entries =
      .ok ((Listing.places excludes entries).map
        (Listing.entryAt (ofPlace place))) := by
    rw [Context.entries, listed]
    rfl
  refine ⟨ofRoot disk path excludes, _, ?_, rooted, held, indexed, ?_⟩
  · rw [withExcludes, readable]
    rfl
  · intro texts patterns read
    have found := findFilesAny_of_entries held indexed.nodup read
    refine ⟨_, found, Listing.finds_inTurn indexed.nodup patterns, ?_⟩
    intro shared sound sameRoot sameListing
    obtain ⟨answer, -⟩ := Index.findMore_spec sound sameRoot.symm disk [] texts
    rw [sameListing] at answer
    exact answer.trans found

/-- A project with a root of a skipped name, a file of one, a skipped directory
and a generated one. -/
def unsorted : List (String × Node) :=
  [("venv", .file []), ("b", .directory [("x.go", .file [])]),
    (".git", .directory [("c.go", .file [])]),
    ("gen", .directory [("y.go", .file [])]), ("a.go", .file [])]

theorem wellFormed_unsorted : (Node.directory unsorted).WellFormed := by
  have names : ∀ name ∈ ["venv", "b", "x.go", ".git", "c.go", "gen", "y.go",
      "a.go"], IsName name := by decide
  simp only [List.forall_mem_cons] at names
  simp [unsorted, Node.WellFormed, Node.EntriesWellFormed, names]

theorem walk_unsorted :
    (Node.directory unsorted).walk Listing.skipped =
      [["a.go"], ["b", "x.go"], ["gen", "y.go"], ["venv"]] := by
  simp [unsorted, Node.walk, Node.visits, Node.isDirectory, Listing.skipped,
    List.mergeSort, List.MergeSort.Internal.splitInTwo]

/-- The project at the top of a disk. -/
def unsortedDisk : Disk :=
  { tree := .directory [("target", .directory unsorted)], current := [] }

theorem Context.withExcludes_discovers_unsorted :
    ∃ (context : Context) (index found : List Entry),
      Context.withExcludes unsortedDisk "/target" ["gen/**"] = .ok context ∧
      context.entries = .ok index ∧
      index.map Entry.relative = ["a.go", "b/x.go", "venv"] ∧
      context.findFilesAny ["b/*", "**/*.go"] = .ok (found.map Entry.path) ∧
      found.map Entry.path = ["/target/b/x.go", "/target/a.go"] := by
  have isName : IsName "target" := by decide
  have wellFormed : unsortedDisk.tree.WellFormed := by
    rw [unsortedDisk, Node.WellFormed, Node.EntriesWellFormed,
      Node.EntriesWellFormed]
    exact ⟨isName, by simp, wellFormed_unsorted, trivial⟩
  have stands : unsortedDisk.tree.at? ["target"] =
      some (.directory unsorted) := by
    simp [unsortedDisk, Node.at?, Node.entry?]
  have leads : unsortedDisk.place true "/target" = .ok ["target"] :=
    Disk.place_ofPlace (by simpa using isName) stands (by simp) true
  have readable : ["gen/**"].mapM Glob.ofText = .ok [⟨"gen/**",
      [.literal 'g', .literal 'e', .literal 'n', .everythingBelow]⟩] := rfl
  obtain ⟨context, index, made, -, held, indexes, finds⟩ :=
    Context.withExcludes_discovers wellFormed leads stands readable
  obtain ⟨found, answer, finds, -⟩ := finds ["b/*", "**/*.go"] _ rfl
  refine ⟨context, index, found, made, held, ?_, answer, ?_⟩
  · rw [indexes.walked, walk_unsorted]
    decide +kernel
  · rw [finds.eq_inTurn indexes.nodup, indexes.walked, walk_unsorted]
    decide +kernel

end ArchSurvey
