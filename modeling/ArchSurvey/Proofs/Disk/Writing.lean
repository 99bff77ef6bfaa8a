import ArchSurvey.Proofs.Disk.Removal

/-!
# Writing files and making directories

A written file stands where its path leads, and a directory where nothing stood
before.  Nothing else on the disk changes: every path that led somewhere leads
there still, and finds what it found before unless it leads to the file.
-/

namespace ArchSurvey

/-- What stands at a place, the entries of a directory aside. -/
inductive Standing where
  | directory
  | file (content : List UInt8)
  | link (target : String)

namespace Node

/-- What a node is, its entries aside. -/
def standing : Node → Standing
  | file content => .file content
  | directory _ => .directory
  | link target => .link target

/-- What stands at a place of a tree. -/
def standingAt (tree : Node) (place : List String) : Option Standing :=
  (tree.at? place).map standing

/-- A node can be put at a place: no directory stands there, and none has to be
made on the way. -/
def Takes : List String → Node → Prop
  | [], node => node.isDirectory = false
  | name :: rest, node => ∃ entries, node = directory entries ∧
      match entries.lookup name with
      | none => rest = []
      | some child => child.Takes rest

theorem at?_cons (name : String) (rest : List String)
    (entries : List (String × Node)) :
    (directory entries).at? (name :: rest) =
      (entries.lookup name).bind (at? rest) := by
  rw [at?, entry?]
  cases entries.lookup name <;> rfl

theorem standingAt_below {node : Node} (plain : node.isDirectory = false)
    {place : List String} (below : place ≠ []) :
    node.standingAt place = none := by
  cases place with
  | nil => exact absurd rfl below
  | cons name rest =>
      cases node with
      | file content => rfl
      | link target => rfl
      | directory entries => cases plain

/-- A node that can be put at a place: a file or an empty directory. -/
inductive IsLeaf : Node → Prop where
  | file (content : List UInt8) : IsLeaf (file content)
  | emptyDirectory : IsLeaf emptyDirectory

theorem IsLeaf.standingAt_below {node : Node} (leaf : node.IsLeaf)
    {place : List String} (below : place ≠ []) :
    node.standingAt place = none := by
  cases leaf with
  | file content => exact Node.standingAt_below rfl below
  | emptyDirectory =>
      cases place with
      | nil => exact absurd rfl below
      | cons name rest => rfl

theorem IsLeaf.noLink {node : Node} (leaf : node.IsLeaf) (target : String) :
    node.standing ≠ .link target := by
  cases leaf <;> simp [standing, Node.emptyDirectory]

/-- A node that is put at a place changes what stands there and nowhere else. -/
theorem standingAt_insert {place : List String} {tree node : Node}
    (takes : tree.Takes place) (leaf : node.IsLeaf) (other : List String) :
    (tree.insert place node).standingAt other =
      if other = place then some node.standing
      else tree.standingAt other := by
  induction place generalizing tree other with
  | nil =>
      by_cases here : other = []
      · subst here
        rfl
      · rw [if_neg here, insert, standingAt_below takes here,
          leaf.standingAt_below here]
  | cons name rest ih =>
      obtain ⟨entries, rfl, child⟩ := takes
      cases other with
      | nil => rfl
      | cons head tail =>
          rw [insert, standingAt, at?_cons, lookup_setEntry]
          by_cases same : head = name
          · subst same
            rw [if_pos rfl, Option.bind_some]
            simp only [List.cons.injEq, true_and]
            cases held : entries.lookup head with
            | none =>
                rw [held] at child
                dsimp only at child
                subst child
                rw [standingAt, at?_cons, held, insert]
                by_cases here : tail = []
                · subst here
                  rfl
                · rw [if_neg here]
                  exact leaf.standingAt_below here
            | some inner =>
                rw [held] at child
                rw [standingAt, at?_cons, held, Option.bind_some,
                  Option.getD_some]
                exact ih child tail
          · have apart : head :: tail ≠ name :: rest := by
              simp [same]
            rw [if_neg same, if_neg apart, standingAt, at?_cons]

theorem standingAt_append {tree node : Node} {place : List String}
    (stands : tree.at? place = some node) (name : String) :
    tree.standingAt (place ++ [name]) = (node.entry? name).map standing := by
  rw [standingAt, at?_append, stands, Option.bind_some, at?]
  cases node.entry? name <;> rfl

theorem isDirectory_iff {node : Node} :
    node.isDirectory = true ↔ node.standing = .directory := by
  cases node <;> simp [isDirectory, standing]

theorem standingAt_eq_directory_iff {tree : Node} {place : List String} :
    tree.standingAt place = some .directory ↔
      ∃ node, tree.at? place = some node ∧ node.isDirectory = true := by
  simp only [standingAt, Option.map_eq_some_iff, isDirectory_iff]

/-- What stands below a directory makes it one. -/
theorem directory_of_append {tree : Node} {place rest : List String}
    (nonempty : rest ≠ []) {standing : Standing}
    (stands : tree.standingAt (place ++ rest) = some standing) :
    tree.standingAt place = some .directory := by
  rw [standingAt, at?_append] at stands
  obtain ⟨found, stands, -⟩ := Option.map_eq_some_iff.mp stands
  obtain ⟨node, above, below⟩ := Option.bind_eq_some_iff.mp stands
  rw [standingAt_eq_directory_iff]
  refine ⟨node, above, ?_⟩
  cases rest with
  | nil => exact absurd rfl nonempty
  | cons name rest =>
      obtain ⟨entries, child, rfl, -⟩ := exists_of_at?_cons below
      rfl

theorem takes_append {tree : Node} {place : List String} {name : String}
    (above : tree.standingAt place = some .directory)
    (free : tree.standingAt (place ++ [name]) ≠ some .directory) :
    tree.Takes (place ++ [name]) := by
  induction place generalizing tree with
  | nil =>
      obtain ⟨node, same, directory⟩ := standingAt_eq_directory_iff.mp above
      cases same
      cases tree with
      | file content => cases directory
      | link target => cases directory
      | directory entries =>
          refine ⟨entries, rfl, ?_⟩
          rw [standingAt, List.nil_append, at?_cons] at free
          cases held : entries.lookup name with
          | none => rfl
          | some child =>
              rw [held] at free
              cases child with
              | file content => rfl
              | link target => rfl
              | directory inner => exact absurd rfl free
  | cons head rest ih =>
      obtain ⟨node, stands, directory⟩ := standingAt_eq_directory_iff.mp above
      obtain ⟨entries, child, rfl, held, below⟩ := exists_of_at?_cons stands
      refine ⟨entries, rfl, ?_⟩
      rw [held]
      apply ih (standingAt_eq_directory_iff.mpr ⟨node, below, directory⟩)
      rw [List.cons_append, standingAt, at?_cons, held] at free
      exact free

/-- No directory stands where a node can be put. -/
theorem noDirectory_of_takes {place : List String} {tree : Node}
    (takes : tree.Takes place) : tree.standingAt place ≠ some .directory := by
  induction place generalizing tree with
  | nil =>
      intro directory
      obtain ⟨node, same, isDirectory⟩ :=
        standingAt_eq_directory_iff.mp directory
      cases same
      rw [takes] at isDirectory
      cases isDirectory
  | cons name rest ih =>
      obtain ⟨entries, rfl, child⟩ := takes
      rw [standingAt, at?_cons]
      cases held : entries.lookup name with
      | none => simp
      | some inner =>
          rw [held] at child
          exact ih child

/-- A tree has one more file or directory than another, or a file with other
content. -/
structure Receives (tree next : Node) (place : List String)
    (held : Standing) : Prop where
  stands : ∀ other, next.standingAt other =
    if other = place then some held else tree.standingAt other
  plain : ∀ target, held ≠ .link target
  noDirectory : tree.standingAt place ≠ some .directory
  noLink : ∀ target, tree.standingAt place = some (.link target) → place = []

theorem Receives.directory {tree next : Node} {place other : List String}
    {held : Standing} (receives : Receives tree next place held)
    (above : tree.standingAt other = some .directory) :
    next.standingAt other = some .directory := by
  rw [receives.stands, if_neg, above]
  intro same
  exact receives.noDirectory (same ▸ above)

end Node

namespace Disk

open Node (Receives standingAt_append standingAt_eq_directory_iff)

section

variable {tree next : Node} {followLast : Bool}
  {follow follow' : List String → List String → Except Fault (List String)}
  {here rest reached place : List String} {name : String} {held : Standing}

theorem directory_of_walk
    (walked : walk tree followLast follow here (name :: rest) = .ok reached) :
    tree.standingAt here.reverse = some .directory := by
  rw [walk] at walked
  cases stands : tree.at? here.reverse with
  | none =>
      rw [stands] at walked
      cases walked
  | some node =>
      rw [stands] at walked
      rw [standingAt_eq_directory_iff]
      refine ⟨node, stands, ?_⟩
      cases directory : node.isDirectory with
      | true => rfl
      | false => simp [directory] at walked

/-- One step of a look-up, by what stands at the next place. -/
theorem walk_cons (above : tree.standingAt here.reverse = some .directory) :
    walk tree followLast follow here (name :: rest) =
      if name == "." then walk tree followLast follow here rest
      else if name == ".." then walk tree followLast follow (here.drop 1) rest
      else
        match tree.standingAt (name :: here).reverse with
        | some (.link target) =>
            if rest.isEmpty && !followLast then .ok (name :: here)
            else
              follow (if Path.isAbsolute target then [] else here)
                (Path.names target ++ rest)
        | some _ => walk tree followLast follow (name :: here) rest
        | none => if rest.isEmpty then .ok (name :: here) else .error .notFound := by
  obtain ⟨node, stands, directory⟩ := standingAt_eq_directory_iff.mp above
  rw [walk, stands, List.reverse_cons, standingAt_append stands]
  simp only [directory, Bool.not_true, Bool.false_eq_true, if_false]
  cases node.entry? name with
  | none => rfl
  | some child => cases child <;> rfl

/-- Where a path led before, it leads after a file was written or a directory
was made. -/
theorem walk_of_receives (receives : Receives tree next place held)
    (followed : ∀ start names reached, follow start names = .ok reached →
      follow' start names = .ok reached)
    {names : List String}
    (walked : walk tree followLast follow here names = .ok reached) :
    walk next followLast follow' here names = .ok reached := by
  induction names generalizing here with
  | nil => exact walked
  | cons name rest ih =>
      have above := directory_of_walk walked
      rw [walk_cons above] at walked
      rw [walk_cons (receives.directory above), receives.stands]
      split at walked
      · next dot =>
          rw [if_pos dot]
          exact ih walked
      · next notDot =>
          rw [if_neg notDot]
          split at walked
          · next up =>
              rw [if_pos up]
              exact ih walked
          · next notUp =>
              rw [if_neg notUp]
              by_cases here' : (name :: here).reverse = place
              · -- What is put there is not followed either.
                have further : walk next followLast follow' (name :: here)
                    rest = .ok reached := by
                  split at walked
                  · next target stands =>
                      have root := receives.noLink target (here' ▸ stands)
                      simp [root] at here'
                  · exact ih walked
                  · split at walked
                    · next last =>
                        rw [List.isEmpty_iff.mp last]
                        exact walked
                    · cases walked
                rw [if_pos here']
                cases plain : held with
                | file content => exact further
                | directory => exact further
                | link target => exact absurd plain (receives.plain target)
              · rw [if_neg here']
                split at walked
                · split at walked
                  · next last =>
                      rw [if_pos last]
                      exact walked
                  · next more =>
                      rw [if_neg more]
                      exact followed _ _ _ walked
                · exact ih walked
                · exact walked

theorem resolveFrom_of_receives (receives : Receives tree next place held)
    {links : Nat} {names : List String}
    (resolved : resolveFrom tree followLast links here names = .ok reached) :
    resolveFrom next followLast links here names = .ok reached := by
  induction links generalizing here names reached with
  | zero =>
      refine walk_of_receives receives ?_ resolved
      intro start names reached impossible
      cases impossible
  | succ links ih =>
      refine walk_of_receives receives ?_ resolved
      intro start names reached
      exact ih

/-- A look-up ends in a directory, and at no link if it follows the last one. -/
def Ends (tree : Node) (followLast : Bool) (here : List String) : Prop :=
  ∀ name above, here = name :: above →
    tree.standingAt above.reverse = some .directory ∧
      (followLast = true →
        ∀ target, tree.standingAt here.reverse ≠ some (.link target))

theorem ends_of_directory
    (directory : tree.standingAt here.reverse = some .directory) :
    Ends tree followLast here := by
  rintro name above rfl
  constructor
  · rw [List.reverse_cons] at directory
    exact Node.directory_of_append (by simp) directory
  · intro _ target link
    rw [directory] at link
    cases link

theorem ends_of_walk
    (followed : ∀ start names reached, Ends tree followLast start →
      follow start names = .ok reached → Ends tree followLast reached)
    {names : List String} (proper : names ≠ [] ∨ Ends tree followLast here)
    (walked : walk tree followLast follow here names = .ok reached) :
    Ends tree followLast reached := by
  induction names generalizing here with
  | nil =>
      cases walked
      exact proper.resolve_left fun nonempty => nonempty rfl
  | cons name rest ih =>
      have above := directory_of_walk walked
      rw [walk_cons above] at walked
      split at walked
      · exact ih (.inr (ends_of_directory above)) walked
      · split at walked
        · refine ih (.inr ?_) walked
          cases here with
          | nil => exact ends_of_directory above
          | cons last higher =>
              rw [List.reverse_cons] at above
              exact ends_of_directory
                (Node.directory_of_append (by simp) above)
        · split at walked
          · split at walked
            · next last =>
                cases walked
                rintro head tail same
                cases same
                refine ⟨above, fun follows => ?_⟩
                simp [follows] at last
            · refine followed _ _ _ ?_ walked
              split
              · intro name above impossible
                cases impossible
              · exact ends_of_directory above
          · next plain stands =>
              refine ih (.inr ?_) walked
              rintro head tail same
              cases same
              refine ⟨above, ?_⟩
              intro _ target link
              rw [stands] at link
              exact plain target (Option.some.inj link)
          · next free =>
              split at walked
              · cases walked
                rintro head tail same
                cases same
                refine ⟨above, ?_⟩
                intro _ target link
                rw [free] at link
                cases link
              · cases walked

theorem ends_of_resolveFrom {links : Nat} {names : List String}
    (proper : names ≠ [] ∨ Ends tree followLast here)
    (resolved : resolveFrom tree followLast links here names = .ok reached) :
    Ends tree followLast reached := by
  induction links generalizing here names reached with
  | zero =>
      refine ends_of_walk ?_ proper resolved
      intro start names reached _ impossible
      cases impossible
  | succ links ih =>
      refine ends_of_walk ?_ proper resolved
      intro start names reached ends
      exact ih (.inr ends)

end

variable {disk next : Disk} {path other : String} {content : List UInt8}
  {place reached : List String} {followLast : Bool} {node : Node}

/-- A name that is being read is not lost. -/
theorem exists_nonempty_of_splitFrom {p : Char → Bool} {piece : List Char}
    (begun : piece ≠ []) (text : List Char) :
    ∃ name ∈ Text.splitFrom p piece text, name ≠ [] := by
  induction text generalizing piece with
  | nil => exact ⟨piece.reverse, by simp [Text.splitFrom], by simpa using begun⟩
  | cons c rest ih =>
      rw [Text.splitFrom]
      split
      · exact ⟨piece.reverse, List.mem_cons_self, by simpa using begun⟩
      · exact ih (by simp)

theorem lookupNames_ne_nil (inhabited : path ≠ "")
    (relative : Path.isAbsolute path = false) :
    lookupNames followLast path ≠ [] := by
  have named : ((Text.splitOn '/' path.toList).map String.ofList).filter
      (· != "") ≠ [] := by
    cases spelled : path.toList with
    | nil => exact absurd (String.toList_eq_nil_iff.mp spelled) inhabited
    | cons c rest =>
        have noSlash : (c == '/') = false := by
          rw [Path.isAbsolute, spelled] at relative
          simpa using relative
        have begun : [c] ≠ [] := List.cons_ne_nil c []
        obtain ⟨name, member, nonempty⟩ :=
          exists_nonempty_of_splitFrom (p := (· == '/')) begun rest
        rw [Text.splitOn, Text.splitWhen, Text.splitFrom, noSlash,
          if_neg (by decide)]
        refine List.ne_nil_of_mem (List.mem_filter.mpr
          ⟨List.mem_map_of_mem member, ?_⟩)
        simpa using nonempty
  rw [lookupNames]
  split
  · simp
  · exact named

/-- A path leads to a place in a directory. -/
theorem ends_of_place (led : disk.place followLast path = .ok place) :
    Ends disk.tree followLast place.reverse := by
  rw [Disk.place] at led
  split at led
  · cases led
  · next inhabited =>
      obtain ⟨here, resolved, rfl⟩ : ∃ here,
          resolveFrom disk.tree followLast maxLinks
            (if Path.isAbsolute path then [] else disk.current.reverse)
            (lookupNames followLast path) = .ok here ∧
              here.reverse = place := by
        revert led
        dsimp only
        generalize resolveFrom _ _ _ _ _ = outcome
        intro led
        cases outcome with
        | error fault => cases led
        | ok here => exact ⟨here, rfl, Except.ok.inj led⟩
      rw [List.reverse_reverse]
      refine ends_of_resolveFrom ?_ resolved
      cases absolute : Path.isAbsolute path with
      | true =>
          right
          intro name above impossible
          cases impossible
      | false =>
          exact .inl (lookupNames_ne_nil (by simpa using inhabited) absolute)

/-- A node is put at a place of a disk. -/
structure Puts (disk next : Disk) (place : List String) (node : Node) :
    Prop where
  takes : disk.tree.Takes place
  noLink : ∀ target, disk.tree.standingAt place = some (.link target) →
    place = []
  made : next = { disk with tree := disk.tree.insert place node }

/-- A node can be put where a path leads, unless a directory stands there or a
link that is not followed. -/
theorem puts_of_place (led : disk.place followLast path = .ok place)
    (noDirectory : disk.tree.standingAt place ≠ some .directory)
    (plain : followLast = true ∨ disk.tree.standingAt place = none)
    (node : Node) :
    Puts disk { disk with tree := disk.tree.insert place node } place node := by
  have ends := ends_of_place led
  refine ⟨?_, ?_, rfl⟩
  · cases last : place.reverse with
    | nil =>
        obtain rfl : place = [] := by simpa using last
        cases root : disk.tree with
        | file held => rfl
        | link target => rfl
        | directory entries =>
            rw [root] at noDirectory
            exact absurd rfl noDirectory
    | cons name above =>
        obtain rfl : place = above.reverse ++ [name] := by
          simpa using congrArg List.reverse last
        exact Node.takes_append (ends name above last).1 noDirectory
  · intro target link
    cases last : place.reverse with
    | nil => simpa using last
    | cons name above =>
        rcases plain with follows | free
        · exact absurd (by simpa using link)
            ((ends name above last).2 follows target)
        · rw [free] at link
          cases link

theorem Puts.receives (puts : Puts disk next place node) (leaf : node.IsLeaf) :
    Receives disk.tree next.tree place node.standing := by
  obtain ⟨takes, noLink, rfl⟩ := puts
  refine ⟨Node.standingAt_insert takes leaf, leaf.noLink, ?_, noLink⟩
  exact Node.noDirectory_of_takes takes

/-- A successful write puts a file where the path leads. -/
theorem puts_of_write (written : disk.write path content = .ok next) :
    ∃ place, disk.place true path = .ok place ∧
      Puts disk next place (.file content) := by
  rw [write] at written
  cases led : disk.place true path with
  | error fault =>
      rw [led] at written
      cases written
  | ok place =>
      rw [led] at written
      have noDirectory : disk.tree.standingAt place ≠ some .directory := by
        intro directory
        obtain ⟨node, stands, isDirectory⟩ :=
          standingAt_eq_directory_iff.mp directory
        cases node with
        | file held => cases isDirectory
        | link target => cases isDirectory
        | directory entries =>
            simp [bind, Except.bind, stands] at written
      have made : next =
          { disk with tree := disk.tree.insert place (.file content) } := by
        dsimp only [bind, Except.bind] at written
        split at written
        · cases written
        · exact (Except.ok.inj written).symm
      subst made
      exact ⟨place, rfl, puts_of_place led noDirectory (.inl rfl) _⟩

/-- A directory that is made is put where nothing stood. -/
theorem puts_of_makeDirectory (done : disk.makeDirectory path = .ok next) :
    ∃ place, disk.tree.at? place = none ∧
      Puts disk next place .emptyDirectory := by
  rw [makeDirectory] at done
  cases led : disk.place false path with
  | error fault =>
      rw [led] at done
      cases done
  | ok place =>
      rw [led] at done
      dsimp only [bind, Except.bind] at done
      split at done
      · cases done
      · next free =>
          cases done
          have nothing : disk.tree.standingAt place = none := by
            rw [Node.standingAt, free]
            rfl
          exact ⟨place, free,
            puts_of_place led (by simp [nothing]) (.inr nothing) _⟩

/-- Where a path led before, it leads after a node was put somewhere. -/
theorem Puts.place_eq (puts : Puts disk next place node) (leaf : node.IsLeaf)
    (led : disk.place followLast other = .ok reached) :
    next.place followLast other = .ok reached := by
  have receives := puts.receives leaf
  have current : next.current = disk.current := by rw [puts.made]
  rw [Disk.place] at led ⊢
  split at led
  · cases led
  · next inhabited =>
      rw [if_neg inhabited, current]
      revert led
      dsimp only
      cases resolved : resolveFrom disk.tree followLast maxLinks
          (if Path.isAbsolute other then [] else disk.current.reverse)
          (lookupNames followLast other) with
      | error fault =>
          intro led
          cases led
      | ok here =>
          rw [resolveFrom_of_receives receives resolved]
          exact id

/-- Where a path led before, it leads after a file was written. -/
theorem place_of_write (written : disk.write path content = .ok next)
    (led : disk.place followLast other = .ok reached) :
    next.place followLast other = .ok reached := by
  obtain ⟨place, -, puts⟩ := puts_of_write written
  exact puts.place_eq (.file content) led

/-- What is read at a path, by what stands where it leads. -/
theorem read_eq (led : disk.place true path = .ok place) :
    disk.read path =
      match disk.tree.standingAt place with
      | some (.file content) => .ok content
      | some .directory => .error .isDirectory
      | some (.link _) => .error .tooManyLinks
      | none => .error .notFound := by
  rw [read, node, led, Node.standingAt]
  cases stands : disk.tree.at? place with
  | none => simp [bind, Except.bind, stands]
  | some node =>
      cases node <;> simp [bind, Except.bind, stands, Node.standing]

/-- What was written is read. -/
theorem read_of_write (written : disk.write path content = .ok next) :
    next.read path = .ok content := by
  obtain ⟨place, led, puts⟩ := puts_of_write written
  rw [read_eq (place_of_write written led),
    (puts.receives (.file content)).stands, if_pos rfl]
  rfl

/-- What is read elsewhere stays the same. -/
theorem read_of_write_apart (written : disk.write path content = .ok next)
    (led : disk.place true other = .ok reached)
    (apart : disk.place true path ≠ .ok reached) :
    next.read other = disk.read other := by
  obtain ⟨place, here, puts⟩ := puts_of_write written
  have different : reached ≠ place := fun same => apart (same ▸ here)
  rw [read_eq (place_of_write written led), read_eq led,
    (puts.receives (.file content)).stands, if_neg different]

end Disk

end ArchSurvey
