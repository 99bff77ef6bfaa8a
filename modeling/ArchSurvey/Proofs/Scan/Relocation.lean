import ArchSurvey.Proofs.Scan.Checkout
import ArchSurvey.Scan.Scanner
import ArchSurvey.Scan.Tiers

/-!
# Moving a project

Two scans of one project that stands at two places.  An engine may hide all
files below some roots and otherwise sees of a path what lies below the root;
then two scans agree exactly if both roots are hidden or neither is, or if no
file is scanned at either place.
-/

/-!
## Laws of reading in tiers

Two readings are the same if they have the same data and counters; they may name
files differently in their errors.  Reading file by file preserves this, and a
reading that scans no file is empty.
-/

namespace ArchSurvey

/-- The numbers of files that were discovered, scanned, read by either tier and
read by none. -/
def Statistics.counters (s : Statistics) : List Nat :=
  [s.discovered, s.scanned, s.parsed, s.fallback, s.failed]

namespace Statistics

theorem counters_merge {s t other another : Statistics}
    (first : s.counters = t.counters)
    (second : other.counters = another.counters) :
    (s.merge other).counters = (t.merge another).counters := by
  simp only [counters, List.cons.injEq, and_true] at first second
  simp [counters, merge, combine, first, second]

theorem scanned_eq_of_counters {s t : Statistics}
    (same : s.counters = t.counters) : s.scanned = t.scanned := by
  simp only [counters, List.cons.injEq, and_true] at same
  exact same.2.1

theorem merge_empty (discovered : Nat) :
    ({ discovered } : Statistics).merge {} = { discovered } := by
  simp [merge, combine, addCounts]

/-- Parts of a total without scanned files have none. -/
theorem scanned_eq_zero_of_foldl_merge {α : Type}
    {parts : List (α × Statistics)} {total : Statistics}
    (unscanned :
      (parts.foldl (fun total part => total.merge part.2) total).scanned = 0) :
    total.scanned = 0 ∧ ∀ part ∈ parts, part.2.scanned = 0 := by
  induction parts generalizing total with
  | nil => exact ⟨unscanned, by simp⟩
  | cons part rest ih =>
      obtain ⟨merged, later⟩ := ih unscanned
      have both : total.scanned = 0 ∧ part.2.scanned = 0 :=
        Nat.add_eq_zero_iff.mp merged
      refine ⟨both.1, ?_⟩
      intro other member
      rcases List.mem_cons.mp member with rfl | further
      · exact both.2
      · exact later other further

end Statistics

@[simp]
theorem Attempt.getD_finished {α : Type} (value default : α) :
    (Attempt.finished value).getD default = value :=
  rfl

/-- Readings with the same data and counters. -/
structure SameReading {δ : Type} (a b : δ × Statistics) : Prop where
  data : a.1 = b.1
  counters : a.2.counters = b.2.counters

namespace TierEngine

variable {α : Type} {engine : TierEngine α}

/-- A refused file leaves no trace. -/
theorem parseFile_of_refused {file : String}
    (refused : (engine.accepts file).getD false = false) (disk : Disk)
    (stats : Statistics) :
    engine.parseFile disk file stats = (.skipped, [], stats) := by
  rw [parseFile, refused]
  rfl

theorem scanned_readText (file : String) (bytes : List UInt8)
    (stats : Statistics) :
    (engine.readText file bytes stats).2.2.scanned = stats.scanned := by
  rw [readText]
  cases engine.fallback file (Text.Utf8.decodeLossy bytes) with
  | panicked message => rfl
  | finished answer => cases answer <;> rfl

/-- An accepted file is counted, whatever becomes of it. -/
theorem scanned_parseFile_of_accepted {file : String}
    (accepted : (engine.accepts file).getD false = true) (disk : Disk)
    (stats : Statistics) :
    (engine.parseFile disk file stats).2.2.scanned = stats.scanned + 1 := by
  rw [parseFile, accepted]
  simp only [Bool.not_true, Bool.false_eq_true, if_false]
  cases disk.read file with
  | error fault => rfl
  | ok bytes =>
      dsimp only
      cases engine.structural? file bytes with
      | some data => rfl
      | none => exact scanned_readText file bytes _

/-- Files with one content, of which nothing but an error tells the names
apart, are read alike. -/
theorem sameReading_parseFile {disk other : Disk} {file renamed : String}
    {bytes : List UInt8}
    (accepts : (engine.accepts file).getD false =
      (engine.accepts renamed).getD false)
    (extract : ∀ occurrences,
      engine.extract file occurrences = engine.extract renamed occurrences)
    (fallback : ∀ text, engine.fallback file text = engine.fallback renamed text)
    (here : disk.read file = .ok bytes) (there : other.read renamed = .ok bytes)
    (stats : Statistics) :
    SameReading (engine.parseFile disk file stats).2
      (engine.parseFile other renamed stats).2 := by
  have structural : engine.structural? file bytes =
      engine.structural? renamed bytes := by
    rw [structural?, structural?]
    simp only [extract]
  rw [parseFile, parseFile, accepts, here, there]
  split
  · exact ⟨rfl, rfl⟩
  · dsimp only
    rw [structural]
    cases engine.structural? renamed bytes with
    | some data => exact ⟨rfl, rfl⟩
    | none =>
        dsimp only
        rw [readText, readText, fallback]
        cases engine.fallback renamed (Text.Utf8.decodeLossy bytes) with
        | panicked message => exact ⟨rfl, rfl⟩
        | finished answer => cases answer <;> exact ⟨rfl, rfl⟩

/-- What workers make of files is the same if it is file by file. -/
theorem sameReading_merge {κ : Type} {keys : List κ}
    {read reread : κ → Option (List α × Statistics)}
    (each : ∀ key ∈ keys, Option.Rel SameReading (read key) (reread key))
    {total other : Statistics} (totals : total.counters = other.counters) :
    SameReading
      ((keys.filterMap read).flatMap Prod.fst,
        (keys.filterMap read).foldl (fun total part => total.merge part.2) total)
      ((keys.filterMap reread).flatMap Prod.fst,
        (keys.filterMap reread).foldl (fun total part => total.merge part.2)
          other) := by
  induction keys generalizing total other with
  | nil => exact ⟨rfl, totals⟩
  | cons key rest ih =>
      have here := each key List.mem_cons_self
      have later : ∀ key ∈ rest, Option.Rel SameReading (read key) (reread key) :=
        fun key member => each key (List.mem_cons_of_mem _ member)
      rw [List.filterMap_cons, List.filterMap_cons]
      cases first : read key with
      | none =>
          cases second : reread key with
          | none => exact ih later totals
          | some part =>
              rw [first, second] at here
              cases here
      | some part =>
          cases second : reread key with
          | none =>
              rw [first, second] at here
              cases here
          | some twin =>
              rw [first, second] at here
              cases here with
              | some same =>
                  obtain ⟨data, counters⟩ := ih later
                    (Statistics.counters_merge totals same.counters)
                  refine ⟨?_, counters⟩
                  dsimp only at data ⊢
                  rw [List.flatMap_cons, List.flatMap_cons, same.data, data]

/-- A reading in which no worker finds anything. -/
theorem parseFiles_of_blank {context : Context} {files : List String}
    (blank : ∀ file ∈ files, ∀ part,
      engine.parseAlone context file = some part → part = ([], {})) :
    engine.parseFiles context files = ([], { discovered := files.length }) := by
  have parts : ∀ part ∈ files.filterMap (engine.parseAlone context),
      part = ([], {}) := by
    intro part member
    obtain ⟨file, among, read⟩ := List.mem_filterMap.mp member
    exact blank file among part read
  rw [parseFiles]
  generalize files.filterMap (engine.parseAlone context) = read at parts
  induction read with
  | nil => rfl
  | cons part rest ih =>
      have here := parts part List.mem_cons_self
      subst here
      rw [List.flatMap_cons, List.foldl_cons, Statistics.merge_empty]
      exact ih fun other member => parts other (List.mem_cons_of_mem _ member)

theorem parseAlone_of_refused {context : Context} {file : String}
    (refused : (engine.accepts file).getD false = false)
    {part : List α × Statistics}
    (read : engine.parseAlone context file = some part) : part = ([], {}) := by
  rw [parseAlone] at read
  split at read
  · cases read
  · rw [parseFile_of_refused refused] at read
    exact (Option.some.inj read).symm

/-- Where every file is refused, nothing is read. -/
theorem parseFiles_of_refused {context : Context} {files : List String}
    (refused : ∀ file ∈ files, (engine.accepts file).getD false = false) :
    engine.parseFiles context files = ([], { discovered := files.length }) :=
  parseFiles_of_blank fun file member _ read =>
    parseAlone_of_refused (refused file member) read

/-- A reading that scans no file is empty. -/
theorem parseFiles_of_scanned_eq_zero {context : Context} {files : List String}
    (unread : (engine.parseFiles context files).2.scanned = 0) :
    engine.parseFiles context files = ([], { discovered := files.length }) := by
  apply parseFiles_of_blank
  intro file member part read
  rw [parseFiles] at unread
  dsimp only at unread
  have uncounted : part.2.scanned = 0 :=
    (Statistics.scanned_eq_zero_of_foldl_merge unread).2 part
      (List.mem_filterMap.mpr ⟨file, member, read⟩)
  cases answer : (engine.accepts file).getD false with
  | false => exact parseAlone_of_refused answer read
  | true =>
      exfalso
      rw [parseAlone] at read
      split at read
      · cases read
      · have counted :=
          scanned_parseFile_of_accepted answer context.disk {}
        rw [← Option.some.inj read] at uncounted
        exact absurd (counted.symm.trans uncounted) (by simp)

/-- Before the deadline, the scanned files are the accepted ones. -/
theorem scanned_parseFiles {context : Context} {files : List String}
    (early : ∀ file ∈ files, context.isExpired file = false) :
    (engine.parseFiles context files).2.scanned =
      files.countP fun file => (engine.accepts file).getD false := by
  have alone : ∀ file ∈ files, ∃ part,
      engine.parseAlone context file = some part ∧
        part.2.scanned = if (engine.accepts file).getD false then 1 else 0 := by
    intro file member
    refine ⟨(engine.parseFile context.disk file {}).2, ?_, ?_⟩
    · rw [parseAlone, early file member, if_neg (by decide)]
    · split
      · next accepted =>
          exact scanned_parseFile_of_accepted accepted context.disk {}
      · next refused =>
          rw [parseFile_of_refused (Bool.eq_false_iff.mpr refused)]
  have counted (total : Statistics) :
      ((files.filterMap (engine.parseAlone context)).foldl
        (fun total part => total.merge part.2) total).scanned =
        total.scanned +
          files.countP fun file => (engine.accepts file).getD false := by
    clear early
    induction files generalizing total with
    | nil => rfl
    | cons file rest ih =>
        obtain ⟨part, read, scanned⟩ := alone file List.mem_cons_self
        have merged : (total.merge part.2).scanned =
            total.scanned + part.2.scanned := rfl
        rw [List.filterMap_cons_some read, List.foldl_cons, List.countP_cons,
          ih fun other member => alone other (List.mem_cons_of_mem _ member),
          merged, scanned]
        omega
  exact (counted _).trans (Nat.zero_add _)

end TierEngine

end ArchSurvey

/-!
## Scans at two places
-/

namespace ArchSurvey

open ArchSurvey.Path (LooksBelow SplitsAtRoot ofPlace)

/-- Results with the same findings and the same counters. -/
structure ScanResult.Agrees (a b : ScanResult) : Prop where
  findings : a.findings = b.findings
  counters : a.statistics.counters = b.statistics.counters

/-- A reading below a root: it scans nothing if the root is hidden, and where
it scans nothing it comes to the blank reading. -/
structure ReadsBelow {δ : Type} (hidden : Bool) (blank reading : δ × Statistics) :
    Prop where
  unscanned : hidden = true → reading.2.scanned = 0
  blank_of_unscanned : reading.2.scanned = 0 → reading = blank

/-- Two readings together, which have discovered some number of files. -/
def bothReadings {δ ε : Type} (discovered : Nat) (first : δ × Statistics)
    (second : ε × Statistics) : (δ × ε) × Statistics :=
  ((first.1, second.1), { first.2.merge second.2 with discovered })

theorem SameReading.both {δ ε : Type} {a b : δ × Statistics}
    {c d : ε × Statistics} (first : SameReading a b) (second : SameReading c d)
    (discovered : Nat) :
    SameReading (bothReadings discovered a c) (bothReadings discovered b d) := by
  have merged := Statistics.counters_merge first.counters second.counters
  constructor
  · exact Prod.ext first.data second.data
  · simp only [Statistics.counters, List.cons.injEq, and_true] at merged
    simp [Statistics.counters, bothReadings, merged]

theorem ReadsBelow.both {δ ε : Type} {hidden : Bool}
    {blank reading : δ × Statistics} {otherBlank other : ε × Statistics}
    (first : ReadsBelow hidden blank reading)
    (second : ReadsBelow hidden otherBlank other) (discovered : Nat) :
    ReadsBelow hidden (bothReadings discovered blank otherBlank)
      (bothReadings discovered reading other) := by
  have scanned : (bothReadings discovered reading other).2.scanned =
      reading.2.scanned + other.2.scanned := rfl
  constructor
  · intro isHidden
    rw [scanned, first.unscanned isHidden, second.unscanned isHidden]
  · intro unscanned
    rw [scanned] at unscanned
    obtain ⟨none, noneOther⟩ := Nat.add_eq_zero_iff.mp unscanned
    rw [first.blank_of_unscanned none, second.blank_of_unscanned noneOther]

/-- Readings at two places that are the same unless just one root is hidden
lead to results that agree exactly then or if neither scans anything. -/
theorem agrees_finish_iff {δ : Type} {hiddenHere hiddenThere : Bool}
    {blank here there : δ × Statistics}
    (below : ReadsBelow hiddenHere blank here)
    (belowThere : ReadsBelow hiddenThere blank there)
    (alike : hiddenHere = hiddenThere → SameReading here there)
    (scanner : String) (conclude : δ → Findings) :
    (Sweep.finish scanner (conclude here.1) here.2).Agrees
        (Sweep.finish scanner (conclude there.1) there.2) ↔
      hiddenHere = hiddenThere ∨
        here.2.scanned = 0 ∧ there.2.scanned = 0 := by
  constructor
  · intro agrees
    have scanned : here.2.scanned = there.2.scanned :=
      Statistics.scanned_eq_of_counters agrees.counters
    cases hiddenHere with
    | true =>
        have unscanned := below.unscanned rfl
        exact Or.inr ⟨unscanned, scanned.symm.trans unscanned⟩
    | false =>
        cases hiddenThere with
        | true =>
            have unscanned := belowThere.unscanned rfl
            exact Or.inr ⟨scanned.trans unscanned, unscanned⟩
        | false => exact Or.inl rfl
  · rintro (equal | ⟨unscanned, unscannedThere⟩)
    · obtain ⟨data, counters⟩ := alike equal
      exact ⟨congrArg conclude data, counters⟩
    · rw [below.blank_of_unscanned unscanned,
        belowThere.blank_of_unscanned unscannedThere]
      exact ⟨rfl, rfl⟩

/-- An engine that hides all files below some roots, and for the rest looks at
paths only from the root on. -/
structure TierEngine.SeesBelow {α : Type} (engine : TierEngine α)
    (hides : String → Bool) : Prop where
  refuses : SplitsAtRoot (fun path => !(engine.accepts path).getD false) hides
  extract : LooksBelow engine.extract
  fallback : LooksBelow engine.fallback

namespace TierEngine.SeesBelow

variable {α : Type} {engine : TierEngine α} {hides : String → Bool}
  {name : String} {entries : List (String × Node)}
  {places : List (List String)}

/-- Files of a project are read alike where both roots are hidden or neither. -/
theorem sameReading_parseFiles (sees : engine.SeesBelow hides)
    (wellFormed : (Node.directory entries).WellFormed)
    (here there : Checkout name entries) (view : View)
    (listed : places ⊆ Listing.places view.excludes entries)
    (alike : hides here.root = hides there.root) :
    SameReading
      (engine.parseFiles (here.context view) (places.map here.file))
      (engine.parseFiles (there.context view) (places.map there.file)) := by
  rw [parseFiles, parseFiles, List.filterMap_map, List.filterMap_map]
  apply sameReading_merge
  · intro place member
    obtain ⟨nonempty, proper, content, found⟩ :=
      Listing.file_of_mem_places wellFormed (listed member)
    have properHere := here.proper_file proper
    have properThere := there.proper_file proper
    dsimp only [Function.comp_apply]
    rw [parseAlone, parseAlone, here.isExpired_file view proper,
      there.isExpired_file view proper]
    split
    · exact .none
    · apply Option.Rel.some
      apply sameReading_parseFile _ _ _ (here.read_file proper found)
        (there.read_file proper found)
      · have refusedHere := sees.refuses _ _ _ nonempty properHere
        have refusedThere := sees.refuses _ _ _ nonempty properThere
        apply Bool.not_inj
        calc
          (!(engine.accepts (here.file place)).getD false)
            = (hides here.root || !(engine.accepts
                (ofPlace (name :: place))).getD false) := refusedHere
          _ = (hides there.root || !(engine.accepts
                (ofPlace (name :: place))).getD false) := by rw [alike]
          _ = !(engine.accepts (there.file place)).getD false :=
              refusedThere.symm
      · intro occurrences
        rw [Checkout.file, Checkout.file,
          sees.extract _ _ _ nonempty properHere,
          sees.extract _ _ _ nonempty properThere]
      · intro text
        rw [Checkout.file, Checkout.file,
          sees.fallback _ _ _ nonempty properHere,
          sees.fallback _ _ _ nonempty properThere]
  · simp [Statistics.counters]

theorem readsBelow_parseFiles (sees : engine.SeesBelow hides)
    (wellFormed : (Node.directory entries).WellFormed)
    (checkout : Checkout name entries) (view : View)
    (listed : places ⊆ Listing.places view.excludes entries) :
    ReadsBelow (hides checkout.root) ([], { discovered := places.length })
      (engine.parseFiles (checkout.context view) (places.map checkout.file)) := by
  constructor
  · intro hidden
    rw [parseFiles_of_refused]
    intro file member
    obtain ⟨place, among, rfl⟩ := List.mem_map.mp member
    obtain ⟨nonempty, proper, -⟩ :=
      Listing.file_of_mem_places wellFormed (listed among)
    have refused := sees.refuses checkout.parent name place nonempty
      (checkout.proper_file proper)
    change _ = (hides checkout.root || _) at refused
    rw [hidden, Bool.true_or, Bool.not_eq_true'] at refused
    exact refused
  · intro unscanned
    rw [parseFiles_of_scanned_eq_zero unscanned, List.length_map]

end TierEngine.SeesBelow

/-- A scanner whose findings and counters depend on where a project stands just
as far as its root is hidden. -/
def Scanner.MovesWith (scanner : Scanner) (hides : String → Bool) : Prop :=
  ∀ (name : String) (entries : List (String × Node)),
    (Node.directory entries).WellFormed →
    ∀ (here there : Checkout name entries) (view : View), ∃ a b,
      scanner.scan (here.context view) = .finished a ∧
      scanner.scan (there.context view) = .finished b ∧
      (a.Agrees b ↔ hides here.root = hides there.root ∨
        a.statistics.scanned = 0 ∧ b.statistics.scanned = 0)

/-- A scan that fails in the same way everywhere moves with anything. -/
theorem agrees_failed_iff (scanner : String) (error : ScanError)
    {hiddenHere hiddenThere : Bool} :
    (ScanResult.ofOutcome scanner (.error error)).Agrees
        (.ofOutcome scanner (.error error)) ↔
      hiddenHere = hiddenThere ∨
        (ScanResult.ofOutcome scanner (.error error)).statistics.scanned = 0 ∧
        (ScanResult.ofOutcome scanner (.error error)).statistics.scanned = 0 :=
  ⟨fun _ => Or.inr ⟨rfl, rfl⟩, fun _ => ⟨rfl, rfl⟩⟩

/-- The result of one sweep over the files that match some patterns. -/
def TierEngine.sweep {α : Type} (engine : TierEngine α) (scanner : String)
    (patterns : List String) (conclude : List α → Findings)
    (context : Context) : Except ScanError ScanResult :=
  (context.findFilesAny patterns).bind fun files =>
    let reading := engine.parseFiles context files
    .ok (Sweep.finish scanner (conclude reading.1) reading.2)

/-- A scanner that makes one sweep moves with what its engine hides, if engine
and conclusion know nothing of the place of a project. -/
theorem Scanner.movesWith_of_sweep {α : Type} {scanner : Scanner}
    {hides : String → Bool} (engine : Context → TierEngine α)
    (patterns : List String) (conclude : Context → List α → Findings)
    (sees : ∀ context, (engine context).SeesBelow hides)
    (unplaced : ∀ (name : String) (entries : List (String × Node))
      (here there : Checkout name entries) (view : View),
      engine (here.context view) = engine (there.context view) ∧
        conclude (here.context view) = conclude (there.context view))
    (sweeps : ∀ context, scanner.scan context =
      .finished (.ofOutcome scanner.id
        ((engine context).sweep scanner.id patterns (conclude context)
          context))) :
    scanner.MovesWith hides := by
  intro name entries wellFormed here there view
  refine ⟨_, _, sweeps _, sweeps _, ?_⟩
  obtain ⟨sameEngine, sameConclusion⟩ := unplaced name entries here there view
  rw [TierEngine.sweep, TierEngine.sweep,
    here.findFilesAny_context view wellFormed,
    there.findFilesAny_context view wellFormed, sameEngine, sameConclusion]
  cases found : Listing.placesMore view.excludes entries [] patterns with
  | error error => exact agrees_failed_iff scanner.id error
  | ok places =>
      have listed := Listing.placesMore_subset (List.nil_subset _) found
      have engineSees := sees (there.context view)
      exact agrees_finish_iff
        (engineSees.readsBelow_parseFiles wellFormed here view listed)
        (engineSees.readsBelow_parseFiles wellFormed there view listed)
        (engineSees.sameReading_parseFiles wellFormed here there view listed)
        scanner.id (conclude (there.context view))

end ArchSurvey
