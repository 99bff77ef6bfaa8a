import ArchSurvey.Proofs.Scan.Records
import ArchSurvey.Proofs.Scan.Relocation

/-!
# Methods of scanners

A scanner goes over the files of a project in one pass or several, each with an
engine of its own, and draws its findings from what all passes read.  A result
of such a method has consistent statistics, and warns exactly if a file failed.
-/

namespace ArchSurvey

/-- Which files are read in a pass. -/
inductive FileChoice where
  | matching (pattern : String)
  | matchingAny (patterns : List String)

/-- The files of a project that are chosen. -/
def FileChoice.files (context : Context) :
    FileChoice → Except ScanError (List String)
  | matching pattern => context.findFiles pattern
  | matchingAny patterns => context.findFilesAny patterns

section

variable {context : Context} {previous : List (String × ScanResult)}

theorem Context.findMore_with_previous (found patterns : List String) :
    { context with previous }.findMore found patterns =
      context.findMore found patterns := by
  induction patterns generalizing found with
  | nil => rfl
  | cons pattern rest ih =>
      have here : { context with previous }.findFiles pattern =
          context.findFiles pattern := rfl
      rw [findMore, findMore, here]
      cases context.findFiles pattern with
      | error error => rfl
      | ok files => exact ih _

/-- The chosen files do not depend on what earlier scanners found. -/
theorem FileChoice.files_with_previous (choice : FileChoice) :
    choice.files { context with previous } = choice.files context := by
  cases choice with
  | matching pattern => rfl
  | matchingAny patterns => exact Context.findMore_with_previous [] patterns

end

/-- One pass over the files of a project. -/
structure Pass (α : Type) where
  engine : TierEngine α
  choice : FileChoice

namespace Pass

variable {α : Type}

/-- What is read in a pass. -/
def reading (pass : Pass α) (context : Context) :
    Except ScanError (List α × Statistics) :=
  (pass.choice.files context).map (pass.engine.parseFiles context)

/-- What is read in several passes, together. -/
def readAll (context : Context) :
    List (Pass α) → Except ScanError (List α × Statistics)
  | [] => .ok ([], {})
  | [pass] => pass.reading context
  | pass :: next :: rest =>
      (pass.reading context).bind fun first =>
        (readAll context (next :: rest)).map fun later =>
          (first.1 ++ later.1, first.2.combine later.2)

section

variable {context : Context} {previous : List (String × ScanResult)}

theorem reading_with_previous (pass : Pass α) :
    pass.reading { context with previous } = pass.reading context := by
  rw [Pass.reading, Pass.reading, pass.choice.files_with_previous]
  rfl

/-- What is read does not depend on what earlier scanners found. -/
theorem readAll_with_previous (passes : List (Pass α)) :
    readAll { context with previous } passes = readAll context passes := by
  fun_induction readAll context passes with
  | case1 => rfl
  | case2 pass => exact pass.reading_with_previous
  | case3 pass next rest ih => rw [readAll, pass.reading_with_previous, ih]

end

theorem consistent_reading {pass : Pass α} {context : Context}
    {reading : List α × Statistics}
    (read : pass.reading context = .ok reading) : reading.2.Consistent := by
  rw [Pass.reading] at read
  cases chosen : pass.choice.files context with
  | error error =>
      rw [chosen] at read
      cases read
  | ok files =>
      rw [chosen] at read
      cases read
      exact pass.engine.consistent_parseFiles context files

theorem consistent_readAll {passes : List (Pass α)} {context : Context}
    {reading : List α × Statistics}
    (read : readAll context passes = .ok reading) : reading.2.Consistent := by
  fun_induction readAll context passes generalizing reading with
  | case1 =>
      cases read
      exact ⟨Statistics.balanced_empty 0, Nat.le_refl 0⟩
  | case2 pass => exact consistent_reading read
  | case3 pass next rest ih =>
      cases first : pass.reading context with
      | error error =>
          rw [first] at read
          cases read
      | ok here =>
          cases others : readAll context (next :: rest) with
          | error error =>
              rw [first, others] at read
              cases read
          | ok later =>
              rw [first, others] at read
              cases read
              exact (consistent_reading first).combine (ih others)

end Pass

/-- How a scanner comes to its findings. -/
structure Method where
  /-- What the engines make of a file. -/
  Datum : Type
  passes : List (Pass Datum)
  conclude : List Datum → Findings

namespace Method

/-- One pass over the files that match some patterns. -/
def single {α : Type} (engine : TierEngine α) (patterns : List String)
    (conclude : List α → Findings) : Method :=
  { Datum := α, passes := [⟨engine, .matchingAny patterns⟩], conclude }

/-- The result of a scan by a method. -/
def scan (method : Method) (scanner : String) (context : Context) :
    Except ScanError ScanResult :=
  (Pass.readAll context method.passes).map fun reading =>
    Sweep.finish scanner (method.conclude reading.1) reading.2

theorem scan_single {α : Type} (engine : TierEngine α)
    (patterns : List String) (conclude : List α → Findings) (scanner : String)
    (context : Context) :
    (single engine patterns conclude).scan scanner context =
      engine.sweep scanner patterns conclude context := by
  rw [TierEngine.sweep]
  cases found : context.findFilesAny patterns with
  | error error =>
      simp [scan, single, Pass.readAll, Pass.reading, FileChoice.files, found,
        Except.map, Except.bind]
  | ok files =>
      simp [scan, single, Pass.readAll, Pass.reading, FileChoice.files, found,
        Except.map, Except.bind]

end Method

/-- A scanner that works by a method, which may depend on the project. -/
def Scanner.Follows (scanner : Scanner) (method : Context → Method) : Prop :=
  ∀ context, scanner.scan context =
    .finished (.ofOutcome scanner.id ((method context).scan scanner.id context))

theorem Sweep.warnings_ne_nil_iff (stats : Statistics) :
    Sweep.warnings stats ≠ [] ↔ 0 < stats.failed := by
  rw [Sweep.warnings, Statistics.hasFailures]
  split
  · next failures => simpa using failures
  · next noFailures => simpa using noFailures

/-- A result that can be relied on to account for every file. -/
structure ScanResult.Accounts (result : ScanResult) : Prop where
  consistent : result.statistics.Consistent
  warns_iff : result.warnings ≠ [] ↔ 0 < result.statistics.failed

theorem Sweep.accounts_finish (scanner : String) (findings : Findings)
    {stats : Statistics} (consistent : stats.Consistent) :
    (Sweep.finish scanner findings stats).Accounts :=
  ⟨consistent, warnings_ne_nil_iff stats⟩

/-- A scan by a method never panics, and if it succeeds its result accounts for
every file. -/
theorem Scanner.Follows.accounts {scanner : Scanner}
    {method : Context → Method} (follows : scanner.Follows method)
    (context : Context) :
    ∃ result, scanner.scan context = .finished result ∧
      (result.success = true → result.Accounts) := by
  refine ⟨_, follows context, ?_⟩
  rw [Method.scan]
  cases read : Pass.readAll context (method context).passes with
  | error error =>
      intro success
      cases success
  | ok reading =>
      intro _
      exact Sweep.accounts_finish scanner.id _ (Pass.consistent_readAll read)

end ArchSurvey

/-!
## What scanners yield

Whatever the files of a project hold, the data of an engine come from its
extractor or its fallback.  What holds of all that these two can come to holds
of all data, so the findings of a method have what its conclusion makes of it.
-/

namespace ArchSurvey

/-- Something holds of every datum that an engine can make of a file. -/
structure TierEngine.Yields {α : Type} (engine : TierEngine α)
    (holds : α → Prop) : Prop where
  extract : ∀ file occurrences data,
    engine.extract file occurrences = .finished data → ∀ datum ∈ data, holds datum
  fallback : ∀ file text data,
    engine.fallback file text = .finished (.ok data) → ∀ datum ∈ data, holds datum

section

variable {α : Type} {holds : α → Prop}

namespace TierEngine

variable {engine : TierEngine α}

/-- An engine without an extractor yields what its fallback makes of a reading
that may fail. -/
theorem yields_of_read {β : Type} {read : String → List Char → Except String β}
    {datum : String → β → α}
    (extracts : ∀ file occurrences,
      engine.extract file occurrences = .finished [])
    (falls : ∀ file text, engine.fallback file text =
      .finished ((read file text).map fun found => [datum file found]))
    (each : ∀ file found, holds (datum file found)) :
    engine.Yields holds where
  extract := by
    intro file occurrences data found
    rw [extracts] at found
    cases found
    exact List.forall_mem_nil _
  fallback := by
    intro file text data found
    rw [falls] at found
    cases came : read file text with
    | error error =>
        rw [came] at found
        cases found
    | ok value =>
        rw [came] at found
        cases found
        exact List.forall_mem_singleton.mpr (each file value)

/-- An engine yields what its extractor and its fallback make of a file, where
both come to one datum. -/
theorem yields_of_both
    {datumOfTree : String → List Grammar.Occurrence → α}
    {datumOfText : String → List Char → α}
    (extracts : ∀ file occurrences, engine.extract file occurrences =
      .finished [datumOfTree file occurrences])
    (falls : ∀ file text, engine.fallback file text =
      .finished (.ok [datumOfText file text]))
    (ofTree : ∀ file occurrences, holds (datumOfTree file occurrences))
    (ofText : ∀ file text, holds (datumOfText file text)) :
    engine.Yields holds where
  extract := by
    intro file occurrences data found
    rw [extracts] at found
    cases found
    exact List.forall_mem_singleton.mpr (ofTree file occurrences)
  fallback := by
    intro file text data found
    rw [falls] at found
    cases found
    exact List.forall_mem_singleton.mpr (ofText file text)

end TierEngine

namespace TierEngine.Yields

variable {engine : TierEngine α} (yields : engine.Yields holds)

include yields

theorem structural {file : String} {bytes : List UInt8} {data : List α}
    (read : engine.structural? file bytes = some data) :
    ∀ datum ∈ data, holds datum := by
  simp only [structural?, Option.bind_eq_bind, Option.bind_eq_some_iff] at read
  obtain ⟨parse, -, outcome, -, occurrences, -, read⟩ := read
  split at read
  · cases read
  · cases extracted : engine.extract file occurrences with
    | panicked message =>
        rw [extracted] at read
        cases read
    | finished found =>
        rw [extracted] at read
        cases read
        exact yields.extract file occurrences data extracted

theorem readText (file : String) (bytes : List UInt8) (stats : Statistics) :
    ∀ datum ∈ (engine.readText file bytes stats).2.1, holds datum := by
  rw [TierEngine.readText]
  split
  · next data read => exact yields.fallback file _ data read
  · exact List.forall_mem_nil _
  · exact List.forall_mem_nil _

theorem parseFile (disk : Disk) (file : String) (stats : Statistics) :
    ∀ datum ∈ (engine.parseFile disk file stats).2.1, holds datum := by
  rw [TierEngine.parseFile]
  split
  · exact List.forall_mem_nil _
  · dsimp only
    split
    · exact List.forall_mem_nil _
    · split
      · next data read => exact yields.structural read
      · exact yields.readText _ _ _

theorem parseFiles (context : Context) (files : List String) :
    ∀ datum ∈ (engine.parseFiles context files).1, holds datum := by
  intro datum member
  obtain ⟨part, among, inside⟩ := List.mem_flatMap.mp member
  obtain ⟨file, -, alone⟩ := List.mem_filterMap.mp among
  rw [parseAlone] at alone
  split at alone
  · cases alone
  · cases alone
    exact yields.parseFile _ _ _ datum inside

end TierEngine.Yields

/-- What is read in several passes is read in one of them. -/
theorem Pass.exists_of_mem_readAll {passes : List (Pass α)} {context : Context}
    {reading : List α × Statistics}
    (read : readAll context passes = .ok reading) :
    ∀ datum ∈ reading.1, ∃ pass ∈ passes, ∃ here,
      pass.reading context = .ok here ∧ datum ∈ here.1 := by
  fun_induction readAll context passes generalizing reading with
  | case1 =>
      cases read
      exact List.forall_mem_nil _
  | case2 pass =>
      intro datum member
      exact ⟨pass, List.mem_singleton_self pass, reading, read, member⟩
  | case3 pass next rest ih =>
      cases first : pass.reading context with
      | error error =>
          rw [first] at read
          cases read
      | ok here =>
          cases others : readAll context (next :: rest) with
          | error error =>
              rw [first, others] at read
              cases read
          | ok later =>
              rw [first, others] at read
              cases read
              intro datum member
              rcases List.mem_append.mp member with inFirst | inLater
              · exact ⟨pass, List.mem_cons_self, here, first, inFirst⟩
              · obtain ⟨other, among, found⟩ := ih others datum inLater
                exact ⟨other, List.mem_cons_of_mem _ among, found⟩

theorem Pass.holds_of_readAll {passes : List (Pass α)}
    (yields : ∀ pass ∈ passes, pass.engine.Yields holds) {context : Context}
    {reading : List α × Statistics}
    (read : readAll context passes = .ok reading) :
    ∀ datum ∈ reading.1, holds datum := by
  intro datum member
  obtain ⟨pass, among, here, found, inside⟩ :=
    exists_of_mem_readAll read datum member
  rw [Pass.reading] at found
  cases chosen : pass.choice.files context with
  | error error =>
      rw [chosen] at found
      cases found
  | ok files =>
      rw [chosen] at found
      cases found
      exact (yields pass among).parseFiles context files datum inside

end

/-- Something holds of all findings that a method can come to. -/
def Method.Finds (method : Method) (holds : Findings → Prop) : Prop :=
  ∀ (context : Context) (reading : List method.Datum × Statistics),
    Pass.readAll context method.passes = .ok reading →
      holds (method.conclude reading.1)

theorem Method.Finds.mono {method : Method} {holds also : Findings → Prop}
    (finds : method.Finds holds)
    (implies : ∀ findings, holds findings → also findings) :
    method.Finds also :=
  fun context reading read => implies _ (finds context reading read)

/-- What holds of the conclusion from any data that the engines can make holds
of the findings. -/
theorem Method.finds_of_yields {method : Method}
    {holdsOne : method.Datum → Prop} {holds : Findings → Prop}
    (yields : ∀ pass ∈ method.passes, pass.engine.Yields holdsOne)
    (concludes : ∀ data, (∀ datum ∈ data, holdsOne datum) →
      holds (method.conclude data)) :
    method.Finds holds :=
  fun _ reading read =>
    concludes reading.1 (Pass.holds_of_readAll yields read)

theorem Method.finds_single {α : Type} {engine : TierEngine α}
    {patterns : List String} {conclude : List α → Findings}
    {holdsOne : α → Prop} {holds : Findings → Prop}
    (yields : engine.Yields holdsOne)
    (concludes : ∀ data, (∀ datum ∈ data, holdsOne datum) →
      holds (conclude data)) :
    (single engine patterns conclude).Finds holds := by
  refine finds_of_yields ?_ concludes
  intro pass member
  obtain rfl := List.mem_singleton.mp member
  exact yields

/-- A successful result by a method holds what the method finds. -/
theorem Scanner.Follows.holds_of_success {scanner : Scanner}
    {method : Context → Method} (follows : scanner.Follows method)
    {context : Context} {holds : Findings → Prop}
    (finds : (method context).Finds holds)
    (success : (scanner.runIsolated context).success = true) :
    holds (scanner.runIsolated context).findings := by
  rw [runIsolated, follows context, Method.scan] at success ⊢
  cases read : Pass.readAll context (method context).passes with
  | error error =>
      rw [read] at success
      cases success
  | ok reading => exact finds context reading read

end ArchSurvey
