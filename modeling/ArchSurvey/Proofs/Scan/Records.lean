import ArchSurvey.Proofs.Keyed
import ArchSurvey.Scan.Tiers
import ArchSurvey.Statistics.Basic

/-!
# What is recorded of files

Reading a file comes to some data and a record: the file was skipped, read by
one of the tiers, or failed with one error.  A record is counted in the same
way into whatever statistics there are, so counting it apart and merging comes
to counting it directly.

Reading files apart and merging so comes to one loop over the files before the
deadline, which counts every file into the same statistics.  Each round counts
one record, so the statistics stay balanced, and in the end they have not
scanned more files than there are.
-/

/-!
## Balanced statistics

Statistics are balanced if every scanned file was read by one tier or failed,
every failed file has one error, and as many details are kept as there is room
for.  Putting balanced statistics together leaves them balanced.
-/

namespace ArchSurvey

namespace Keyed

/-- The sum of the numbers of a map. -/
def total : List (String × Nat) → Nat
  | [] => 0
  | pair :: rest => pair.2 + total rest

/-- Adding to a number of a map adds to the sum of its numbers. -/
theorem total_add (key : String) (count : Nat) (map : List (String × Nat)) :
    total (add key count map) = total map + count := by
  unfold add
  induction map with
  | nil => simp [alter, total]
  | cons pair rest ih =>
      obtain ⟨name, held⟩ := pair
      rw [alter]
      split
      · simp only [total, Option.getD_none]
        omega
      · split
        · simp only [total, Option.getD_some]
          omega
        · simp only [total, ih]
          omega

end Keyed

namespace Statistics

/-- The number of errors of all types. -/
def errorTotal (s : Statistics) : Nat :=
  Keyed.total s.errorCounts

/-- Every scanned file is accounted for once, every failed one with an error. -/
structure Balanced (s : Statistics) : Prop where
  scanned_eq : s.scanned = s.parsed + s.fallback + s.failed
  errorTotal_eq : s.errorTotal = s.failed
  length_topErrors : s.topErrors.length = min maxTopErrors s.failed

/-- Balanced statistics of a whole scan, which discovered every file that it
scanned. -/
structure Consistent (s : Statistics) : Prop extends s.Balanced where
  scanned_le : s.scanned ≤ s.discovered

theorem total_addCounts (first second : List (String × Nat)) :
    Keyed.total (addCounts first second) =
      Keyed.total first + Keyed.total second := by
  unfold addCounts
  induction second generalizing first with
  | nil => rfl
  | cons pair rest ih =>
      rw [List.foldl_cons, ih, Keyed.total_add, Keyed.total]
      omega

theorem balanced_empty (discovered : Nat) :
    ({ discovered } : Statistics).Balanced :=
  ⟨rfl, rfl, rfl⟩

theorem Balanced.room {s : Statistics} (balanced : s.Balanced) :
    s.topErrors.length ≤ maxTopErrors := by
  rw [balanced.length_topErrors]
  exact Nat.min_le_left _ _

/-- How many files were discovered has no bearing on the balance. -/
theorem Balanced.withDiscovered {s : Statistics} (balanced : s.Balanced)
    (discovered : Nat) : ({ s with discovered } : Statistics).Balanced :=
  ⟨balanced.scanned_eq, balanced.errorTotal_eq, balanced.length_topErrors⟩

theorem Balanced.combine {s t : Statistics} (first : s.Balanced)
    (second : t.Balanced) : (s.combine t).Balanced := by
  constructor
  · have left := first.scanned_eq
    have right := second.scanned_eq
    simp only [Statistics.combine]
    omega
  · have total : (s.combine t).errorTotal = s.errorTotal + t.errorTotal :=
      total_addCounts _ _
    rw [total, first.errorTotal_eq, second.errorTotal_eq]
    rfl
  · have left := first.length_topErrors
    have right := second.length_topErrors
    simp only [Statistics.combine, List.length_take, List.length_append]
    omega

theorem Balanced.merge {s t : Statistics} (first : s.Balanced)
    (second : t.Balanced) : (s.merge t).Balanced :=
  (first.combine second).withDiscovered _

/-- Merging statistics of nothing changes nothing, as long as no more details
are held than there is room for. -/
theorem merge_blank {s : Statistics}
    (room : s.topErrors.length ≤ maxTopErrors) : s.merge {} = s := by
  have kept : s.topErrors.take maxTopErrors = s.topErrors :=
    List.take_of_length_le room
  simp [Statistics.merge, Statistics.combine, addCounts, kept]

/-- An error may be merged with statistics that hold none yet, or added to the
merged ones. -/
theorem merge_addError {t : Statistics} (noCounts : t.errorCounts = [])
    (noDetails : t.topErrors = []) {s : Statistics}
    (room : s.topErrors.length ≤ maxTopErrors) (type detail : String) :
    s.merge (t.addError type detail) = (s.merge t).addError type detail := by
  have kept : s.topErrors.take maxTopErrors = s.topErrors :=
    List.take_of_length_le room
  have details : (s.topErrors ++ [detail]).take maxTopErrors =
      if s.topErrors.length < maxTopErrors then s.topErrors ++ [detail]
      else s.topErrors := by
    split
    · exact List.take_of_length_le (by simpa using ‹_›)
    · rw [List.take_append_of_le_length (by omega), kept]
  have free : 0 < maxTopErrors := by decide
  have counts : Keyed.add type 1 [] = [(type, 1)] := rfl
  simp only [Statistics.merge, Statistics.combine, addError, noCounts,
    noDetails, addCounts, counts, kept, details, List.length_nil, if_pos free,
    List.nil_append, List.append_nil, List.foldl_cons, List.foldl_nil]

theorem Consistent.combine {s t : Statistics} (first : s.Consistent)
    (second : t.Consistent) : (s.combine t).Consistent where
  toBalanced := first.toBalanced.combine second.toBalanced
  scanned_le := Nat.add_le_add first.scanned_le second.scanned_le

end Statistics

end ArchSurvey

/-!
## Records of files
-/

namespace ArchSurvey

/-- What the statistics are told of a file. -/
inductive FileRecord where
  | skipped
  | structural
  | fallback
  | failed (type detail : String)

namespace FileRecord

/-- What became of a file with a record. -/
def outcome : FileRecord → FileOutcome
  | skipped => .skipped
  | structural => .structural
  | fallback => .fallback
  | failed _ _ => .failed

/-- The statistics with one more record. -/
def count : FileRecord → Statistics → Statistics
  | skipped, stats => stats
  | structural, stats => stats.addScanned.addParsed
  | fallback, stats => stats.addScanned.addFallback
  | failed type detail, stats => TierEngine.fail stats.addScanned type detail

/-- Counting a record apart and merging comes to counting it directly, as long
as no more details are held than there is room for. -/
theorem count_eq_merge (record : FileRecord) {stats : Statistics}
    (room : stats.topErrors.length ≤ Statistics.maxTopErrors) :
    record.count stats = stats.merge (record.count {}) := by
  have blank : stats.merge {} = stats := Statistics.merge_blank room
  cases record with
  | skipped => exact blank.symm
  | structural =>
      change _ = (stats.merge {}).addScanned.addParsed
      rw [blank]
      rfl
  | fallback =>
      change _ = (stats.merge {}).addScanned.addFallback
      rw [blank]
      rfl
  | failed type detail =>
      let tried : Statistics := ({} : Statistics).addScanned.addFailed
      have merged : stats.merge (tried.addError type detail) =
          (stats.merge tried).addError type detail :=
        Statistics.merge_addError rfl rfl room type detail
      calc
        TierEngine.fail stats.addScanned type detail
          = TierEngine.fail (stats.merge {}).addScanned type detail := by
            rw [blank]
        _ = stats.merge (tried.addError type detail) := merged.symm

theorem balanced_count (record : FileRecord) {stats : Statistics}
    (balanced : stats.Balanced) : (record.count stats).Balanced := by
  obtain ⟨scanned, errors, details⟩ := balanced
  cases record with
  | skipped => exact ⟨scanned, errors, details⟩
  | structural =>
      refine ⟨?_, errors, details⟩
      change stats.scanned + 1 = stats.parsed + 1 + stats.fallback + stats.failed
      omega
  | fallback =>
      refine ⟨?_, errors, details⟩
      change stats.scanned + 1 =
        stats.parsed + (stats.fallback + 1) + stats.failed
      omega
  | failed type detail =>
      refine ⟨?_, ?_, ?_⟩
      · change stats.scanned + 1 =
          stats.parsed + stats.fallback + (stats.failed + 1)
        omega
      · change Keyed.total (Keyed.add type 1 stats.errorCounts) =
          stats.failed + 1
        rw [Keyed.total_add]
        exact congrArg (· + 1) errors
      · change (if stats.topErrors.length < Statistics.maxTopErrors then
            stats.topErrors ++ [detail] else stats.topErrors).length =
          min Statistics.maxTopErrors (stats.failed + 1)
        split
        · rw [List.length_append, List.length_singleton]
          omega
        · omega

/-- A record tells at most one scanned file. -/
theorem scanned_count_le (record : FileRecord) (stats : Statistics) :
    (record.count stats).scanned ≤ stats.scanned + 1 := by
  cases record with
  | skipped => exact Nat.le_succ _
  | structural => exact Nat.le_refl _
  | fallback => exact Nat.le_refl _
  | failed type detail => exact Nat.le_refl _

theorem discovered_count (record : FileRecord) (stats : Statistics) :
    (record.count stats).discovered = stats.discovered := by
  cases record <;> rfl

end FileRecord

namespace TierEngine

variable {α : Type} (engine : TierEngine α)

theorem readText_eq_record (file : String) (bytes : List UInt8) :
    ∃ (record : FileRecord) (data : List α),
      (record.outcome.isSuccess = false → data = []) ∧
      ∀ stats : Statistics,
        engine.readText file bytes stats.addScanned =
          (record.outcome, data, record.count stats) := by
  cases answer : engine.fallback file (Text.Utf8.decodeLossy bytes) with
  | panicked message =>
      refine ⟨.failed "panic" (file ++ ": fallback parser panicked"), [],
        fun _ => rfl, fun stats => ?_⟩
      rw [readText, answer]
      rfl
  | finished read =>
      cases read with
      | ok data =>
          refine ⟨.fallback, data, fun failed => ?_, fun stats => ?_⟩
          · cases failed
          · rw [readText, answer]
            rfl
      | error reason =>
          refine ⟨.failed "fallback" (file ++ ": " ++ reason), [],
            fun _ => rfl, fun stats => ?_⟩
          rw [readText, answer]
          rfl

/-- Reading a file comes to one record and some data, whatever was counted
before, and no data come of a file that no tier read. -/
theorem parseFile_eq_record (disk : Disk) (file : String) :
    ∃ (record : FileRecord) (data : List α),
      (record.outcome.isSuccess = false → data = []) ∧
      ∀ stats : Statistics,
        engine.parseFile disk file stats =
          (record.outcome, data, record.count stats) := by
  cases accepted : (engine.accepts file).getD false with
  | false =>
      refine ⟨.skipped, [], fun _ => rfl, fun stats => ?_⟩
      rw [parseFile, accepted]
      rfl
  | true =>
      cases read : disk.read file with
      | error fault =>
          refine ⟨.failed "io" (file ++ ": unreadable"), [], fun _ => rfl,
            fun stats => ?_⟩
          rw [parseFile, accepted, read]
          rfl
      | ok bytes =>
          cases tree : engine.structural? file bytes with
          | some data =>
              refine ⟨.structural, data, fun failed => ?_, fun stats => ?_⟩
              · cases failed
              · rw [parseFile, accepted, read]
                dsimp only
                rw [tree]
                rfl
          | none =>
              obtain ⟨record, data, silent, reads⟩ :=
                engine.readText_eq_record file bytes
              refine ⟨record, data, silent, fun stats => ?_⟩
              rw [parseFile, accepted, read]
              dsimp only
              rw [tree]
              exact reads stats

/-- What a worker makes of a file on time is the data of the file with the
statistics of its record alone. -/
theorem parseAlone_eq_record {context : Context} {file : String}
    (early : context.isExpired file = false) :
    ∃ (record : FileRecord) (data : List α),
      (∀ stats : Statistics,
        engine.parseFile context.disk file stats =
          (record.outcome, data, record.count stats)) ∧
      engine.parseAlone context file = some (data, record.count {}) := by
  obtain ⟨record, data, -, reads⟩ := engine.parseFile_eq_record context.disk file
  refine ⟨record, data, reads, ?_⟩
  rw [parseAlone, early, reads]
  rfl

end TierEngine

namespace TierEngine

variable {α : Type}

/-- One round of the loop: reads a file and counts it with those before it. -/
def readNext (engine : TierEngine α) (disk : Disk)
    (held : List α × Statistics) (file : String) : List α × Statistics :=
  let (_, data, stats) := engine.parseFile disk file held.2
  (held.1 ++ data, stats)

/-- The loop over the files before the deadline. -/
def readInTurn (engine : TierEngine α) (context : Context)
    (files : List String) : List α × Statistics :=
  (files.filter fun file => !context.isExpired file).foldl
    (engine.readNext context.disk) ([], { discovered := files.length })

section

variable (engine : TierEngine α) (context : Context) (files : List String)

/-- The loop goes on with what the workers of some files make of them, merged
into the statistics so far. -/
theorem foldl_readNext (data : List α) {stats : Statistics}
    (balanced : stats.Balanced) :
    (files.filter fun file => !context.isExpired file).foldl
        (engine.readNext context.disk) (data, stats) =
      (data ++ (files.filterMap (engine.parseAlone context)).flatMap Prod.fst,
        (files.filterMap (engine.parseAlone context)).foldl
          (fun total part => total.merge part.2) stats) := by
  induction files generalizing data stats with
  | nil => simp
  | cons file rest ih =>
      cases expired : context.isExpired file with
      | true =>
          have nothing : engine.parseAlone context file = none := by
            rw [parseAlone, expired]
            rfl
          rw [List.filter_cons_of_neg (by simp [expired]),
            List.filterMap_cons_none nothing]
          exact ih data balanced
      | false =>
          obtain ⟨record, found, reads, alone⟩ :=
            engine.parseAlone_eq_record expired
          have counted := record.count_eq_merge balanced.room
          have next : engine.readNext context.disk (data, stats) file =
              (data ++ found, stats.merge (record.count {})) := by
            rw [readNext, reads, counted]
          rw [List.filter_cons_of_pos (by simp [expired]), List.foldl_cons,
            next, List.filterMap_cons_some alone, List.flatMap_cons,
            List.foldl_cons, ← List.append_assoc]
          apply ih
          rw [← counted]
          exact record.balanced_count balanced

theorem parseFiles_eq_foldl :
    engine.parseFiles context files = engine.readInTurn context files := by
  rw [readInTurn, engine.foldl_readNext context files []
    (Statistics.balanced_empty _)]
  rfl

end

section

variable {engine : TierEngine α} {disk : Disk} {held : List α × Statistics}

/-- A round counts one record. -/
theorem readNext_counts (file : String) :
    ∃ record : FileRecord,
      (engine.readNext disk held file).2 = record.count held.2 := by
  obtain ⟨record, data, -, reads⟩ := engine.parseFile_eq_record disk file
  exact ⟨record, by rw [readNext, reads]⟩

theorem balanced_foldl_readNext (balanced : held.2.Balanced)
    (files : List String) :
    (files.foldl (engine.readNext disk) held).2.Balanced := by
  induction files generalizing held with
  | nil => exact balanced
  | cons file rest ih =>
      obtain ⟨record, counts⟩ : ∃ record : FileRecord,
          (engine.readNext disk held file).2 = record.count held.2 :=
        readNext_counts file
      apply ih
      rw [counts]
      exact record.balanced_count balanced

theorem discovered_foldl_readNext (files : List String) :
    (files.foldl (engine.readNext disk) held).2.discovered =
      held.2.discovered := by
  induction files generalizing held with
  | nil => rfl
  | cons file rest ih =>
      obtain ⟨record, counts⟩ : ∃ record : FileRecord,
          (engine.readNext disk held file).2 = record.count held.2 :=
        readNext_counts file
      rw [List.foldl_cons, ih, counts, record.discovered_count]

theorem scanned_foldl_readNext_le (files : List String) :
    (files.foldl (engine.readNext disk) held).2.scanned ≤
      held.2.scanned + files.length := by
  induction files generalizing held with
  | nil => exact Nat.le_refl _
  | cons file rest ih =>
      obtain ⟨record, counts⟩ : ∃ record : FileRecord,
          (engine.readNext disk held file).2 = record.count held.2 :=
        readNext_counts file
      have here := record.scanned_count_le held.2
      rw [← counts] at here
      calc
        ((file :: rest).foldl (engine.readNext disk) held).2.scanned
          ≤ (engine.readNext disk held file).2.scanned + rest.length := ih
        _ ≤ held.2.scanned + (file :: rest).length := by
            rw [List.length_cons]
            omega

end

theorem discovered_parseFiles (engine : TierEngine α) (context : Context)
    (files : List String) :
    (engine.parseFiles context files).2.discovered = files.length := by
  rw [parseFiles_eq_foldl, readInTurn, discovered_foldl_readNext]

/-- The statistics of a reading account for every file that it scanned. -/
theorem consistent_parseFiles (engine : TierEngine α) (context : Context)
    (files : List String) :
    (engine.parseFiles context files).2.Consistent where
  toBalanced := by
    rw [parseFiles_eq_foldl]
    exact balanced_foldl_readNext (Statistics.balanced_empty _) _
  scanned_le := by
    rw [discovered_parseFiles, parseFiles_eq_foldl]
    have early := List.length_filter_le
      (fun file => !context.isExpired file) files
    have scanned : (engine.readInTurn context files).2.scanned ≤
        0 + (files.filter fun file => !context.isExpired file).length :=
      scanned_foldl_readNext_le _
    omega

end TierEngine

end ArchSurvey
