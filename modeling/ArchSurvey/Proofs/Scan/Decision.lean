import ArchSurvey.Proofs.Keyed
import ArchSurvey.Scan.Tiers

/-!
# What becomes of a file

The filter, the parser, the extractor and the fallback may each return, fail or
panic, and a file may be unreadable.  Whatever they do, one decision is made on
the file, and the statistics are told this decision and nothing of the attempts
before it.
-/

namespace ArchSurvey

namespace Statistics

/-- How often a type of error occurred. -/
def errorsOf (stats : Statistics) (type : String) : Nat :=
  (stats.errorCounts.lookup type).getD 0

/-- What the statistics are afterwards if one more file came to an outcome: only
a skipped one is not scanned, every other one raises one counter, and only a
failed one brings an error. -/
structure Counts (stats : Statistics) (outcome : FileOutcome)
    (after : Statistics) : Prop where
  discovered : after.discovered = stats.discovered
  scanned : after.scanned =
    stats.scanned + if outcome = .skipped then 0 else 1
  parsed : after.parsed =
    stats.parsed + if outcome = .structural then 1 else 0
  fallback : after.fallback =
    stats.fallback + if outcome = .fallback then 1 else 0
  failed : after.failed = stats.failed + if outcome = .failed then 1 else 0
  untouched : outcome ≠ .failed →
    after.errorCounts = stats.errorCounts ∧ after.topErrors = stats.topErrors
  oneError : outcome = .failed → Keyed.Sorted stats.errorCounts →
    ∃ type ∈ ["io", "fallback", "panic"], ∀ other,
      after.errorsOf other =
        stats.errorsOf other + if other = type then 1 else 0

end Statistics

namespace TierEngine

variable {α : Type}

/-- The filter lets a file through. -/
def Accepts (engine : TierEngine α) (file : String) : Prop :=
  engine.accepts file = .finished true

/-- The parser yields an occurrence at least, and the extractor makes data of
all of them. -/
def Structures (engine : TierEngine α) (file : String) (bytes : List UInt8)
    (data : List α) : Prop :=
  ∃ parse occurrences, engine.parser = some parse ∧
    parse bytes = .finished (.ok occurrences) ∧ occurrences ≠ [] ∧
    engine.extract file occurrences = .finished data

/-- What comes of giving the text of a file to the fallback. -/
def FallsBack (engine : TierEngine α) (disk : Disk) (file : String)
    (answer : Attempt (Except String (List α))) : Prop :=
  engine.Accepts file ∧ ∃ bytes, disk.read file = .ok bytes ∧
    (¬ ∃ data, engine.Structures file bytes data) ∧
    engine.fallback file (Text.Utf8.decodeLossy bytes) = answer

/-- The statistics with a failed file and the one error that made it fail. -/
def afterFailure (stats : Statistics) (type detail : String) : Statistics :=
  { stats with
    scanned := stats.scanned + 1
    failed := stats.failed + 1
    errorCounts := Keyed.add type 1 stats.errorCounts
    topErrors :=
      if stats.topErrors.length < Statistics.maxTopErrors then
        stats.topErrors ++ [detail]
      else stats.topErrors }

/-- The decision on a file: what becomes of it, its data and the statistics
afterwards. -/
inductive Decides (engine : TierEngine α) (disk : Disk) (file : String)
    (stats : Statistics) : FileOutcome → List α → Statistics → Prop
  | skipped (refused : ¬ engine.Accepts file) :
      Decides engine disk file stats .skipped [] stats
  | structural {bytes : List UInt8} {data : List α}
      (accepted : engine.Accepts file) (read : disk.read file = .ok bytes)
      (structured : engine.Structures file bytes data) :
      Decides engine disk file stats .structural data
        { stats with
          scanned := stats.scanned + 1
          parsed := stats.parsed + 1 }
  | fallback {data : List α}
      (returned : engine.FallsBack disk file (.finished (.ok data))) :
      Decides engine disk file stats .fallback data
        { stats with
          scanned := stats.scanned + 1
          fallback := stats.fallback + 1 }
  | unreadable {fault : Fault} (accepted : engine.Accepts file)
      (unread : disk.read file = .error fault) :
      Decides engine disk file stats .failed []
        (afterFailure stats "io" (file ++ ": unreadable"))
  | failed {reason : String}
      (refused : engine.FallsBack disk file (.finished (.error reason))) :
      Decides engine disk file stats .failed []
        (afterFailure stats "fallback" (file ++ ": " ++ reason))
  | panicked {message : Option String}
      (panicked : engine.FallsBack disk file (.panicked message)) :
      Decides engine disk file stats .failed []
        (afterFailure stats "panic" (file ++ ": fallback parser panicked"))

section

variable {engine : TierEngine α} {disk : Disk} {file : String}
  {bytes : List UInt8} {stats after : Statistics} {data : List α}
  {outcome : FileOutcome}

theorem accepts_iff :
    (engine.accepts file).getD false = true ↔ engine.Accepts file := by
  rw [Accepts]
  cases engine.accepts file with
  | finished accepted => simp [Attempt.getD, Attempt.value?]
  | panicked message => simp [Attempt.getD, Attempt.value?]

theorem structural?_eq_some_iff :
    engine.structural? file bytes = some data ↔
      engine.Structures file bytes data := by
  have finished {β : Type} (attempt : Attempt β) (value : β) :
      attempt.value? = some value ↔ attempt = .finished value := by
    cases attempt <;> simp [Attempt.value?]
  have succeeded {ε β : Type} (result : Except ε β) (value : β) :
      result.toOption = some value ↔ result = .ok value := by
    cases result <;> simp [Except.toOption]
  simp only [structural?, Structures, bind, Option.bind_eq_some_iff, finished,
    succeeded]
  constructor
  · rintro ⟨parse, parser, _, parsed, occurrences, rfl, extracted⟩
    split at extracted
    · cases extracted
    · next filled =>
        exact ⟨parse, occurrences, parser, parsed, by simpa using filled,
          (finished _ _).mp extracted⟩
  · rintro ⟨parse, occurrences, parser, parsed, filled, extracted⟩
    refine ⟨parse, parser, _, parsed, occurrences, rfl, ?_⟩
    rw [if_neg (by simpa using filled)]
    exact (finished _ _).mpr extracted

/-- A file that comes to the fallback is read by its text. -/
theorem parseFile_of_fallsBack {answer : Attempt (Except String (List α))}
    (falls : engine.FallsBack disk file answer) (stats : Statistics) :
    ∃ bytes, engine.fallback file (Text.Utf8.decodeLossy bytes) = answer ∧
      engine.parseFile disk file stats =
        engine.readText file bytes stats.addScanned := by
  obtain ⟨accepted, bytes, read, unstructured, answered⟩ := falls
  have nothing : engine.structural? file bytes = none := by
    rw [Option.eq_none_iff_forall_ne_some]
    intro data structured
    exact unstructured ⟨data, structural?_eq_some_iff.mp structured⟩
  refine ⟨bytes, answered, ?_⟩
  rw [parseFile, accepts_iff.mpr accepted, read]
  dsimp only
  rw [nothing]
  rfl

theorem Decides.parseFile_eq
    (decides : engine.Decides disk file stats outcome data after) :
    engine.parseFile disk file stats = (outcome, data, after) := by
  cases decides with
  | skipped refused =>
      rw [← accepts_iff, Bool.not_eq_true] at refused
      rw [parseFile, refused]
      rfl
  | structural accepted read structured =>
      rw [parseFile, accepts_iff.mpr accepted, read]
      dsimp only
      rw [structural?_eq_some_iff.mpr structured]
      rfl
  | fallback returned =>
      obtain ⟨bytes, answered, same⟩ := parseFile_of_fallsBack returned stats
      rw [same, readText, answered]
      rfl
  | unreadable accepted unread =>
      rw [parseFile, accepts_iff.mpr accepted, unread]
      rfl
  | failed refused =>
      obtain ⟨bytes, answered, same⟩ := parseFile_of_fallsBack refused stats
      rw [same, readText, answered]
      rfl
  | panicked panicked =>
      obtain ⟨bytes, answered, same⟩ := parseFile_of_fallsBack panicked stats
      rw [same, readText, answered]
      rfl

theorem exists_decides (engine : TierEngine α) (disk : Disk) (file : String)
    (stats : Statistics) :
    ∃ outcome data after,
      engine.Decides disk file stats outcome data after := by
  by_cases accepted : engine.Accepts file
  · cases read : disk.read file with
    | error fault => exact ⟨_, _, _, .unreadable accepted read⟩
    | ok bytes =>
        by_cases structured : ∃ data, engine.Structures file bytes data
        · obtain ⟨data, structured⟩ := structured
          exact ⟨_, _, _, .structural accepted read structured⟩
        · cases answered :
              engine.fallback file (Text.Utf8.decodeLossy bytes) with
          | panicked message =>
              exact ⟨_, _, _,
                .panicked ⟨accepted, bytes, read, structured, answered⟩⟩
          | finished answer =>
              cases answer with
              | error reason =>
                  exact ⟨_, _, _,
                    .failed ⟨accepted, bytes, read, structured, answered⟩⟩
              | ok data =>
                  exact ⟨_, _, _,
                    .fallback ⟨accepted, bytes, read, structured, answered⟩⟩
  · exact ⟨_, _, _, .skipped accepted⟩

theorem parseFile_eq_iff :
    engine.parseFile disk file stats = (outcome, data, after) ↔
      engine.Decides disk file stats outcome data after := by
  constructor
  · intro parsed
    obtain ⟨outcome', data', after', decides⟩ :=
      exists_decides engine disk file stats
    rw [decides.parseFile_eq] at parsed
    cases parsed
    exact decides
  · exact Decides.parseFile_eq

theorem errorsOf_afterFailure (sorted : Keyed.Sorted stats.errorCounts)
    (type detail other : String) :
    (afterFailure stats type detail).errorsOf other =
      stats.errorsOf other + if other = type then 1 else 0 := by
  rw [Statistics.errorsOf, afterFailure, Keyed.lookup_add sorted,
    Statistics.errorsOf]
  split
  · next same => rw [same, Option.getD_some]
  · rw [Nat.add_zero]

theorem counts_afterFailure {type : String}
    (known : type ∈ ["io", "fallback", "panic"]) (detail : String) :
    stats.Counts .failed (afterFailure stats type detail) where
  discovered := rfl
  scanned := rfl
  parsed := rfl
  fallback := rfl
  failed := rfl
  untouched := fun other => absurd rfl other
  oneError := fun _ sorted =>
    ⟨type, known, errorsOf_afterFailure sorted type detail⟩

theorem Decides.counts
    (decides : engine.Decides disk file stats outcome data after) :
    stats.Counts outcome after := by
  cases decides with
  | skipped refused =>
      exact ⟨rfl, rfl, rfl, rfl, rfl, fun _ => ⟨rfl, rfl⟩, nofun⟩
  | structural accepted read structured =>
      exact ⟨rfl, rfl, rfl, rfl, rfl, fun _ => ⟨rfl, rfl⟩, nofun⟩
  | fallback returned =>
      exact ⟨rfl, rfl, rfl, rfl, rfl, fun _ => ⟨rfl, rfl⟩, nofun⟩
  | unreadable accepted unread => exact counts_afterFailure (by decide) _
  | failed refused => exact counts_afterFailure (by decide) _
  | panicked panicked => exact counts_afterFailure (by decide) _

end

/-- Reading a file comes to the decision on it, and to no other: the file is
skipped, has exactly the data of the extractor or else of the fallback, or fails
with the error that caused it; and the statistics count the outcome once. -/
theorem parseFile_decides (engine : TierEngine α) (disk : Disk) (file : String)
    (stats : Statistics) :
    let result := engine.parseFile disk file stats
    (∀ outcome data after,
      engine.Decides disk file stats outcome data after ↔
        result = (outcome, data, after)) ∧
    stats.Counts result.1 result.2.2 := by
  intro result
  have decides : engine.Decides disk file stats result.1 result.2.1 result.2.2 :=
    parseFile_eq_iff.mp rfl
  exact ⟨fun _ _ _ => parseFile_eq_iff.symm, decides.counts⟩

/-- An extractor that panics leaves nothing behind: the file is read by its
text, and counted as such. -/
theorem parseFile_decides_panicking (stats : Statistics) :
    let engine : TierEngine String :=
      { parser := some fun _ => .finished (.ok [⟨"call", 1, []⟩])
        extract := fun _ _ => .panicked (some "extractor bug")
        fallback := fun _ text => .finished (.ok [String.ofList text]) }
    let disk : Disk :=
      { tree := .directory [("a.txt", .file [111, 107, 255])], current := [] }
    engine.parseFile disk "/a.txt" stats =
      (.fallback, ["ok\ufffd"],
        { stats with
          scanned := stats.scanned + 1
          fallback := stats.fallback + 1 }) := by
  intro engine disk
  apply ((parseFile_decides engine disk "/a.txt" stats).1 _ _ _).mp
  have text : Text.Utf8.decodeLossy [111, 107, 255] = ['o', 'k', '\ufffd'] := by
    decide +kernel
  have answered : engine.fallback "/a.txt"
      (Text.Utf8.decodeLossy [111, 107, 255]) =
        .finished (.ok ["ok\ufffd"]) := by
    rw [text]
  apply Decides.fallback
  refine ⟨rfl, [111, 107, 255], rfl, ?_, answered⟩
  rintro ⟨data, parse, occurrences, -, -, -, extracted⟩
  cases extracted

end TierEngine

end ArchSurvey
