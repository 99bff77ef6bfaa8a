import ArchSurvey.Proofs.Lists
import ArchSurvey.Proofs.Model.Owners
import ArchSurvey.Proofs.Scan.Decision
import Mathlib.Algebra.GroupWithZero.Nat
import Mathlib.Data.List.Dedup
import Mathlib.Data.List.Sort

/-!
# Sums of statistics

Statistics are added counter by counter and type by type, and the first ten
details of errors are kept.  This is associative, so the statistics of a merged
model have one sum: it takes each scanner once, with its first result of lowest
priority.
-/

namespace ArchSurvey

namespace Statistics

/-! ## Counts by type -/

section Counts

variable {first second third : List (String × Nat)}

theorem sorted_addCounts (sorted : Keyed.Sorted first)
    (second : List (String × Nat)) : Keyed.Sorted (addCounts first second) := by
  unfold addCounts
  induction second generalizing first with
  | nil => exact sorted
  | cons entry rest ih => exact ih (sorted.add entry.1 entry.2)

theorem mem_keys_addCounts {type : String} :
    type ∈ (addCounts first second).map Prod.fst ↔
      type ∈ first.map Prod.fst ∨ type ∈ second.map Prod.fst := by
  unfold addCounts
  induction second generalizing first with
  | nil => simp
  | cons entry rest ih =>
      rw [List.foldl_cons, ih, Keyed.mem_keys_add, List.map_cons,
        List.mem_cons, or_assoc, or_left_comm]

/-- Each type is looked up in both, and where both have it the counts are
added. -/
theorem lookup_addCounts (sorted : Keyed.Sorted first)
    (sortedToo : Keyed.Sorted second) (type : String) :
    (addCounts first second).lookup type =
      Option.merge (· + ·) (first.lookup type) (second.lookup type) := by
  unfold addCounts
  induction second generalizing first with
  | nil => simp
  | cons entry rest ih =>
      obtain ⟨name, count⟩ := entry
      rw [List.foldl_cons, ih (sorted.add name count) sortedToo.tail,
        Keyed.lookup_add sorted, List.lookup_cons]
      by_cases same : type = name
      · subst same
        have later : rest.lookup type = none := by
          apply Keyed.lookup_eq_none
          intro member
          exact String.lt_irrefl type (sortedToo.head_lt member)
        rw [if_pos rfl, later, beq_self_eq_true]
        cases first.lookup type <;> simp
      · have different : (type == name) = false := by simp [same]
        rw [if_neg same, different]

theorem addCounts_nil_left (sorted : Keyed.Sorted second) :
    addCounts [] second = second := by
  apply (sorted_addCounts .nil second).ext sorted
  intro type
  rw [lookup_addCounts .nil sorted, List.lookup_nil, Option.merge_none_left]

theorem addCounts_comm (sorted : Keyed.Sorted first)
    (sortedToo : Keyed.Sorted second) :
    addCounts first second = addCounts second first := by
  apply (sorted_addCounts sorted second).ext (sorted_addCounts sortedToo first)
  intro type
  rw [lookup_addCounts sorted sortedToo, lookup_addCounts sortedToo sorted]
  exact Std.Commutative.comm _ _

theorem addCounts_assoc (sorted : Keyed.Sorted first)
    (sortedToo : Keyed.Sorted second) (sortedThree : Keyed.Sorted third) :
    addCounts (addCounts first second) third =
      addCounts first (addCounts second third) := by
  have inner := sorted_addCounts sorted second
  have outer := sorted_addCounts sortedToo third
  apply (sorted_addCounts inner third).ext (sorted_addCounts sorted _)
  intro type
  rw [lookup_addCounts inner sortedThree, lookup_addCounts sorted sortedToo,
    lookup_addCounts sorted outer, lookup_addCounts sortedToo sortedThree]
  exact Std.Associative.assoc _ _ _

end Counts

/-! ## Sums of two -/

/-- The types of error stand in order, each once, and there are no more details
than are kept. -/
structure Kept (s : Statistics) : Prop where
  sorted : Keyed.Sorted s.errorCounts
  room : s.topErrors.length ≤ maxTopErrors

/-- The counters of files. -/
def fileCounters : List (Statistics → Nat) :=
  [discovered, scanned, parsed, fallback, failed]

section Combine

variable {s t u start : Statistics} {parts : List Statistics}
  {count : Statistics → Nat}

theorem kept_empty : empty.Kept :=
  ⟨.nil, Nat.zero_le _⟩

theorem Kept.take_topErrors (kept : s.Kept) :
    s.topErrors.take maxTopErrors = s.topErrors :=
  List.take_of_length_le kept.room

theorem length_topErrors_combine (s t : Statistics) :
    (s.combine t).topErrors.length ≤ maxTopErrors := by
  rw [combine, List.length_take]
  exact Nat.min_le_left _ _

theorem kept_combine (first : s.Kept) : (s.combine t).Kept :=
  ⟨sorted_addCounts first.sorted _, length_topErrors_combine s t⟩

theorem combine_assoc (first : s.Kept) (second : t.Kept) (third : u.Kept) :
    (s.combine t).combine u = s.combine (t.combine u) := by
  simp only [combine, Nat.add_assoc, take_take_append, take_append_take,
    List.append_assoc,
    addCounts_assoc first.sorted second.sorted third.sorted]

theorem empty_combine (kept : s.Kept) : empty.combine s = s := by
  simp [combine, empty, addCounts_nil_left kept.sorted, kept.take_topErrors]

theorem combine_empty (kept : s.Kept) : s.combine empty = s := by
  simp [combine, empty, addCounts, kept.take_topErrors]

theorem associates_combine : Grouping.Associates Kept combine :=
  ⟨fun first _ => kept_combine first, combine_assoc⟩

theorem fileCounter_combine (member : count ∈ fileCounters) :
    count (s.combine t) = count s + count t := by
  simp only [fileCounters, List.mem_cons, List.not_mem_nil, or_false] at member
  rcases member with rfl | rfl | rfl | rfl | rfl <;> rfl

theorem errorsOf_combine (type : String) (first : s.Kept) (second : t.Kept) :
    (s.combine t).errorsOf type = s.errorsOf type + t.errorsOf type := by
  rw [errorsOf, combine, lookup_addCounts first.sorted second.sorted, errorsOf,
    errorsOf]
  cases s.errorCounts.lookup type <;> cases t.errorCounts.lookup type <;> simp

/-! ## Sums of many -/

theorem kept_foldl (begun : start.Kept) : (parts.foldl combine start).Kept := by
  induction parts generalizing start with
  | nil => exact begun
  | cons part rest ih => exact ih (kept_combine begun)

/-- What is added by each step is summed up by the run. -/
theorem count_foldl (count : Statistics → Nat)
    (adds : ∀ {s t : Statistics}, s.Kept → t.Kept →
      count (s.combine t) = count s + count t)
    (kept : ∀ part ∈ parts, part.Kept) (begun : start.Kept) :
    count (parts.foldl combine start) =
      count start + (parts.map count).sum := by
  induction parts generalizing start with
  | nil => rfl
  | cons part rest ih =>
      obtain ⟨here, later⟩ := List.forall_mem_cons.mp kept
      rw [List.foldl_cons, ih later (kept_combine begun), adds begun here,
        List.map_cons, List.sum_cons, Nat.add_assoc]

theorem mem_types_foldl {type : String} :
    type ∈ (parts.foldl combine start).errorCounts.map Prod.fst ↔
      type ∈ start.errorCounts.map Prod.fst ∨
        ∃ part ∈ parts, type ∈ part.errorCounts.map Prod.fst := by
  induction parts generalizing start with
  | nil => simp
  | cons part rest ih =>
      rw [List.foldl_cons, ih, combine, mem_keys_addCounts, or_assoc,
        List.exists_mem_cons_iff]

theorem topErrors_foldl (room : start.topErrors.length ≤ maxTopErrors) :
    (parts.foldl combine start).topErrors =
      (start.topErrors ++ parts.flatMap topErrors).take maxTopErrors := by
  induction parts generalizing start with
  | nil => simp [List.take_of_length_le room]
  | cons part rest ih =>
      rw [List.foldl_cons, ih (length_topErrors_combine start part), combine,
        take_take_append, List.flatMap_cons, List.append_assoc]

end Combine

end Statistics

/-! ## Sums of models -/

namespace Model

open Statistics

/-- The scanners of some inputs, each once, in order. -/
def scannersOf (inputs : List MergeInput) : List String :=
  (inputs.map fun input => input.result.scanner).dedup.insertionSort (· ≤ ·)

/-- The first input of lowest priority. -/
def firstLowest : List MergeInput → Option MergeInput
  | [] => none
  | input :: rest =>
      match firstLowest rest with
      | none => some input
      | some other =>
          if input.priority ≤ other.priority then some input else some other

/-- The statistics that count for a scanner: those of its first input of lowest
priority. -/
def statisticsOf (inputs : List MergeInput) (id : String) : Statistics :=
  match firstLowest (inputs.filter fun input => input.result.scanner = id) with
  | some input => input.result.statistics
  | none => .empty

section

variable {inputs : List MergeInput} {input : MergeInput} {id : String}

theorem mem_scannersOf :
    id ∈ scannersOf inputs ↔ ∃ input ∈ inputs, input.result.scanner = id := by
  rw [scannersOf, List.mem_insertionSort, List.mem_dedup, List.mem_map]

theorem pairwise_scannersOf (inputs : List MergeInput) :
    (scannersOf inputs).Pairwise (· < ·) := by
  have sorted : (scannersOf inputs).Pairwise (· ≤ ·) :=
    List.pairwise_insertionSort _ _
  have distinct : (scannersOf inputs).Nodup :=
    (List.perm_insertionSort _ _).nodup_iff.mpr (List.nodup_dedup _)
  exact sorted.imp₂ (fun _ _ le different =>
    Std.lt_of_le_of_ne le different) distinct

theorem mem_of_firstLowest (found : firstLowest inputs = some input) :
    input ∈ inputs := by
  induction inputs generalizing input with
  | nil => cases found
  | cons first rest ih =>
      rw [firstLowest] at found
      split at found
      · cases found
        exact List.mem_cons_self
      · next other later =>
          split at found
          · cases found
            exact List.mem_cons_self
          · cases found
            exact List.mem_cons_of_mem first (ih later)

theorem firstLowest_cons_of_le
    (lowest : ∀ other ∈ inputs, input.priority ≤ other.priority) :
    firstLowest (input :: inputs) = some input := by
  rw [firstLowest]
  split
  · rfl
  · next other found => exact if_pos (lowest other (mem_of_firstLowest found))

theorem firstLowest_append_of_lt {before : List MergeInput}
    (above : ∀ other ∈ before, input.priority < other.priority)
    (found : firstLowest inputs = some input) :
    firstLowest (before ++ inputs) = some input := by
  induction before with
  | nil => exact found
  | cons first before ih =>
      obtain ⟨here, later⟩ := List.forall_mem_cons.mp above
      rw [List.cons_append, firstLowest, ih later]
      exact if_neg (Int.not_le.mpr here)

theorem statisticsOf_of_isFirstLeast
    (least : IsFirstLeast (fun a b => a.priority < b.priority)
      (fun other => other.result.scanner = id) inputs input) :
    statisticsOf inputs id = input.result.statistics := by
  obtain ⟨before, after, rfl, own, earlier, later⟩ := least
  have above : ∀ other ∈ before.filter fun other => other.result.scanner = id,
      input.priority < other.priority := by
    intro other member
    obtain ⟨given, same⟩ := List.mem_filter.mp member
    exact earlier other given (of_decide_eq_true same)
  have lowest : ∀ other ∈ after.filter fun other => other.result.scanner = id,
      input.priority ≤ other.priority := by
    intro other member
    obtain ⟨given, same⟩ := List.mem_filter.mp member
    exact Int.not_lt.mp (later other given (of_decide_eq_true same))
  rw [statisticsOf, List.filter_append,
    List.filter_cons_of_pos (by simpa using own),
    firstLowest_append_of_lt above (firstLowest_cons_of_le lowest)]

theorem statistics_merge_eq (projectName : String) (inputs : List MergeInput) :
    (merge projectName inputs).statistics =
      (scannersOf inputs).map fun id => (id, statisticsOf inputs id) := by
  obtain ⟨-, -, -, -, -, -, kept⟩ := merge_keeps projectName inputs
  have sorted : Keyed.Sorted (merge projectName inputs).statistics :=
    sorted_collect .nil _
  have keys : (merge projectName inputs).statistics.map Prod.fst =
      scannersOf inputs := by
    refine List.Perm.eq_of_pairwise
      (fun a b _ _ less more => absurd more (String.lt_asymm less))
      sorted (pairwise_scannersOf inputs) ?_
    apply (List.perm_ext_iff_of_nodup kept.distinct
      ((pairwise_scannersOf inputs).imp fun less => String.ne_of_lt less)).mpr
    intro id
    rw [kept.complete, mem_scannersOf]
  rw [← keys, List.map_map]
  refine (List.map_id _).symm.trans (List.map_congr_left ?_)
  rintro ⟨id, statistics⟩ member
  obtain ⟨input, least, rfl⟩ := kept.origin id statistics member
  rw [Function.comp_apply, statisticsOf_of_isFirstLeast least]
  rfl

/-- The total takes each scanner once, in order. -/
theorem totalStatistics_merge (projectName : String)
    (inputs : List MergeInput) :
    (merge projectName inputs).totalStatistics =
      ((scannersOf inputs).map (statisticsOf inputs)).foldl combine empty := by
  rw [totalStatistics, statistics_merge_eq, List.foldl_map, List.foldl_map]
  rfl

theorem kept_statisticsOf
    (kept : ∀ input ∈ inputs, input.result.statistics.Kept) (id : String) :
    (statisticsOf inputs id).Kept := by
  unfold statisticsOf
  split
  · next input found =>
      have member := mem_of_firstLowest found
      exact kept input (List.mem_filter.mp member).1
  · exact kept_empty

end

/-- Adding statistics is associative, those of nothing change nothing, and the
order has no bearing on the counters and the counts of errors.  The total of a
merged model adds up what each scanner counted and has the first ten details in
the order of the scanners; it is what every grouping of their statistics comes
to. -/
theorem totalStatistics_in_any_grouping :
    (∀ s t u : Statistics, s.Kept → t.Kept → u.Kept →
      (s.combine t).combine u = s.combine (t.combine u) ∧
      empty.combine s = s ∧ s.combine empty = s ∧
      (∀ count ∈ fileCounters,
        count (s.combine t) = count (t.combine s)) ∧
      (s.combine t).errorCounts = (t.combine s).errorCounts) ∧
    ∀ (projectName : String) (inputs : List MergeInput),
      (∀ input ∈ inputs, input.result.statistics.Kept) →
      let total := (merge projectName inputs).totalStatistics
      let parts := (scannersOf inputs).map (statisticsOf inputs)
      total.Kept ∧
      (∀ count ∈ fileCounters, count total = (parts.map count).sum) ∧
      (∀ type, total.errorsOf type =
        (parts.map fun part => part.errorsOf type).sum) ∧
      (∀ type, type ∈ total.errorCounts.map Prod.fst ↔
        ∃ part ∈ parts, type ∈ part.errorCounts.map Prod.fst) ∧
      total.topErrors = (parts.flatMap topErrors).take 10 ∧
      ∀ grouping : Grouping Statistics, grouping.items = parts →
        grouping.value combine = total := by
  refine ⟨?laws, ?model⟩
  case laws =>
    intro s t u first second third
    refine ⟨combine_assoc first second third, empty_combine first,
      combine_empty first, ?_, addCounts_comm first.sorted second.sorted⟩
    intro count member
    rw [fileCounter_combine member, fileCounter_combine member, Nat.add_comm]
  case model =>
    intro projectName inputs kept total parts
    have keptParts : ∀ part ∈ parts, part.Kept :=
      List.forall_mem_map.mpr fun id _ => kept_statisticsOf kept id
    have folded : total = parts.foldl combine empty :=
      totalStatistics_merge projectName inputs
    rw [folded]
    refine ⟨kept_foldl kept_empty, ?_, ?_, ?_,
      topErrors_foldl kept_empty.room, ?_⟩
    · intro count member
      have nothing : count empty = 0 := by
        revert count
        decide
      rw [count_foldl count (fun _ _ => fileCounter_combine member) keptParts
        kept_empty, nothing, Nat.zero_add]
    · intro type
      have summed := count_foldl (fun s => s.errorsOf type)
        (errorsOf_combine type) keptParts kept_empty
      exact summed.trans (Nat.zero_add _)
    · intro type
      simp [mem_types_foldl, empty]
    · intro grouping whole
      have each : ∀ part ∈ grouping.items, part.Kept := whole ▸ keptParts
      have joined := associates_combine.join_value kept_empty each
      rwa [empty_combine (associates_combine.holds_value each), whole] at joined

/-- Three scanners, one of them with a second result that does not count; one
detail has no place any more. -/
theorem totalStatistics_in_any_grouping_shop :
    let routes : Statistics :=
      { discovered := 4, scanned := 3, parsed := 2, failed := 1
        errorCounts := [("read", 1)], topErrors := ["app.py: denied"] }
    let messages : Statistics :=
      { discovered := 9, scanned := 9, failed := 9
        errorCounts := [("fallback", 8), ("read", 1)]
        topErrors := List.replicate 10 "A.java: boom" }
    let later : Statistics :=
      { discovered := 2, scanned := 2, fallback := 2
        errorCounts := [("none", 0)] }
    let inputs : List MergeInput :=
      [⟨50, .succeeded "messages" {} [] later⟩,
        ⟨10, .succeeded "messages" {} [] messages⟩,
        ⟨50, .succeeded "api" {} [] routes⟩,
        ⟨50, .succeeded "schema" {} [] later⟩]
    let total := (merge "shop" inputs).totalStatistics
    let grouping : Grouping Statistics :=
      .both (.one routes) (.both (.one messages) (.one later))
    (∀ input ∈ inputs, input.result.statistics.Kept) ∧
    (routes.combine messages).combine later =
      routes.combine (messages.combine later) ∧
    empty.combine messages = messages ∧ messages.combine empty = messages ∧
    (routes.combine messages).errorCounts =
      (messages.combine routes).errorCounts ∧
    total.scanned = 14 ∧ total.failed = 10 ∧
    total.errorsOf "read" = 2 ∧ "none" ∈ total.errorCounts.map Prod.fst ∧
    total.topErrors =
      "app.py: denied" :: List.replicate 9 "A.java: boom" ∧
    grouping.value combine = total := by
  intro routes messages later inputs total grouping
  have keptRoutes : routes.Kept := ⟨List.pairwise_singleton _ _, by decide⟩
  have keptMessages : messages.Kept := by
    refine ⟨?_, by decide⟩
    unfold Keyed.Sorted
    decide
  have keptLater : later.Kept := ⟨List.pairwise_singleton _ _, by decide⟩
  have kept : ∀ input ∈ inputs, input.result.statistics.Kept := by
    simp only [inputs, List.forall_mem_cons]
    exact ⟨keptLater, keptMessages, keptRoutes, keptLater,
      List.forall_mem_nil _⟩
  have parts : (scannersOf inputs).map (statisticsOf inputs) =
      [routes, messages, later] := by decide
  obtain ⟨laws, model⟩ := totalStatistics_in_any_grouping
  obtain ⟨assoc, -, -, -, counts⟩ :=
    laws routes messages later keptRoutes keptMessages keptLater
  obtain ⟨-, left, right, -, -⟩ :=
    laws messages routes later keptMessages keptRoutes keptLater
  obtain ⟨-, counters, errors, types, details, grouped⟩ :=
    model "shop" inputs kept
  rw [parts] at counters errors types details grouped
  refine ⟨kept, assoc, left, right, counts, ?_, ?_, ?_, ?_, details,
    grouped grouping rfl⟩
  · exact counters scanned (by simp [fileCounters])
  · exact counters failed (by simp [fileCounters])
  · exact errors "read"
  · exact (types "none").mpr ⟨later, by simp, by decide⟩

/-- The details of two statistics stand in their order. -/
example :
    let first : Statistics := { topErrors := ["a"] }
    let second : Statistics := { topErrors := ["b"] }
    first.combine second ≠ second.combine first := by decide

end Model

end ArchSurvey
