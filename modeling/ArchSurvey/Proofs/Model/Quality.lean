import ArchSurvey.Model.Quality
import ArchSurvey.Proofs.Keyed
import Mathlib.Algebra.GroupWithZero.Nat

/-!
# Laws of quality reports

A quality report does not depend on the order of the results, as long as no two
are of one scanner.  Each result leaves gaps of its own scanner, one error if it
failed and none otherwise, so the errors among the gaps are the failed results.
Where every success accounts for its scanned files, so does the report.
-/

namespace ArchSurvey

/-- Counts may be added in any order. -/
theorem Statistics.addCounts_addCounts
    (counts first second : List (String × Nat)) :
    addCounts (addCounts counts first) second =
      addCounts (addCounts counts second) first := by
  rw [addCounts, addCounts, ← List.foldl_append, addCounts, addCounts,
    ← List.foldl_append]
  exact List.perm_append_comm.foldl_eq'
    (fun _ _ _ _ held => Keyed.add_add _ _ _ _ held) counts

namespace Quality

variable {results others : List ScanResult} {result : ScanResult} {gap : Gap}

/-! ## The order of the results -/

/-- Results of different scanners, sorted by scanner. -/
theorem pairwise_scanner_mergeSort
    (distinct : (results.map ScanResult.scanner).Nodup) :
    (results.mergeSort fun a b => a.scanner ≤ b.scanner).Pairwise
      fun a b => a.scanner < b.scanner := by
  have sorted : (results.mergeSort fun a b => a.scanner ≤ b.scanner).Pairwise
      fun a b => decide (a.scanner ≤ b.scanner) = true :=
    List.pairwise_mergeSort
      (fun _ _ _ first second => by
        simpa using String.le_trans (by simpa using first) (by simpa using second))
      (fun a b => by simpa using String.le_total a.scanner b.scanner) results
  have permuted := (List.mergeSort_perm results
    fun a b => a.scanner ≤ b.scanner).map ScanResult.scanner
  have apart := List.pairwise_map.mp (permuted.symm.nodup distinct)
  exact sorted.imp₂ (fun _ _ le different =>
    Std.lt_of_le_of_ne (of_decide_eq_true le) different) apart

theorem gapsOfAll_eq_of_perm
    (distinct : (results.map ScanResult.scanner).Nodup)
    (permuted : others.Perm results) :
    gapsOfAll others = gapsOfAll results := by
  have distinctOthers : (others.map ScanResult.scanner).Nodup :=
    (permuted.map ScanResult.scanner).symm.nodup distinct
  have sorted : (others.mergeSort fun a b => a.scanner ≤ b.scanner) =
      results.mergeSort fun a b => a.scanner ≤ b.scanner :=
    List.Perm.eq_of_pairwise
      (fun a b _ _ less more => absurd more (String.lt_asymm less))
      (pairwise_scanner_mergeSort distinctOthers)
      (pairwise_scanner_mergeSort distinct)
      ((List.mergeSort_perm others _).trans
        (permuted.trans (List.mergeSort_perm results _).symm))
  rw [gapsOfAll, gapsOfAll, sorted]

theorem ofResults_eq_of_perm (total : Nat)
    (distinct : (results.map ScanResult.scanner).Nodup)
    (permuted : others.Perm results) :
    ofResults total others = ofResults total results := by
  have succeeded := permuted.filter ScanResult.success
  have summed (count : ScanResult → Nat) :
      (others.filter ScanResult.success).foldl
          (fun files result => files + count result) 0 =
        (results.filter ScanResult.success).foldl
          (fun files result => files + count result) 0 :=
    succeeded.foldl_eq'
      (fun _ _ _ _ files => Nat.add_right_comm files _ _) 0
  have counted :
      (others.filter ScanResult.success).foldl (fun counts result =>
          Statistics.addCounts counts result.findings.counts) [] =
        (results.filter ScanResult.success).foldl (fun counts result =>
          Statistics.addCounts counts result.findings.counts) [] :=
    succeeded.foldl_eq'
      (fun _ _ _ _ counts => Statistics.addCounts_addCounts counts _ _) []
  unfold Statistics.addCounts at counted
  simp only [ofResults, summed, counted, permuted.length_eq,
    permuted.countP_eq, gapsOfAll_eq_of_perm distinct permuted]

/-! ## Gaps -/

/-- The gaps of a result are those of its scanner, and only a failed one leaves
an error. -/
theorem of_mem_gapsOf (member : gap ∈ gapsOf result) :
    gap.scanner = result.scanner ∧
      (gap.severity = .error → result.success = false) := by
  rw [gapsOf] at member
  split at member
  · rw [List.mem_append, List.mem_append] at member
    rcases member with (warned | unread) | fallenBack
    · rw [warningGap] at warned
      split at warned
      · cases warned
      · rw [List.mem_singleton.mp warned]
        exact ⟨rfl, nofun⟩
    · rw [failureRateGap] at unread
      split at unread
      · rw [List.mem_singleton.mp unread]
        exact ⟨rfl, nofun⟩
      · cases unread
    · rw [fallbackGap] at fallenBack
      split at fallenBack
      · rw [List.mem_singleton.mp fallenBack]
        exact ⟨rfl, nofun⟩
      · cases fallenBack
  · next failed =>
      rw [List.mem_singleton.mp member]
      exact ⟨rfl, fun _ => by simpa using failed⟩

theorem scanner_of_mem_gapsOf (member : gap ∈ gapsOf result) :
    gap.scanner = result.scanner :=
  (of_mem_gapsOf member).1

theorem severity_of_mem_gapsOf (succeeded : result.success = true)
    (member : gap ∈ gapsOf result) : gap.severity ≠ .error := by
  intro error
  rw [(of_mem_gapsOf member).2 error] at succeeded
  cases succeeded

theorem gapsOf_of_failed (failed : result.success = false) :
    gapsOf result = [failureGap result] := by
  rw [gapsOf, failed]
  rfl

theorem pairwise_gapsOfAll (distinct : (results.map ScanResult.scanner).Nodup) :
    (gapsOfAll results).Pairwise fun a b => a.scanner ≤ b.scanner := by
  rw [gapsOfAll, List.pairwise_flatMap]
  constructor
  · intro result _
    apply List.pairwise_of_forall_mem_list
    intro gap member other memberToo
    have same : gap.scanner = other.scanner :=
      (scanner_of_mem_gapsOf member).trans
        (scanner_of_mem_gapsOf memberToo).symm
    exact same ▸ String.le_refl _
  · refine (pairwise_scanner_mergeSort distinct).imp ?_
    intro a b less gap member other memberToo
    rw [scanner_of_mem_gapsOf member, scanner_of_mem_gapsOf memberToo]
    exact Std.le_of_lt less

/-- The gaps of a scanner are those that its result leaves. -/
theorem filter_gapsOfAll (distinct : (results.map ScanResult.scanner).Nodup)
    (member : result ∈ results) :
    ((gapsOfAll results).filter fun gap => gap.scanner == result.scanner) =
      gapsOf result := by
  have own : ((gapsOf result).filter fun gap =>
      gap.scanner == result.scanner) = gapsOf result :=
    List.filter_eq_self.mpr fun gap inside =>
      beq_iff_eq.mpr (scanner_of_mem_gapsOf inside)
  have foreign {other : ScanResult} (apart : other.scanner ≠ result.scanner) :
      ((gapsOf other).filter fun gap => gap.scanner == result.scanner) = [] :=
    List.filter_eq_nil_iff.mpr fun gap inside same =>
      apart ((scanner_of_mem_gapsOf inside).symm.trans (beq_iff_eq.mp same))
  have ascending := pairwise_scanner_mergeSort distinct
  obtain ⟨before, after, sorted⟩ :=
    List.append_of_mem (List.mem_mergeSort.mpr member)
  rw [sorted, List.pairwise_append, List.pairwise_cons] at ascending
  obtain ⟨-, ⟨above, -⟩, below⟩ := ascending
  rw [gapsOfAll, sorted, List.filter_flatMap, List.flatMap_append,
    List.flatMap_cons, own]
  have noneBefore : before.flatMap (fun other => (gapsOf other).filter
      fun gap => gap.scanner == result.scanner) = [] :=
    List.flatMap_eq_nil_iff.mpr fun other inside =>
      foreign (String.ne_of_lt (below other inside result List.mem_cons_self))
  have noneAfter : after.flatMap (fun other => (gapsOf other).filter
      fun gap => gap.scanner == result.scanner) = [] :=
    List.flatMap_eq_nil_iff.mpr fun other inside =>
      foreign (String.ne_of_lt (above other inside)).symm
  rw [noneBefore, noneAfter, List.nil_append, List.append_nil]

theorem countP_gapsOf (result : ScanResult) :
    (gapsOf result).countP (fun gap => gap.severity == .error) =
      if result.success then 0 else 1 := by
  cases succeeded : result.success with
  | true =>
      apply List.countP_eq_zero.mpr
      intro gap member
      simpa using severity_of_mem_gapsOf succeeded member
  | false =>
      rw [gapsOf_of_failed succeeded]
      rfl

/-- The errors among the gaps are the failed results. -/
theorem countP_gapsOfAll (results : List ScanResult) :
    (gapsOfAll results).countP (fun gap => gap.severity == .error) =
      results.countP fun result => !result.success := by
  have each (results : List ScanResult) :
      (results.flatMap gapsOf).countP (fun gap => gap.severity == .error) =
        results.countP fun result => !result.success := by
    induction results with
    | nil => rfl
    | cons result rest ih =>
        rw [List.flatMap_cons, List.countP_append, countP_gapsOf, ih,
          List.countP_cons]
        cases result.success <;> simp [Nat.add_comm]
  rw [gapsOfAll, each, (List.mergeSort_perm results _).countP_eq]

/-! ## Counts of files -/

theorem foldl_add (count : ScanResult → Nat) (results : List ScanResult)
    (start : Nat) :
    results.foldl (fun files result => files + count result) start =
      start + (results.map count).sum := by
  induction results generalizing start with
  | nil => rfl
  | cons result rest ih =>
      rw [List.foldl_cons, ih, List.map_cons, List.sum_cons, Nat.add_assoc]

/-- The scanned files of results that account for them, by their confidence. -/
theorem sum_filesWith
    (accounted : ∀ result ∈ results, result.statistics.scanned =
      result.statistics.parsed + result.statistics.fallback +
        result.statistics.failed) :
    (results.map (filesWith .high)).sum + (results.map (filesWith .medium)).sum +
        (results.map (filesWith .low)).sum =
      (results.map fun result => result.statistics.scanned).sum := by
  induction results with
  | nil => rfl
  | cons result rest ih =>
      obtain ⟨here, later⟩ := List.forall_mem_cons.mp accounted
      have total := ih later
      simp only [List.map_cons, List.sum_cons, filesWith, here] at total ⊢
      omega

theorem sum_filesByConfidence (total : Nat)
    (accounted : ∀ result ∈ results, result.success = true →
      result.statistics.scanned =
        result.statistics.parsed + result.statistics.fallback +
          result.statistics.failed) :
    ((ofResults total results).filesByConfidence.map Prod.snd).sum =
      (ofResults total results).filesAnalyzed := by
  have scanned := sum_filesWith fun result member =>
    accounted result (List.mem_filter.mp member).1 (List.mem_filter.mp member).2
  simp only [ofResults, Confidence.all, List.map_cons, List.map_nil,
    List.sum_cons, List.sum_nil, foldl_add]
  omega

/-! ## Reports -/

/-- The parts of a quality report on results of different scanners agree with
each other, whatever the order of the results. -/
theorem ofResults_agrees (total : Nat) (results : List ScanResult)
    (distinct : (results.map ScanResult.scanner).Nodup) :
    let quality := ofResults total results
    (∀ others : List ScanResult, others.Perm results →
      ofResults total others = quality) ∧
    quality.gaps.Pairwise (fun a b => a.scanner ≤ b.scanner) ∧
    (∀ result ∈ results, result.success = false →
      ∃ gap, gap.severity = .error ∧
        (quality.gaps.filter fun gap => gap.scanner == result.scanner) =
          [gap]) ∧
    (∀ result ∈ results, result.success = true →
      ∀ gap ∈ quality.gaps, gap.scanner = result.scanner →
        gap.severity ≠ .error) ∧
    quality.scannersFailed =
      quality.gaps.countP (fun gap => gap.severity == .error) ∧
    (quality.hasErrors = true ↔
      ∃ result ∈ results, result.success = false) ∧
    ((∀ result ∈ results, result.success = true →
        result.statistics.scanned =
          result.statistics.parsed + result.statistics.fallback +
            result.statistics.failed) →
      (quality.filesByConfidence.map Prod.snd).sum =
        quality.filesAnalyzed) := by
  intro quality
  refine ⟨fun others permuted => ofResults_eq_of_perm total distinct permuted,
    pairwise_gapsOfAll distinct, ?_, ?_, (countP_gapsOfAll results).symm, ?_,
    sum_filesByConfidence total⟩
  · intro result member failed
    refine ⟨failureGap result, rfl, ?_⟩
    rw [← gapsOf_of_failed failed]
    exact filter_gapsOfAll distinct member
  · intro result member succeeded gap inside same
    have own : gap ∈ gapsOf result := by
      rw [← filter_gapsOfAll distinct member]
      exact List.mem_filter.mpr ⟨inside, beq_iff_eq.mpr same⟩
    exact severity_of_mem_gapsOf succeeded own
  · have counted := countP_gapsOfAll results
    rw [hasErrors, List.any_eq_true, ← List.countP_pos_iff]
    change 0 < (gapsOfAll results).countP _ ↔ _
    rw [counted, List.countP_pos_iff]
    simp

theorem ofResults_agrees_degraded :
    let broken : ScanResult := .failed "maven" ["cannot read pom.xml"]
    let degraded : ScanResult := .succeeded "flask" {} []
      { discovered := 4, scanned := 4, parsed := 1, fallback := 1, failed := 2 }
    let warned : ScanResult :=
      .succeeded "kafka" {} ["unsupported syntax in app.py"]
        { discovered := 2, scanned := 1, parsed := 1 }
    let results := [broken, degraded, warned]
    let quality := ofResults 20 results
    (results.map ScanResult.scanner).Nodup ∧
      [warned, broken, degraded].Perm results ∧
      ofResults 20 [warned, broken, degraded] = quality ∧
      broken ∈ results ∧ broken.success = false ∧
      (∃ gap, gap.severity = .error ∧
        (quality.gaps.filter fun gap => gap.scanner == "maven") = [gap]) ∧
      degraded ∈ results ∧ degraded.success = true ∧
      (∀ gap ∈ quality.gaps, gap.scanner = "flask" → gap.severity ≠ .error) ∧
      quality.hasErrors = true ∧
      (∀ result ∈ results, result.success = true →
        result.statistics.scanned =
          result.statistics.parsed + result.statistics.fallback +
            result.statistics.failed) ∧
      (quality.filesByConfidence.map Prod.snd).sum = 5 := by
  intro broken degraded warned results quality
  have distinct : (results.map ScanResult.scanner).Nodup := by decide
  have permuted : [warned, broken, degraded].Perm results :=
    (List.perm_append_comm : ([warned] ++ [broken, degraded]).Perm _)
  have accounted : ∀ result ∈ results, result.success = true →
      result.statistics.scanned =
        result.statistics.parsed + result.statistics.fallback +
          result.statistics.failed := by decide
  obtain ⟨same, -, failed, succeeded, -, errors, summed⟩ :=
    ofResults_agrees 20 results distinct
  exact ⟨distinct, permuted, same _ permuted, by simp [results], rfl,
    failed broken (by simp [results]) rfl, by simp [results], rfl,
    succeeded degraded (by simp [results]) rfl,
    errors.mpr ⟨broken, by simp [results], rfl⟩, accounted, summed accounted⟩

end Quality

end ArchSurvey
