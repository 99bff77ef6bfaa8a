import ArchSurvey.Proofs.Config.Check
import ArchSurvey.Proofs.Keyed
import ArchSurvey.Scan.Registry
import ArchSurvey.Survey.Project

/-!
# Surveys of projects

Registries of scanners, and the surveys that configurations ask for.
-/

/-!
## Laws of registries

A registry that is made of scanners with distinct identities lists these scanners
and no others.
-/

namespace ArchSurvey.Registry

/-- The registry with one more scanner, if its identity is new. -/
def offer (registry : Registry) (scanner : Scanner) : Registry :=
  (registry.register scanner).toOption.getD registry

theorem ofList_eq_foldl (scanners : List Scanner) :
    ofList scanners = scanners.foldl offer {} :=
  rfl

section

variable {registry : Registry} {scanner : Scanner}
  (sorted : Keyed.Sorted registry.scanners)
  (fresh : scanner.id ∉ registry.scanners.map Prod.fst)

include sorted fresh

/-- A scanner with a new identity joins those that are there. -/
theorem mem_offer_iff {entry : String × Scanner} :
    entry ∈ (registry.offer scanner).scanners ↔
      entry = (scanner.id, scanner) ∨ entry ∈ registry.scanners := by
  have absent : registry.get? scanner.id = none := Keyed.lookup_eq_none fresh
  have grown : (registry.offer scanner).scanners =
      Keyed.insert scanner.id scanner registry.scanners := by
    rw [offer, register, absent]
    rfl
  obtain ⟨name, held⟩ := entry
  rw [grown, sorted.mem_insert_iff, Prod.mk.injEq]
  split
  · next same =>
      subst same
      have outside : (scanner.id, held) ∉ registry.scanners := fun member =>
        fresh (List.mem_map_of_mem member)
      simp [outside]
  · next different => simp [different]

theorem sorted_offer : Keyed.Sorted (registry.offer scanner).scanners := by
  have absent : registry.get? scanner.id = none := Keyed.lookup_eq_none fresh
  rw [offer, register, absent]
  exact sorted.insert _ _

end

/-- Scanners with distinct and new identities all join those that are there. -/
theorem mem_foldl_offer_iff {scanners : List Scanner} {registry : Registry}
    (sorted : Keyed.Sorted registry.scanners)
    (distinct : (scanners.map Scanner.id).Nodup)
    (fresh : ∀ scanner ∈ scanners,
      scanner.id ∉ registry.scanners.map Prod.fst)
    {entry : String × Scanner} :
    entry ∈ (scanners.foldl offer registry).scanners ↔
      entry ∈ registry.scanners ∨
        ∃ scanner ∈ scanners, entry = (scanner.id, scanner) := by
  induction scanners generalizing registry with
  | nil => simp
  | cons scanner rest ih =>
      obtain ⟨apart, distinctRest⟩ := List.nodup_cons.mp distinct
      have freshHere := fresh scanner List.mem_cons_self
      have joined : ∀ entry, entry ∈ (registry.offer scanner).scanners ↔
          entry = (scanner.id, scanner) ∨ entry ∈ registry.scanners :=
        fun entry => mem_offer_iff sorted freshHere
      have freshRest : ∀ other ∈ rest,
          other.id ∉ (registry.offer scanner).scanners.map Prod.fst := by
        intro other member known
        obtain ⟨pair, held, name⟩ := List.mem_map.mp known
        rcases (joined pair).mp held with rfl | before
        · have same : scanner.id = other.id := name
          rw [same] at apart
          exact apart (List.mem_map_of_mem member)
        · have absent := fresh other (List.mem_cons_of_mem _ member)
          rw [← name] at absent
          exact absent (List.mem_map_of_mem before)
      rw [List.foldl_cons, ih (sorted_offer sorted freshHere) distinctRest
        freshRest, joined]
      simp only [List.mem_cons, exists_eq_or_imp, or_assoc, or_left_comm]

/-- A registry lists the scanners that it was made of. -/
theorem mem_list_ofList_iff {scanners : List Scanner}
    (distinct : (scanners.map Scanner.id).Nodup) {scanner : Scanner} :
    scanner ∈ (ofList scanners).list ↔ scanner ∈ scanners := by
  have holds : ∀ entry, entry ∈ (ofList scanners).scanners ↔
      entry ∈ ({} : Registry).scanners ∨
        ∃ scanner ∈ scanners, entry = (scanner.id, scanner) := by
    intro entry
    rw [ofList_eq_foldl]
    exact mem_foldl_offer_iff .nil distinct fun _ _ => List.not_mem_nil
  rw [list, List.mem_mergeSort, List.mem_map]
  constructor
  · rintro ⟨entry, held, rfl⟩
    rcases (holds entry).mp held with before | ⟨given, member, rfl⟩
    · cases before
    · exact member
  · intro given
    exact ⟨(scanner.id, scanner), (holds _).mpr (Or.inr ⟨scanner, given, rfl⟩),
      rfl⟩

end ArchSurvey.Registry

/-!
## Surveys by configurations

A configuration that passes its checks gives every project a context, which
holds no results yet; and the survey that it asks for has built-in scanners
only.
-/

namespace ArchSurvey

theorem nodup_ids_builtinScanners (grammars : Bool) :
    ((builtinScanners grammars).map Scanner.id).Nodup := by
  cases grammars <;> decide

/-- The survey that a configuration asks for has the built-in scanners that it
selects. -/
theorem mem_ofConfig_iff {grammars : Bool} {config : ProjectConfig}
    {scanner : Scanner} :
    scanner ∈ (Survey.ofConfig (builtinRegistry grammars) config).scanners ↔
      scanner ∈ builtinScanners grammars ∧
        config.scanners.selects scanner.id = true := by
  rw [Survey.ofConfig, Registry.select, List.mem_filter, builtinRegistry,
    Registry.mem_list_ofList_iff (nodup_ids_builtinScanners grammars)]

theorem mem_builtinScanners_of_mem_ofConfig {grammars : Bool}
    {config : ProjectConfig} {scanner : Scanner}
    (member : scanner ∈
      (Survey.ofConfig (builtinRegistry grammars) config).scanners) :
    scanner ∈ builtinScanners grammars :=
  (mem_ofConfig_iff.mp member).1

namespace Context

variable {disk : Disk} {root : String} {config : ProjectConfig}

/-- A configuration that passes its checks gives every project a context. -/
theorem exists_ofConfig_of_check (valid : config.check = .ok ())
    (disk : Disk) (root : String) :
    ∃ context, ofConfig disk root config = .ok context := by
  obtain ⟨-, -, -, -, readable⟩ := ProjectConfig.check_eq_ok_iff.mp valid
  obtain ⟨globs, read⟩ := ProjectConfig.checkExcludes_eq_ok_iff.mp readable
  rw [ofConfig, withExcludes, read]
  exact ⟨_, rfl⟩

/-- A context by a configuration holds no results yet. -/
theorem previous_ofConfig {context : Context}
    (made : ofConfig disk root config = .ok context) :
    context.previous = [] := by
  rw [ofConfig, withExcludes] at made
  cases read : config.scan.exclude.mapM Glob.ofText with
  | error error =>
      rw [read] at made
      cases made
  | ok globs =>
      rw [read] at made
      cases made
      rfl

end Context

section

variable {disk : Disk} {root : String} {config : ProjectConfig}
  {timing : Timing} {grammars : Bool}

theorem surveyProject_of_made {context : Context}
    (made : Context.ofConfig disk root config = .ok context) (timing : Timing)
    (grammars : Bool) :
    surveyProject timing grammars disk root config =
      .ok ((Survey.ofConfig (builtinRegistry grammars) config).run timing
        context) := by
  rw [surveyProject, made]
  rfl

theorem surveyProject_eq_ok_iff {attempt : Attempt SurveyReport} :
    surveyProject timing grammars disk root config = .ok attempt ↔
      ∃ context, Context.ofConfig disk root config = .ok context ∧
        (Survey.ofConfig (builtinRegistry grammars) config).run timing context =
          attempt := by
  cases made : Context.ofConfig disk root config with
  | error error =>
      rw [surveyProject, made]
      simp [bind, Except.bind]
  | ok context =>
      rw [surveyProject_of_made made]
      simp

end

end ArchSurvey
