import ArchSurvey.Proofs.Survey.Project
import ArchSurvey.Proofs.Survey.Run
import Mathlib.Data.List.Induction

/-!
# Choosing scanners

A registry comes from a series of calls that each offer a scanner.  It holds the
first scanner offered under each identity, so calls for different identities may
be made in any order.  A choice admits scanners by its mode, which is given or
else called for by its lists, and what it admits is chosen in the order of the
registry.
-/

namespace ArchSurvey

/-! ## Registration -/

namespace Registry

/-- The entries stand in the order of the identities, each under its own. -/
structure Sound (registry : Registry) : Prop where
  sorted : Keyed.Sorted registry.scanners
  named : ∀ entry ∈ registry.scanners, entry.2.id = entry.1

section

variable {registry : Registry} (sound : registry.Sound) (scanner : Scanner)

include sound

/-- A call keeps what is held under the identity, if anything is. -/
theorem scanners_offer :
    (registry.offer scanner).scanners =
      Keyed.insertNew scanner.id scanner registry.scanners := by
  by_cases known : scanner.id ∈ registry.scanners.map Prod.fst
  · rw [Keyed.insertNew_of_mem sound.sorted known]
    cases held : registry.get? scanner.id with
    | some first =>
        rw [offer, register, held]
        rfl
    | none =>
        obtain ⟨entry, member, named⟩ := List.mem_map.mp known
        have absent := List.lookup_eq_none_iff.mp held entry member
        simp [named] at absent
  · have absent : registry.get? scanner.id = none := Keyed.lookup_eq_none known
    rw [offer, register, absent]
    exact Keyed.insert_eq_insertNew known scanner

theorem get?_offer (id : String) :
    (registry.offer scanner).get? id =
      if id = scanner.id then some ((registry.get? id).getD scanner)
      else registry.get? id := by
  rw [get?, scanners_offer sound, Keyed.lookup_insertNew sound.sorted]
  split
  · next same => rw [same, get?]
  · rfl

theorem Sound.offer : (registry.offer scanner).Sound where
  sorted := by
    rw [scanners_offer sound]
    exact sound.sorted.insertNew _ _
  named := by
    intro (id, held) member
    have sorted : Keyed.Sorted (registry.offer scanner).scanners := by
      rw [scanners_offer sound]
      exact sound.sorted.insertNew _ _
    have found : (registry.offer scanner).get? id = some held :=
      sorted.mem_iff_lookup.mp member
    rw [get?_offer sound] at found
    split at found
    · next same =>
        cases before : registry.get? id with
        | none =>
            rw [before] at found
            obtain rfl := Option.some.inj found
            exact same.symm
        | some first =>
            rw [before] at found
            obtain rfl := Option.some.inj found
            exact sound.named _ (sound.sorted.mem_iff_lookup.mpr before)
    · exact sound.named _ (sound.sorted.mem_iff_lookup.mpr found)

end

theorem ofList_append_singleton (calls : List Scanner) (scanner : Scanner) :
    ofList (calls ++ [scanner]) = (ofList calls).offer scanner := by
  rw [ofList_eq_foldl, List.foldl_append, ← ofList_eq_foldl]
  rfl

theorem sound_ofList (calls : List Scanner) : (ofList calls).Sound := by
  have keeps : ∀ registry : Registry, registry.Sound →
      (calls.foldl offer registry).Sound := by
    induction calls with
    | nil => exact fun registry sound => sound
    | cons scanner rest ih =>
        exact fun registry sound => ih _ (sound.offer scanner)
  exact keeps {} ⟨.nil, fun _ member => absurd member List.not_mem_nil⟩

/-- What is held under an identity is the first scanner that was offered under
it. -/
theorem get?_ofList (calls : List Scanner) (id : String) :
    (ofList calls).get? id = calls.find? fun call => call.id == id := by
  induction calls using List.reverseRecOn with
  | nil => rfl
  | append_singleton calls scanner ih =>
      rw [ofList_append_singleton, get?_offer (sound_ofList calls), ih,
        List.find?_append]
      by_cases same : id = scanner.id
      · subst same
        rw [if_pos rfl, List.find?_singleton, beq_self_eq_true]
        cases calls.find? fun call => call.id == scanner.id <;> rfl
      · have other : (scanner.id == id) = false := by
          simpa using Ne.symm same
        rw [if_neg same, List.find?_singleton, other]
        simp

theorem exists_get?_ofList_iff {calls : List Scanner} {id : String} :
    (∃ first, (ofList calls).get? id = some first) ↔
      id ∈ calls.map Scanner.id := by
  rw [get?_ofList, ← Option.isSome_iff_exists, List.find?_isSome]
  simp

/-- A call is refused exactly if its identity was offered before. -/
theorem register_ofList (calls : List Scanner) (scanner : Scanner) :
    (ofList calls).register scanner =
      if scanner.id ∈ calls.map Scanner.id then
        .error (.duplicateScanner scanner.id)
      else .ok (ofList (calls ++ [scanner])) := by
  by_cases known : scanner.id ∈ calls.map Scanner.id
  · obtain ⟨first, held⟩ := exists_get?_ofList_iff.mpr known
    rw [if_pos known, register, held]
  · have absent : (ofList calls).get? scanner.id = none := by
      rw [← exists_get?_ofList_iff, not_exists] at known
      exact Option.eq_none_iff_forall_ne_some.mpr known
    rw [if_neg known, ofList_append_singleton, offer, register, absent]
    rfl

/-- A refused call changes nothing. -/
theorem ofList_append_of_known {calls : List Scanner} {scanner : Scanner}
    (known : scanner.id ∈ calls.map Scanner.id) :
    ofList (calls ++ [scanner]) = ofList calls := by
  rw [ofList_append_singleton, offer, register_ofList, if_pos known]
  rfl

/-- Calls that offer the same scanner first under each identity make the same
registry. -/
theorem ofList_eq_of_firsts {calls others : List Scanner}
    (firsts : ∀ id, (others.find? fun call => call.id == id) =
      calls.find? fun call => call.id == id) :
    ofList others = ofList calls := by
  have same : (ofList others).scanners = (ofList calls).scanners := by
    apply (sound_ofList others).sorted.ext (sound_ofList calls).sorted
    intro id
    change (ofList others).get? id = (ofList calls).get? id
    rw [get?_ofList, get?_ofList, firsts]
  exact congrArg Registry.mk same

section

variable {registry : Registry} (sound : registry.Sound)

include sound

theorem pairwise_precedes_list : registry.list.Pairwise Scanner.Precedes := by
  apply pairwise_precedes_mergeSort
  have ids : (registry.scanners.map Prod.snd).map Scanner.id =
      registry.scanners.map Prod.fst := by
    rw [List.map_map]
    exact List.map_congr_left sound.named
  rw [ids]
  exact sound.sorted.nodup

theorem mem_list_iff {scanner : Scanner} :
    scanner ∈ registry.list ↔ registry.get? scanner.id = some scanner := by
  rw [list, List.mem_mergeSort, List.mem_map, get?,
    ← sound.sorted.mem_iff_lookup]
  constructor
  · rintro ⟨entry, member, rfl⟩
    rw [sound.named entry member]
    exact member
  · intro member
    exact ⟨_, member, rfl⟩

end

end Registry

/-! ## Ways to choose -/

theorem Groups.mem_scanners_iff {groups : List String} {id : String} :
    id ∈ scanners groups ↔
      ∃ group ∈ groups, id ∈ (all.lookup group).getD [] := by
  rw [scanners, List.mem_mergeSort, List.mem_eraseDups, members,
    List.mem_flatMap]

theorem Groups.includes_iff {groups : List String} {id : String} :
    includes groups id = true ↔ id ∈ scanners groups := by
  rw [includes, List.contains_iff_mem, mem_scanners_iff, members,
    List.mem_flatMap]

namespace ScannerSelection

/-- The mode of a choice is the one that is given, or else the one that its
lists call for, groups first. -/
inductive HasMode (selection : ScannerSelection) : SelectionMode → Prop
  | given {mode : SelectionMode} (given : selection.mode = some mode) :
      HasMode selection mode
  | groups (open' : selection.mode = none) (listed : selection.groups ≠ []) :
      HasMode selection .groups
  | explicit (open' : selection.mode = none) (noGroup : selection.groups = [])
      (listed : selection.enabled ≠ []) : HasMode selection .explicit
  | auto (open' : selection.mode = none) (noGroup : selection.groups = [])
      (noScanner : selection.enabled = []) : HasMode selection .auto

/-- What is documented of the scanners that a mode admits. -/
def Documented (selection : ScannerSelection) (id : String) :
    SelectionMode → Prop
  | .auto => True
  | .groups => id ∈ Groups.scanners selection.groups
  | .explicit => id ∈ selection.enabled

variable {selection : ScannerSelection} {mode : SelectionMode} {id : String}

theorem hasMode_iff : selection.HasMode mode ↔ selection.effectiveMode = mode := by
  constructor
  · intro has
    cases has with
    | given given => simp [effectiveMode, given]
    | groups absent listed => simp [effectiveMode, absent, listed]
    | explicit absent noGroup listed =>
        simp [effectiveMode, absent, noGroup, listed]
    | auto absent noGroup noScanner =>
        simp [effectiveMode, absent, noGroup, noScanner]
  · rintro rfl
    rw [effectiveMode]
    split
    · next given => exact .given given
    · next absent =>
        by_cases noGroup : selection.groups = []
        · by_cases noScanner : selection.enabled = []
          · simpa [noGroup, noScanner] using
              HasMode.auto absent noGroup noScanner
          · simpa [noGroup, noScanner] using
              HasMode.explicit absent noGroup noScanner
        · simpa [noGroup] using HasMode.groups absent noGroup

theorem selects_iff :
    selection.selects id = true ↔
      id ∉ selection.disabled ∧ ∃ mode, selection.HasMode mode ∧
        (selection.Documented id mode ∨
          mode = .explicit ∧ selection.enabled = []) := by
  have admits : (∃ mode, selection.HasMode mode ∧
      (selection.Documented id mode ∨
        mode = .explicit ∧ selection.enabled = [])) ↔
      selection.Documented id selection.effectiveMode ∨
        selection.effectiveMode = .explicit ∧ selection.enabled = [] := by
    simp only [hasMode_iff, exists_eq_left']
  rw [admits, selects, Bool.and_eq_true]
  apply and_congr
  · simp
  · cases selection.effectiveMode with
    | auto => simp [Documented]
    | groups => simp [Documented, Groups.includes_iff]
    | explicit => simp [Documented, or_comm]

end ScannerSelection

/-! ## Selections -/

namespace Registry

/-- Every series of calls makes a registry that lists the first scanner of each
identity by priority and identity, and a choice selects in this order whatever
it does not disable and its mode admits: all scanners, the members of the
listed groups, or the listed scanners, where an empty list admits all. -/
theorem select_ofList (calls : List Scanner) (selection : ScannerSelection) :
    let registry := ofList calls
    (∀ scanner, registry.register scanner =
      if scanner.id ∈ calls.map Scanner.id then
        .error (.duplicateScanner scanner.id)
      else .ok (ofList (calls ++ [scanner]))) ∧
    (∀ scanner, scanner.id ∈ calls.map Scanner.id →
      ofList (calls ++ [scanner]) = registry) ∧
    (∀ scanner, scanner ∈ registry.list ↔
      (calls.find? fun call => call.id == scanner.id) = some scanner) ∧
    registry.list.Pairwise Scanner.Precedes ∧
    (∀ others : List Scanner,
      (∀ id, (others.filter fun call => call.id == id) =
        calls.filter fun call => call.id == id) →
      (ofList others).list = registry.list) ∧
    (registry.select selection).Sublist registry.list ∧
    ∀ scanner, scanner ∈ registry.select selection ↔
      scanner ∈ registry.list ∧ scanner.id ∉ selection.disabled ∧
        ∃ mode, selection.HasMode mode ∧
          (selection.Documented scanner.id mode ∨
            mode = .explicit ∧ selection.enabled = []) := by
  intro registry
  have sound := sound_ofList calls
  refine ⟨register_ofList calls, fun _ => ofList_append_of_known, ?_,
    pairwise_precedes_list sound, ?_, List.filter_sublist, ?_⟩
  · intro scanner
    rw [mem_list_iff sound, get?_ofList]
  · intro others sameCalls
    rw [ofList_eq_of_firsts]
    intro id
    rw [← List.head?_filter, ← List.head?_filter, sameCalls]
  · intro scanner
    rw [select, List.mem_filter, ScannerSelection.selects_iff]

/-- A scanner that finds nothing. -/
def idle (id : String) (priority : Int) : Scanner where
  id := id
  title := "Idle"
  languages := ["text"]
  patterns := ["**/*"]
  priority := priority
  scan _ := .finished (.empty id)

theorem select_ofList_goGroup :
    let modules := idle "go-modules" 10
    let router := idle "go-http-router" 50
    let consumer := idle "kafka-consumer" 20
    let again := idle "go-modules" 5
    let selection : ScannerSelection :=
      { groups := ["messaging", "go", "none"], disabled := ["kafka-consumer"] }
    let registry := ofList [modules, router, consumer]
    again.id ∈ [modules, router, consumer].map Scanner.id ∧
      ofList [modules, router, consumer, again] = registry ∧
      (∀ id, ([consumer, modules, router].filter fun call => call.id == id) =
        [modules, router, consumer].filter fun call => call.id == id) ∧
      (ofList [consumer, modules, router]).list = registry.list ∧
      router ∈ registry.select selection ∧
      consumer ∉ registry.select selection := by
  intro modules router consumer again selection registry
  obtain ⟨-, refused, listed, -, reordered, -, selected⟩ :=
    select_ofList [modules, router, consumer] selection
  have known : again.id ∈ [modules, router, consumer].map Scanner.id := by
    decide
  have sameCalls : ∀ id,
      ([consumer, modules, router].filter fun call => call.id == id) =
        [modules, router, consumer].filter fun call => call.id == id := by
    intro id
    by_cases first : id = "go-modules"
    · subst first
      rfl
    · by_cases second : id = "go-http-router"
      · subst second
        rfl
      · have others : (modules.id == id) = false ∧ (router.id == id) = false :=
          ⟨beq_eq_false_iff_ne.mpr (Ne.symm first),
            beq_eq_false_iff_ne.mpr (Ne.symm second)⟩
        simp [List.filter_cons, others]
  have admitted : "go-http-router" ∈ Groups.scanners selection.groups :=
    Groups.mem_scanners_iff.mpr ⟨"go", by decide, by decide⟩
  refine ⟨known, refused again known, sameCalls, reordered _ sameCalls, ?_, ?_⟩
  · apply (selected router).mpr
    exact ⟨(listed router).mpr rfl, by decide, .groups,
      .groups rfl (by decide), Or.inl admitted⟩
  · intro member
    exact absurd ((selected consumer).mp member).2.1 (by decide)

/-- Where scanners are to be listed and none is, all are selected. -/
theorem not_select_documented :
    ¬ ∀ (calls : List Scanner) (selection : ScannerSelection)
      (scanner : Scanner),
      scanner ∈ (ofList calls).select selection ↔
        scanner ∈ (ofList calls).list ∧ scanner.id ∉ selection.disabled ∧
          ∃ mode, selection.HasMode mode ∧
            selection.Documented scanner.id mode := by
  intro always
  let modules := idle "go-modules" 10
  let selection : ScannerSelection := { mode := some .explicit }
  have listed : modules ∈ (ofList [modules]).list :=
    (mem_list_iff (sound_ofList [modules])).mpr rfl
  have selected : modules ∈ (ofList [modules]).select selection :=
    List.mem_filter.mpr ⟨listed, rfl⟩
  obtain ⟨-, -, mode, has, documented⟩ :=
    (always [modules] selection modules).mp selected
  obtain rfl : SelectionMode.explicit = mode :=
    ScannerSelection.hasMode_iff.mp has
  exact List.not_mem_nil documented

end Registry

end ArchSurvey
