import ArchSurvey.Model.Basic
import ArchSurvey.Proofs.Keyed
import ArchSurvey.Proofs.Lists
import ArchSurvey.Proofs.Model.FirstByKey

/-!
# Laws of merging

Results are sorted, and a merged model depends only on which results there are.
-/

namespace ArchSurvey

/-!
## The order of merging

Results are sorted by priority and scanner, those of one scanner and priority
staying in the order in which they were given.  The first result of a sorted
list that offers something is therefore the first of the least results that
offer it.
-/

/-- `item` is the first of the least of those items that satisfy `offers`: it
stands in front of the others that are as low as it is. -/
def IsFirstLeast {α : Type} (precedes : α → α → Prop) (offers : α → Prop)
    (items : List α) (item : α) : Prop :=
  ∃ before after, items = before ++ item :: after ∧ offers item ∧
    (∀ other ∈ before, offers other → precedes item other) ∧
    ∀ other ∈ after, offers other → ¬precedes other item

namespace IsFirstLeast

variable {α : Type} {precedes : α → α → Prop} {offers : α → Prop}
  {items : List α} {item : α}

theorem mem (least : IsFirstLeast precedes offers items item) :
    item ∈ items := by
  obtain ⟨before, after, rfl, -⟩ := least
  simp

/-- An item that does not count may be put in front. -/
theorem cons_of_not {head : α} (silent : ¬offers head)
    (least : IsFirstLeast precedes offers items item) :
    IsFirstLeast precedes offers (head :: items) item := by
  obtain ⟨before, after, rfl, offered, earlier, later⟩ := least
  refine ⟨head :: before, after, rfl, offered, ?_, later⟩
  intro other member otherOffers
  rcases List.mem_cons.mp member with rfl | member
  · exact absurd otherOffers silent
  · exact earlier other member otherOffers

/-- An item above the least one may be put in front. -/
theorem cons_of_precedes {head : α} (above : precedes item head)
    (least : IsFirstLeast precedes offers items item) :
    IsFirstLeast precedes offers (head :: items) item := by
  obtain ⟨before, after, rfl, offered, earlier, later⟩ := least
  refine ⟨head :: before, after, rfl, offered, ?_, later⟩
  intro other member otherOffers
  rcases List.mem_cons.mp member with rfl | member
  · exact above
  · exact earlier other member otherOffers

/-- The order and the condition may be replaced by others that agree with them
on the items that count. -/
theorem imp {precedes' : α → α → Prop} {offers' : α → Prop}
    (least : IsFirstLeast precedes offers items item)
    (sameOffers : ∀ other ∈ items, offers' other ↔ offers other)
    (sameOrder : ∀ a b, offers a → offers b →
      (precedes' a b ↔ precedes a b)) :
    IsFirstLeast precedes' offers' items item := by
  have here := (sameOffers item least.mem)
  obtain ⟨before, after, rfl, offered, earlier, later⟩ := least
  refine ⟨before, after, rfl, here.mpr offered, ?_, ?_⟩
  · intro other member otherOffers
    have counts := (sameOffers other (by simp [member])).mp otherOffers
    exact (sameOrder item other offered counts).mpr
      (earlier other member counts)
  · intro other member otherOffers below
    have counts := (sameOffers other (by simp [member])).mp otherOffers
    exact later other member counts
      ((sameOrder other item counts offered).mp below)

end IsFirstLeast

/-- The first item of a sorted list that satisfies a condition is the first of
the least items of the unsorted list that do. -/
theorem isFirstLeast_of_find?_mergeSort {α : Type} {le : α → α → Bool}
    (trans : ∀ a b c, le a b → le b c → le a c)
    (total : ∀ a b, le a b || le b a) {offers : α → Bool} {items : List α}
    {item : α} (found : (items.mergeSort le).find? offers = some item) :
    IsFirstLeast (fun a b => le b a = false) (fun a => offers a = true)
      items item := by
  induction items with
  | nil => simp at found
  | cons head rest ih =>
      obtain ⟨lower, upper, sorted, sortedRest, below⟩ :=
        List.mergeSort_cons trans total head rest
      rw [sorted, List.find?_append] at found
      rw [sortedRest, List.find?_append] at ih
      cases inLower : lower.find? offers with
      | some low =>
          rw [inLower] at found ih
          have equal : low = item := by simpa using found
          subst equal
          have above := below low (List.mem_of_find?_eq_some inLower)
          exact (ih rfl).cons_of_precedes (by simpa using above)
      | none =>
          rw [inLower, Option.none_or, List.find?_cons] at found
          cases headOffers : offers head with
          | false =>
              rw [headOffers] at found
              rw [inLower, Option.none_or] at ih
              exact (ih found).cons_of_not (by simp [headOffers])
          | true =>
              rw [headOffers] at found
              have equal : head = item := by simpa using found
              subst equal
              refine ⟨[], rest, rfl, headOffers, by simp, ?_⟩
              intro other member otherOffers
              have inRest : other ∈ lower ++ upper := by
                rw [← sortedRest]
                exact List.mem_mergeSort.mpr member
              -- Nothing in the lower part counts, and the sorted list has the
              -- upper part after `head`.
              rcases List.mem_append.mp inRest with inLow | inUp
              · have silent := List.find?_eq_none.mp inLower other inLow
                exact absurd otherOffers silent
              · have ordered := List.pairwise_mergeSort trans total
                  (head :: rest)
                rw [sorted, List.pairwise_append] at ordered
                have least :=
                  (List.pairwise_cons.mp ordered.2.1).1 other inUp
                simp [least]

namespace MergeInput

/-- The order by priority and then by scanner. -/
def Precedes (a b : MergeInput) : Prop :=
  a.priority < b.priority ∨
    a.priority = b.priority ∧ a.result.scanner < b.result.scanner

theorem le_iff {a b : MergeInput} :
    a.le b = true ↔ a.priority < b.priority ∨
      a.priority = b.priority ∧ a.result.scanner ≤ b.result.scanner := by
  simp [MergeInput.le]

theorem le_trans (a b c : MergeInput) (first : a.le b = true)
    (second : b.le c = true) : a.le c = true := by
  rw [le_iff] at first second ⊢
  rcases first with less | ⟨equal, least⟩
  · left
    rcases second with less' | ⟨equal', -⟩ <;> omega
  · rcases second with less' | ⟨equal', least'⟩
    · left
      omega
    · exact Or.inr ⟨equal.trans equal', String.le_trans least least'⟩

theorem le_total (a b : MergeInput) : (a.le b || b.le a) = true := by
  rw [Bool.or_eq_true, le_iff, le_iff]
  rcases Int.lt_trichotomy a.priority b.priority with less | equal | greater
  · exact Or.inl (Or.inl less)
  · rcases String.le_total a.result.scanner b.result.scanner with le | ge
    · exact Or.inl (Or.inr ⟨equal, le⟩)
    · exact Or.inr (Or.inr ⟨equal.symm, ge⟩)
  · exact Or.inr (Or.inl greater)

theorem le_eq_false_iff {a b : MergeInput} :
    b.le a = false ↔ a.Precedes b := by
  rw [← Bool.not_eq_true, le_iff, Precedes]
  constructor
  · intro notLe
    rcases Int.lt_trichotomy a.priority b.priority with less | equal | greater
    · exact Or.inl less
    · refine Or.inr ⟨equal, String.not_le.mp fun le => ?_⟩
      exact notLe (Or.inr ⟨equal.symm, le⟩)
    · exact absurd (Or.inl greater) notLe
  · rintro (less | ⟨equal, less⟩) (less' | ⟨equal', le⟩)
    · omega
    · omega
    · omega
    · exact String.not_le.mpr less le

/-- Inputs that stand before each other have one priority and one scanner. -/
theorem same_key_of_le_of_le {a b : MergeInput} (first : a.le b = true)
    (second : b.le a = true) :
    a.priority = b.priority ∧ a.result.scanner = b.result.scanner := by
  rw [le_iff] at first second
  rcases first with less | ⟨equal, le⟩
  · rcases second with less' | ⟨equal', -⟩ <;> omega
  · rcases second with less' | ⟨equal', ge⟩
    · omega
    · exact ⟨equal, String.le_antisymm le ge⟩

/-- Between inputs of one scanner the priority alone decides. -/
theorem precedes_of_same_scanner {a b : MergeInput}
    (same : a.result.scanner = b.result.scanner) :
    a.Precedes b ↔ a.priority < b.priority := by
  rw [Precedes, same]
  constructor
  · rintro (less | ⟨-, less⟩)
    · exact less
    · exact absurd less (String.lt_irrefl _)
  · exact Or.inl

end MergeInput

/-!
## Merged models

A merged model depends only on which results there are, not on their order or
number; and every item and every entry of it comes from the least result that
has one for its key.
-/

/-- The items of one category that an input contributes: none if it failed. -/
def MergeInput.offered {α : Type} (items : Findings → List α)
    (input : MergeInput) : List α :=
  if input.result.success then items input.result.findings else []

theorem flatMap_offered {α : Type} (items : Findings → List α)
    (inputs : List MergeInput) :
    ((inputs.filter fun input => input.result.success).map fun input =>
        input.result.findings).flatMap items =
      inputs.flatMap (MergeInput.offered items) := by
  induction inputs with
  | nil => rfl
  | cons input rest ih =>
      cases succeeded : input.result.success <;>
        simp [succeeded, MergeInput.offered, ih]

namespace Model

/-- The statistics by scanner after some inputs, those held before being kept. -/
def collect (held : List (String × Statistics)) (inputs : List MergeInput) :
    List (String × Statistics) :=
  inputs.foldl (fun held input =>
    Keyed.insertNew input.result.scanner input.result.statistics held) held

theorem sorted_collect {held : List (String × Statistics)}
    (sorted : Keyed.Sorted held) (inputs : List MergeInput) :
    Keyed.Sorted (collect held inputs) := by
  induction inputs generalizing held with
  | nil => exact sorted
  | cons input rest ih => exact ih (sorted.insertNew _ _)

/-- Inputs that were collected before, in `done`, may be left out. -/
theorem collect_firstByKeyFrom {held : List (String × Statistics)}
    (sorted : Keyed.Sorted held) (inputs done : List MergeInput)
    (known : ∀ input ∈ done, input.result.scanner ∈ held.map Prod.fst) :
    collect held (firstByKeyFrom id done inputs) = collect held inputs := by
  induction inputs generalizing held done with
  | nil => rfl
  | cons input rest ih =>
      rw [firstByKeyFrom]
      split
      · next repeated =>
          have unchanged := Keyed.insertNew_of_mem sorted
            (known input repeated) input.result.statistics
          rw [ih sorted done known]
          simp only [collect, List.foldl_cons, unchanged]
      · apply ih (sorted.insertNew _ _)
        intro other member
        rw [Keyed.mem_keys_insertNew]
        rcases List.mem_cons.mp member with rfl | before
        · exact Or.inl rfl
        · exact Or.inr (known other before)

/-- The first input of a scanner decides on its statistics. -/
theorem lookup_collect {held : List (String × Statistics)}
    (sorted : Keyed.Sorted held) (inputs : List MergeInput) (id : String) :
    (collect held inputs).lookup id =
      (held.lookup id).or
        ((inputs.find? fun input => input.result.scanner == id).map
          fun input => input.result.statistics) := by
  induction inputs generalizing held with
  | nil => simp [collect]
  | cons input rest ih =>
      have step := ih (sorted.insertNew input.result.scanner
        input.result.statistics)
      rw [Keyed.lookup_insertNew sorted] at step
      rw [List.find?_cons]
      by_cases same : input.result.scanner = id
      · subst same
        rw [if_pos rfl] at step
        have head : (input.result.scanner == input.result.scanner) = true := by
          simp
        rw [head]
        cases before : held.lookup input.result.scanner with
        | none => simpa [collect, before] using step
        | some kept => simpa [collect, before] using step
      · rw [if_neg (fun equal => same equal.symm)] at step
        have head : (input.result.scanner == id) = false := by simp [same]
        rw [head]
        exact step

theorem mem_collect_iff {inputs : List MergeInput} {id : String}
    {statistics : Statistics} :
    (id, statistics) ∈ collect [] inputs ↔
      ∃ input, inputs.find? (fun other => other.result.scanner == id) =
        some input ∧ input.result.statistics = statistics := by
  rw [(sorted_collect .nil inputs).mem_iff_lookup, lookup_collect .nil,
    List.lookup_nil, Option.none_or, Option.map_eq_some_iff]

/-- Only the first occurrence of each input counts. -/
theorem ofOrdered_firstByKey (projectName : String)
    (inputs : List MergeInput) :
    ofOrdered projectName (firstByKey id inputs) =
      ofOrdered projectName inputs := by
  have collected : collect [] (firstByKey id inputs) = collect [] inputs :=
    collect_firstByKeyFrom .nil inputs [] (by simp)
  unfold ofOrdered
  simp only [flatMap_offered, firstByKey_flatMap]
  congr 1

/-- Where inputs of one priority and scanner are equal, sorting leaves one
arrangement of the distinct inputs. -/
theorem firstByKey_mergeSort_eq {inputs other : List MergeInput}
    (consistent : ∀ a ∈ inputs, ∀ b ∈ inputs, a.priority = b.priority →
      a.result.scanner = b.result.scanner → a.result = b.result)
    (same : ∀ input, input ∈ other ↔ input ∈ inputs) :
    firstByKey id (other.mergeSort MergeInput.le) =
      firstByKey id (inputs.mergeSort MergeInput.le) := by
  have sorted (list : List MergeInput) :
      (firstByKey id (list.mergeSort MergeInput.le)).Pairwise
        (fun a b => a.le b = true) :=
    (List.pairwise_mergeSort MergeInput.le_trans MergeInput.le_total
      list).sublist (firstByKeyFrom_sublist id [] _)
  have given {list : List MergeInput} {input : MergeInput}
      (member : input ∈ firstByKey id (list.mergeSort MergeInput.le)) :
      input ∈ list :=
    List.mem_mergeSort.mp (mem_firstByKey_id.mp member)
  refine List.Perm.eq_of_pairwise ?_ (sorted other) (sorted inputs) ?_
  · intro a b inOther inInputs below above
    obtain ⟨priority, scanner⟩ :=
      MergeInput.same_key_of_le_of_le below above
    have result := consistent a ((same a).mp (given inOther)) b
      (given inInputs) priority scanner
    cases a
    cases b
    exact congr (congrArg MergeInput.mk priority) result
  · apply (List.perm_ext_iff_of_nodup (nodup_firstByKey_id _)
      (nodup_firstByKey_id _)).mpr
    intro input
    rw [mem_firstByKey_id, mem_firstByKey_id, List.mem_mergeSort,
      List.mem_mergeSort, same input]

/-- Merging takes no notice of the order of the results nor of repeated ones:
lists with the same members, such as the permutations of a list and the lists
that repeat some of its members, have the same model.  Only results of one
scanner at one priority have to agree. -/
theorem merge_eq_of_mem_iff (projectName : String)
    {inputs other : List MergeInput}
    (consistent : ∀ a ∈ inputs, ∀ b ∈ inputs, a.priority = b.priority →
      a.result.scanner = b.result.scanner → a.result = b.result)
    (same : ∀ input, input ∈ other ↔ input ∈ inputs) :
    merge projectName other = merge projectName inputs := by
  calc
    merge projectName other
      = ofOrdered projectName
          (firstByKey id (other.mergeSort MergeInput.le)) :=
        (ofOrdered_firstByKey projectName _).symm
    _ = ofOrdered projectName
          (firstByKey id (inputs.mergeSort MergeInput.le)) := by
        rw [firstByKey_mergeSort_eq consistent same]
    _ = merge projectName inputs := ofOrdered_firstByKey projectName _

/-- A failed result, one that offers a topic and a component, and one that
offers the same topic again: turned round and partly repeated. -/
theorem merge_eq_of_mem_iff_repeated :
    let shop : Component := { id := "c1", name := "shop", kind := .service }
    let topic : MessageFlow := { publisher := some "c1", topic := "orders" }
    let early : MergeInput :=
      ⟨10, .succeeded "manifests" { components := [shop], flows := [topic] }
        [] {}⟩
    let late : MergeInput :=
      ⟨50, .succeeded "messages"
        { flows := [{ topic with broker := some "kafka" }, topic] } []
        { discovered := 2 }⟩
    let broken : MergeInput := ⟨50, .failed "manifests" ["no such table"]⟩
    let inputs := [early, late, broken]
    let other := [late, broken, early, late]
    (∀ a ∈ inputs, ∀ b ∈ inputs, a.priority = b.priority →
      a.result.scanner = b.result.scanner → a.result = b.result) ∧
    (∀ input, input ∈ other ↔ input ∈ inputs) ∧
    merge "shop" other = merge "shop" inputs := by
  intro shop topic early late broken inputs other
  have consistent : ∀ a ∈ inputs, ∀ b ∈ inputs, a.priority = b.priority →
      a.result.scanner = b.result.scanner → a.result = b.result := by
    decide
  have same : ∀ input, input ∈ other ↔ input ∈ inputs := by
    intro input
    simp only [other, inputs, List.mem_cons, List.not_mem_nil, or_false]
    constructor
    · rintro (rfl | rfl | rfl | rfl) <;> simp
    · rintro (rfl | rfl | rfl) <;> simp
  exact ⟨consistent, same, merge_eq_of_mem_iff "shop" consistent same⟩

/-- Failed results add nothing to the findings of a model. -/
theorem findings_merge_eq {projectName : String} {inputs other : List MergeInput}
    (same : (inputs.filter fun input => input.result.success) =
      other.filter fun input => input.result.success) :
    (merge projectName inputs).findings = (merge projectName other).findings := by
  have sorted : ((inputs.mergeSort MergeInput.le).filter fun input =>
      input.result.success) =
        (other.mergeSort MergeInput.le).filter fun input =>
          input.result.success := by
    rw [filter_mergeSort MergeInput.le_trans MergeInput.le_total, same,
      filter_mergeSort MergeInput.le_trans MergeInput.le_total]
  simp only [merge, ofOrdered, findings, sorted]

end Model

end ArchSurvey
