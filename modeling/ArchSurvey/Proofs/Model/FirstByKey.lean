import ArchSurvey.Model.Basic

/-!
# The first item of each key

What `firstByKey` keeps of a list: one item for each key that occurs, namely the
first one.  Handing over a part of the list once more, after its first time,
changes nothing.
-/

namespace ArchSurvey

variable {α ι κ : Type} [DecidableEq κ]

section

variable (key : α → κ)

theorem firstByKeyFrom_congr {seen other : List κ}
    (same : ∀ k, k ∈ seen ↔ k ∈ other) (items : List α) :
    firstByKeyFrom key seen items = firstByKeyFrom key other items := by
  induction items generalizing seen other with
  | nil => rfl
  | cons item rest ih =>
      have sameAfter : ∀ k,
          k ∈ key item :: seen ↔ k ∈ key item :: other := by
        intro k
        rw [List.mem_cons, List.mem_cons, same k]
      simp only [firstByKeyFrom, same (key item), ih same, ih sameAfter]

theorem firstByKeyFrom_append (seen : List κ) (first second : List α) :
    firstByKeyFrom key seen (first ++ second) =
      firstByKeyFrom key seen first ++
        firstByKeyFrom key (first.map key ++ seen) second := by
  induction first generalizing seen with
  | nil => rfl
  | cons item rest ih =>
      simp only [List.cons_append, firstByKeyFrom, List.map_cons]
      split
      · next known =>
          rw [ih]
          congr 1
          apply firstByKeyFrom_congr
          intro k
          have knownToo : key item ∈ rest.map key ++ seen :=
            List.mem_append_right _ known
          rw [List.mem_cons]
          constructor
          · exact Or.inr
          · rintro (rfl | member)
            · exact knownToo
            · exact member
      · rw [ih, List.cons_append]
        congr 2
        apply firstByKeyFrom_congr
        intro k
        simp only [List.mem_append, List.mem_cons]
        exact or_left_comm

theorem firstByKeyFrom_of_seen {seen : List κ} {items : List α}
    (known : ∀ item ∈ items, key item ∈ seen) :
    firstByKeyFrom key seen items = [] := by
  induction items with
  | nil => rfl
  | cons item rest ih =>
      rw [firstByKeyFrom, if_pos (known item List.mem_cons_self)]
      exact ih fun other member => known other (List.mem_cons_of_mem _ member)

theorem firstByKeyFrom_sublist (seen : List κ) (items : List α) :
    (firstByKeyFrom key seen items).Sublist items := by
  induction items generalizing seen with
  | nil => exact List.Sublist.refl _
  | cons item rest ih =>
      rw [firstByKeyFrom]
      split
      · exact (ih seen).cons item
      · exact (ih (key item :: seen)).cons_cons item

theorem not_mem_seen_of_mem_firstByKeyFrom {seen : List κ} {items : List α}
    {item : α} (member : item ∈ firstByKeyFrom key seen items) :
    key item ∉ seen := by
  induction items generalizing seen with
  | nil => simp [firstByKeyFrom] at member
  | cons head rest ih =>
      rw [firstByKeyFrom] at member
      split at member
      · exact ih member
      · next new =>
          rcases List.mem_cons.mp member with rfl | later
          · exact new
          · intro known
            exact ih later (List.mem_cons_of_mem _ known)

theorem nodup_keys_firstByKeyFrom (seen : List κ) (items : List α) :
    ((firstByKeyFrom key seen items).map key).Nodup := by
  induction items generalizing seen with
  | nil => exact List.nodup_nil
  | cons item rest ih =>
      rw [firstByKeyFrom]
      split
      · exact ih seen
      · rw [List.map_cons, List.nodup_cons]
        refine ⟨?_, ih _⟩
        intro member
        obtain ⟨other, kept, equal⟩ := List.mem_map.mp member
        apply not_mem_seen_of_mem_firstByKeyFrom key kept
        rw [equal]
        exact List.mem_cons_self

/-- An item is kept exactly when its key was not met before and no earlier item
has the key. -/
theorem mem_firstByKeyFrom_iff {seen : List κ} {items : List α} {item : α} :
    item ∈ firstByKeyFrom key seen items ↔
      key item ∉ seen ∧
        items.find? (fun other => key other = key item) = some item := by
  induction items generalizing seen with
  | nil => simp [firstByKeyFrom]
  | cons head rest ih =>
      rw [firstByKeyFrom, List.find?_cons]
      by_cases same : key head = key item
      · by_cases known : key head ∈ seen
        · rw [if_pos known, ih]
          rw [same] at known
          simp [known]
        · rw [if_neg known, List.mem_cons, ih]
          rw [same] at known
          simp [same, known, eq_comm]
      · have different : item ≠ head := by
          intro equal
          exact same (equal ▸ rfl)
        have apart : key item ≠ key head := fun equal => same equal.symm
        by_cases known : key head ∈ seen
        · rw [if_pos known, ih]
          simp [same]
        · rw [if_neg known, List.mem_cons, ih]
          simp [same, different, apart]

theorem nodup_keys_firstByKey (items : List α) :
    ((firstByKey key items).map key).Nodup :=
  nodup_keys_firstByKeyFrom key [] items

theorem mem_firstByKey_iff {items : List α} {item : α} :
    item ∈ firstByKey key items ↔
      items.find? (fun other => key other = key item) = some item := by
  simp [firstByKey, mem_firstByKeyFrom_iff]

theorem mem_keys_firstByKey_iff {items : List α} {k : κ} :
    k ∈ (firstByKey key items).map key ↔ k ∈ items.map key := by
  constructor
  · intro member
    obtain ⟨item, kept, rfl⟩ := List.mem_map.mp member
    exact List.mem_map_of_mem
      ((firstByKeyFrom_sublist key [] items).mem kept)
  · intro member
    obtain ⟨item, given, rfl⟩ := List.mem_map.mp member
    -- The first item with the key need not be `item` itself.
    cases first : items.find? (fun other => key other = key item) with
    | none =>
        have noneHere := List.find?_eq_none.mp first item given
        simp at noneHere
    | some kept =>
        have equal : key kept = key item := by
          simpa using List.find?_some first
        rw [← equal] at first
        rw [← equal]
        exact List.mem_map_of_mem ((mem_firstByKey_iff key).mpr first)

/-- Sources that were handed over before, in `done`, may be left out: the items
of every source in `done` have keys met before. -/
theorem firstByKeyFrom_flatMap [DecidableEq ι] (items : ι → List α)
    (sources done : List ι) (seen : List κ)
    (known : ∀ source ∈ done, ∀ item ∈ items source, key item ∈ seen) :
    firstByKeyFrom key seen ((firstByKeyFrom id done sources).flatMap items) =
      firstByKeyFrom key seen (sources.flatMap items) := by
  induction sources generalizing done seen with
  | nil => rfl
  | cons source rest ih =>
      rw [firstByKeyFrom, List.flatMap_cons, firstByKeyFrom_append]
      split
      · next repeated =>
          have nothingNew := firstByKeyFrom_of_seen key (known source repeated)
          rw [nothingNew, List.nil_append, ih done seen known]
          apply firstByKeyFrom_congr
          intro k
          rw [List.mem_append]
          constructor
          · exact Or.inr
          · rintro (member | member)
            · obtain ⟨item, given, rfl⟩ := List.mem_map.mp member
              exact known source repeated item given
            · exact member
      · rw [List.flatMap_cons, firstByKeyFrom_append]
        congr 1
        apply ih
        intro other member item given
        rcases List.mem_cons.mp member with rfl | before
        · exact List.mem_append_left _ (List.mem_map_of_mem given)
        · exact List.mem_append_right _ (known other before item given)

end

theorem firstByKey_flatMap [DecidableEq ι] (key : α → κ) (items : ι → List α)
    (sources : List ι) :
    firstByKey key ((firstByKey id sources).flatMap items) =
      firstByKey key (sources.flatMap items) :=
  firstByKeyFrom_flatMap key items sources [] [] (by simp)

theorem nodup_firstByKey_id (items : List κ) : (firstByKey id items).Nodup := by
  simpa using nodup_keys_firstByKey id items

theorem mem_firstByKey_id {items : List κ} {item : κ} :
    item ∈ firstByKey id items ↔ item ∈ items := by
  have keys : item ∈ (firstByKey id items).map id ↔ item ∈ items.map id :=
    mem_keys_firstByKey_iff id
  simpa using keys

end ArchSurvey
