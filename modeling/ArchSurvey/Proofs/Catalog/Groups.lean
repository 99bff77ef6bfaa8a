import ArchSurvey.Catalog.Basic
import ArchSurvey.Proofs.Model.FirstByKey
import Mathlib.Data.List.Basic
import Mathlib.Data.List.Induction

/-!
# Groups of items

Grouping parts a list by a key.  The keys stand in the order in which they first
occur, no item is lost and none comes twice, and the items of a key stay in
their order.  A run over the list that puts each item into the group of its key,
or into a new group behind the others, comes to the same groups.
-/

namespace ArchSurvey.Catalog

variable {α κ : Type} [DecidableEq κ]

/-! ## Keys in the order of their first occurrence -/

/-- Some values, each once, in the order in which they first occur in a list. -/
structure FirstOccurrences (values list : List κ) : Prop where
  mem_iff : ∀ value, value ∈ values ↔ value ∈ list
  ordered : values.Pairwise fun one other =>
    list.idxOf one < list.idxOf other

theorem FirstOccurrences.nodup {values list : List κ}
    (first : FirstOccurrences values list) : values.Nodup :=
  first.ordered.imp fun before same => by
    rw [same] at before
    exact Nat.lt_irrefl _ before

/-- What stands in front of a list does not change the order of values that do
not occur there. -/
theorem pairwise_idxOf_cons {values list : List κ} {head : κ}
    (absent : head ∉ values)
    (ordered : values.Pairwise fun one other =>
      list.idxOf one < list.idxOf other) :
    values.Pairwise fun one other =>
      (head :: list).idxOf one < (head :: list).idxOf other := by
  refine ordered.imp_of_mem fun {one other} inOne inOther before => ?_
  have apart {value : κ} (member : value ∈ values) : head ≠ value :=
    fun same => absent (same ▸ member)
  rw [List.idxOf_cons_ne _ (apart inOne), List.idxOf_cons_ne _ (apart inOther)]
  exact Nat.succ_lt_succ before

theorem pairwise_firstByKeyFrom (seen list : List κ) :
    (firstByKeyFrom id seen list).Pairwise fun one other =>
      list.idxOf one < list.idxOf other := by
  induction list generalizing seen with
  | nil => exact .nil
  | cons value list ih =>
      have unseen {seen : List κ} (known : value ∈ seen) :
          value ∉ firstByKeyFrom id seen list :=
        fun member => not_mem_seen_of_mem_firstByKeyFrom id member known
      rw [firstByKeyFrom]
      split
      · next known => exact pairwise_idxOf_cons (unseen known) (ih seen)
      · have new := unseen (List.mem_cons_self (a := value) (l := seen))
        refine List.pairwise_cons.mpr
          ⟨fun other member => ?_, pairwise_idxOf_cons new (ih _)⟩
        have apart : value ≠ other := fun same => new (same ▸ member)
        rw [List.idxOf_cons_self, List.idxOf_cons_ne _ apart]
        exact Nat.succ_pos _

theorem firstOccurrences_firstByKey (list : List κ) :
    FirstOccurrences (firstByKey id list) list where
  mem_iff _ := mem_firstByKey_id
  ordered := pairwise_firstByKeyFrom [] list

/-! ## No item is lost -/

/-- Items are parted by keys among which each has its own once. -/
theorem perm_flatMap_filter (key : α → κ) {keys : List κ}
    (distinct : keys.Nodup) {items : List α}
    (covered : ∀ item ∈ items, key item ∈ keys) :
    (keys.flatMap fun held =>
      items.filter fun item => key item = held).Perm items := by
  induction keys generalizing items with
  | nil =>
      have none : items = [] := List.eq_nil_iff_forall_not_mem.mpr
        fun item member => List.not_mem_nil (covered item member)
      rw [none]
      exact .nil
  | cons first keys ih =>
      obtain ⟨absent, distinct⟩ := List.nodup_cons.mp distinct
      have later : ∀ item ∈ items.filter fun item => !decide (key item = first),
          key item ∈ keys := by
        intro item member
        obtain ⟨given, apart⟩ := List.mem_filter.mp member
        exact (List.mem_cons.mp (covered item given)).resolve_left
          (by simpa using apart)
      -- The items of the other keys are among those that the first one leaves.
      have same : keys.flatMap (fun held =>
            items.filter fun item => key item = held) =
          keys.flatMap fun held =>
            (items.filter fun item => !decide (key item = first)).filter
              fun item => key item = held := by
        refine List.flatMap_congr fun held member => ?_
        rw [List.filter_filter]
        refine List.filter_congr fun item _ => ?_
        have apart : held ≠ first := fun equal => absent (equal ▸ member)
        by_cases here : key item = held <;> simp [here, apart]
      rw [List.flatMap_cons, same]
      exact ((ih distinct later).append_left _).trans
        (List.filter_append_perm _ items)

/-! ## Grouping item by item -/

/-- Puts an item into the group of its key, or into a new one behind the
others. -/
def putInto (key : α → κ) (item : α) :
    List (κ × List α) → List (κ × List α)
  | [] => [(key item, [item])]
  | (held, items) :: groups =>
      if held = key item then (held, items ++ [item]) :: groups
      else (held, items) :: putInto key item groups

section Runs

variable {key : α → κ} {item : α} {keys : List κ}

theorem putInto_of_not_mem (group : κ → List α) (absent : key item ∉ keys) :
    putInto key item (keys.map fun held => (held, group held)) =
      keys.map (fun held => (held, group held)) ++ [(key item, [item])] := by
  induction keys with
  | nil => rfl
  | cons held keys ih =>
      rw [List.mem_cons, not_or] at absent
      rw [List.map_cons, putInto, if_neg (Ne.symm absent.1), ih absent.2]
      rfl

theorem putInto_of_mem (group : κ → List α) (distinct : keys.Nodup)
    (member : key item ∈ keys) :
    putInto key item (keys.map fun held => (held, group held)) =
      keys.map fun held =>
        (held, group held ++ if key item = held then [item] else []) := by
  induction keys with
  | nil => cases member
  | cons held keys ih =>
      obtain ⟨absent, distinct⟩ := List.nodup_cons.mp distinct
      rw [List.map_cons, List.map_cons, putInto]
      by_cases here : held = key item
      · have others : ∀ other ∈ keys, key item ≠ other :=
          fun other among same => absent (here ▸ same ▸ among)
        rw [if_pos here, if_pos here.symm]
        refine congrArg _ (List.map_congr_left fun other among => ?_)
        rw [if_neg (others other among), List.append_nil]
      · have later := (List.mem_cons.mp member).resolve_left (Ne.symm here)
        rw [if_neg here, if_neg (Ne.symm here), List.append_nil,
          ih distinct later]

/-- One more item changes the groups as putting it into them does. -/
theorem groupBy_concat (key : α → κ) (items : List α) (item : α) :
    groupBy key (items ++ [item]) = putInto key item (groupBy key items) := by
  have keys : firstByKey id ((items ++ [item]).map key) =
      firstByKey id (items.map key) ++
        if key item ∈ items.map key then [] else [key item] := by
    rw [List.map_append, firstByKey, firstByKeyFrom_append, List.map_id,
      List.append_nil]
    rfl
  have group (held : κ) : (items ++ [item]).filter (fun other =>
        key other = held) =
      items.filter (fun other => key other = held) ++
        if key item = held then [item] else [] := by
    rw [List.filter_append]
    by_cases here : key item = held <;> simp [here]
  simp only [groupBy, keys, group]
  by_cases known : key item ∈ items.map key
  · rw [if_pos known, List.append_nil, putInto_of_mem _ (nodup_firstByKey_id _)
      (mem_firstByKey_id.mpr known)]
  · have absent : key item ∉ firstByKey id (items.map key) :=
      fun member => known (mem_firstByKey_id.mp member)
    have none : items.filter (fun other => key other = key item) = [] :=
      List.filter_eq_nil_iff.mpr fun other among same =>
        known (of_decide_eq_true same ▸ List.mem_map_of_mem among)
    rw [if_neg known, putInto_of_not_mem _ absent, List.map_append]
    congr 1
    · refine List.map_congr_left fun held member => ?_
      have apart : key item ≠ held := fun same => absent (same ▸ member)
      rw [if_neg apart, List.append_nil]
    · simp [none]

/-- Grouping is a run over the items that puts each into its group. -/
theorem groupBy_eq_foldl (key : α → κ) (items : List α) :
    groupBy key items =
      items.foldl (fun groups item => putInto key item groups) [] := by
  induction items using List.reverseRecOn with
  | nil => rfl
  | append_singleton items item ih =>
      rw [groupBy_concat, ih, List.foldl_append]
      rfl

end Runs

end ArchSurvey.Catalog
