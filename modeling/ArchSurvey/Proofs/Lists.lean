import Mathlib.Data.List.Forall2

/-!
# Laws of lists

Sorting, removing repetitions and joining do not mind whether items are left out
before or afterwards, as long as the joined parts of those items are empty.  A
traversal that may fail comes to results exactly if each of its items does, and
the results are those of the items.  The things of a list are put together two
by two, and a grouping says which come first: where an operation is associative
among these things every grouping comes to what the list comes to from left to
right.
-/

namespace ArchSurvey

variable {α β ε : Type}

/-- A sorted list splits at an item in one way only. -/
theorem split_unique {le : α → α → Bool} {item : α}
    {lower upper lower' upper' : List α}
    (same : lower ++ upper = lower' ++ upper')
    (below : ∀ a ∈ lower, le item a = false)
    (above : ∀ a ∈ upper, le item a = true)
    (below' : ∀ a ∈ lower', le item a = false)
    (above' : ∀ a ∈ upper', le item a = true) :
    lower = lower' ∧ upper = upper' := by
  induction lower generalizing lower' with
  | nil =>
      cases lower' with
      | nil => exact ⟨rfl, same⟩
      | cons a rest =>
          have inUpper : a ∈ upper := by
            rw [show upper = a :: rest ++ upper' from same]
            simp
          exact absurd (above a inUpper) (by simp [below' a])
  | cons a rest ih =>
      cases lower' with
      | nil =>
          have inUpper : a ∈ upper' := by
            rw [show upper' = a :: rest ++ upper from same.symm]
            simp
          exact absurd (above' a inUpper) (by simp [below a])
      | cons b rest' =>
          obtain ⟨rfl, tails⟩ := List.cons.inj same
          obtain ⟨rfl, rfl⟩ := ih tails
            (fun c member => below c (List.mem_cons_of_mem _ member))
            (fun c member => below' c (List.mem_cons_of_mem _ member))
          exact ⟨rfl, rfl⟩

section

variable {le : α → α → Bool} (trans : ∀ a b c, le a b → le b c → le a c)
  (total : ∀ a b, le a b || le b a)

include trans total

/-- Sorting puts the head between the lower and the other items of the rest. -/
theorem exists_split_mergeSort (head : α) (rest : List α) : ∃ lower upper,
    (head :: rest).mergeSort le = lower ++ head :: upper ∧
    rest.mergeSort le = lower ++ upper ∧
    (∀ a ∈ lower, le head a = false) ∧ ∀ a ∈ upper, le head a = true := by
  obtain ⟨lower, upper, sorted, sortedRest, below⟩ :=
    List.mergeSort_cons trans total head rest
  refine ⟨lower, upper, sorted, sortedRest, fun a member => ?_, ?_⟩
  · simpa using below a member
  · have ordered := List.pairwise_mergeSort trans total (head :: rest)
    rw [sorted, List.pairwise_append] at ordered
    exact (List.pairwise_cons.mp ordered.2.1).1

/-- Sorting is stable, so it does not notice items that are left out. -/
theorem filter_mergeSort (keeps : α → Bool) (items : List α) :
    (items.mergeSort le).filter keeps = (items.filter keeps).mergeSort le := by
  induction items with
  | nil => simp
  | cons head rest ih =>
      obtain ⟨lower, upper, sorted, sortedRest, below, above⟩ :=
        exists_split_mergeSort trans total head rest
      rw [sortedRest, List.filter_append] at ih
      rw [sorted, List.filter_append]
      cases kept : keeps head with
      | false =>
          rw [List.filter_cons_of_neg (by simp [kept]),
            List.filter_cons_of_neg (by simp [kept]), ih]
      | true =>
          rw [List.filter_cons_of_pos kept, List.filter_cons_of_pos kept]
          obtain ⟨lower', upper', sorted', sortedRest', below', above'⟩ :=
            exists_split_mergeSort trans total head (rest.filter keeps)
          obtain ⟨rfl, rfl⟩ := split_unique
            (ih.trans sortedRest')
            (fun a member => below a (List.mem_filter.mp member).1)
            (fun a member => above a (List.mem_filter.mp member).1)
            below' above'
          exact sorted'.symm

end

theorem filter_eraseDups [BEq α] [LawfulBEq α] (keeps : α → Bool)
    (items : List α) :
    items.eraseDups.filter keeps = (items.filter keeps).eraseDups := by
  induction measured : items.length using Nat.strongRecOn generalizing items with
  | _ length ih =>
      cases items with
      | nil => rfl
      | cons a rest =>
          have shorter : (rest.filter fun b => !b == a).length < length := by
            rw [← measured, List.length_cons]
            exact Nat.lt_succ_of_le (List.length_filter_le _ _)
          have swapped : (rest.filter fun b => !b == a).filter keeps =
              (rest.filter keeps).filter fun b => !b == a := by
            rw [List.filter_filter, List.filter_filter]
            simp only [Bool.and_comm]
          have later := ih _ shorter _ rfl
          rw [swapped] at later
          rw [List.eraseDups_cons]
          cases kept : keeps a with
          | true =>
              rw [List.filter_cons_of_pos kept, List.filter_cons_of_pos kept,
                List.eraseDups_cons, later]
          | false =>
              have absent : ((rest.filter keeps).filter fun b => !b == a) =
                  rest.filter keeps := by
                apply List.filter_eq_self.mpr
                intro b member
                have other : b ≠ a := by
                  rintro rfl
                  rw [(List.mem_filter.mp member).2] at kept
                  cases kept
                simpa using other
              rw [List.filter_cons_of_neg (by simp [kept]),
                List.filter_cons_of_neg (by simp [kept]), later, absent]

theorem eraseDups_of_nodup [BEq α] [LawfulBEq α] {items : List α}
    (distinct : items.Nodup) : items.eraseDups = items := by
  induction items with
  | nil => rfl
  | cons item rest ih =>
      rw [List.nodup_cons] at distinct
      have others : (rest.filter fun other => !other == item) = rest := by
        apply List.filter_eq_self.mpr
        intro other member
        have apart : other ≠ item := fun same => distinct.1 (same ▸ member)
        simpa using apart
      rw [List.eraseDups_cons, others, ih distinct.2]

/-- Items without parts may be left out of a join. -/
theorem flatMap_filter_of_nil {parts : α → List β} {keeps : α → Bool}
    {items : List α}
    (silent : ∀ item ∈ items, keeps item = false → parts item = []) :
    (items.filter keeps).flatMap parts = items.flatMap parts := by
  induction items with
  | nil => rfl
  | cons item rest ih =>
      have later := ih fun other member =>
        silent other (List.mem_cons_of_mem _ member)
      cases kept : keeps item with
      | true =>
          rw [List.filter_cons_of_pos kept, List.flatMap_cons,
            List.flatMap_cons, later]
      | false =>
          rw [List.filter_cons_of_neg (by simp [kept]), List.flatMap_cons,
            silent item List.mem_cons_self kept, later, List.nil_append]

theorem length_flatMap_le {items : List α} {f g : α → List β}
    (short : ∀ item ∈ items, (f item).length ≤ (g item).length) :
    (items.flatMap f).length ≤ (items.flatMap g).length := by
  induction items with
  | nil => exact Nat.le_refl _
  | cons item items ih =>
      obtain ⟨here, later⟩ := List.forall_mem_cons.mp short
      rw [List.flatMap_cons, List.flatMap_cons, List.length_append,
        List.length_append]
      exact Nat.add_le_add here (ih later)

/-- Parts that are not longer than others make up the same list exactly if each
part is the same. -/
theorem flatMap_eq_flatMap_iff {items : List α} {f g : α → List β}
    (short : ∀ item ∈ items, (f item).length ≤ (g item).length) :
    items.flatMap f = items.flatMap g ↔ ∀ item ∈ items, f item = g item := by
  refine ⟨fun same => ?_, List.flatMap_congr⟩
  induction items with
  | nil => simp
  | cons item items ih =>
      obtain ⟨here, later⟩ := List.forall_mem_cons.mp short
      have total := length_flatMap_le later
      have lengths := congrArg List.length same
      rw [List.flatMap_cons, List.flatMap_cons, List.length_append,
        List.length_append] at lengths
      obtain ⟨first, rest⟩ := List.append_inj same (by omega)
      exact List.forall_mem_cons.mpr ⟨first, ih later rest⟩

section

variable {f : α → Except ε β}

theorem mapM_cons_eq_ok_iff {item : α} {rest : List α} {results : List β} :
    (item :: rest).mapM f = .ok results ↔
      ∃ first others, f item = .ok first ∧ rest.mapM f = .ok others ∧
        results = first :: others := by
  rw [List.mapM_cons]
  cases here : f item with
  | error error =>
      constructor
      · intro impossible
        cases impossible
      · rintro ⟨first, others, impossible, -⟩
        cases impossible
  | ok first =>
      cases later : rest.mapM f with
      | error error =>
          constructor
          · intro impossible
            cases impossible
          · rintro ⟨other, others, -, impossible, -⟩
            cases impossible
      | ok others =>
          constructor
          · intro done
            cases done
            exact ⟨first, others, rfl, rfl, rfl⟩
          · rintro ⟨other, _, same, sameRest, rfl⟩
            cases same
            cases sameRest
            rfl

/-- A traversal succeeds exactly if it does on every item. -/
theorem exists_mapM_eq_ok_iff {items : List α} :
    (∃ results, items.mapM f = .ok results) ↔
      ∀ item ∈ items, ∃ result, f item = .ok result := by
  induction items with
  | nil =>
      constructor
      · simp
      · intro _
        exact ⟨[], rfl⟩
  | cons item rest ih =>
      constructor
      · rintro ⟨results, done⟩
        obtain ⟨first, others, here, later, -⟩ := mapM_cons_eq_ok_iff.mp done
        intro other member
        rcases List.mem_cons.mp member with rfl | inRest
        · exact ⟨first, here⟩
        · exact ih.mp ⟨others, later⟩ other inRest
      · intro each
        obtain ⟨first, here⟩ := each item List.mem_cons_self
        obtain ⟨others, later⟩ := ih.mpr fun other inRest =>
          each other (List.mem_cons_of_mem _ inRest)
        exact ⟨first :: others,
          mapM_cons_eq_ok_iff.mpr ⟨first, others, here, later, rfl⟩⟩

/-- Items that each come to a result are traversed to these results. -/
theorem mapM_eq_ok_of_forall₂ {items : List α} {results : List β}
    (each : List.Forall₂ (fun result item => f item = .ok result) results
      items) : items.mapM f = .ok results := by
  induction each with
  | nil => rfl
  | cons here _ ih => exact mapM_cons_eq_ok_iff.mpr ⟨_, _, here, ih, rfl⟩

/-- The results of a traversal are those of the items. -/
theorem mem_iff_of_mapM_eq_ok {items : List α} {results : List β}
    (done : items.mapM f = .ok results) {result : β} :
    result ∈ results ↔ ∃ item ∈ items, f item = .ok result := by
  induction items generalizing results with
  | nil =>
      cases done
      simp
  | cons item rest ih =>
      obtain ⟨first, others, here, later, rfl⟩ := mapM_cons_eq_ok_iff.mp done
      constructor
      · intro member
        rcases List.mem_cons.mp member with rfl | inOthers
        · exact ⟨item, List.mem_cons_self, here⟩
        · obtain ⟨other, inRest, found⟩ := (ih later).mp inOthers
          exact ⟨other, List.mem_cons_of_mem _ inRest, found⟩
      · rintro ⟨other, member, found⟩
        rcases List.mem_cons.mp member with rfl | inRest
        · rw [here] at found
          cases found
          exact List.mem_cons_self
        · apply List.mem_cons_of_mem
          exact (ih later).mpr ⟨other, inRest, found⟩

end

/-- What is cut off early would be cut off anyway. -/
theorem take_take_append (limit : Nat) (first second : List α) :
    (first.take limit ++ second).take limit =
      (first ++ second).take limit := by
  have room : limit - min limit first.length = limit - first.length := by omega
  rw [List.take_append, List.take_append, List.take_take, Nat.min_self,
    List.length_take, room]

theorem take_append_take (limit : Nat) (first second : List α) :
    (first ++ second.take limit).take limit =
      (first ++ second).take limit := by
  rw [List.take_append, List.take_append, List.take_take,
    Nat.min_eq_left (Nat.sub_le limit first.length)]

/-! ## Groupings -/

/-- A way to put things together two by two. -/
inductive Grouping (α : Type) where
  | one (item : α)
  | both (left right : Grouping α)
  deriving DecidableEq, Repr

namespace Grouping

/-- The things that are put together, from left to right. -/
def items : Grouping α → List α
  | one item => [item]
  | both left right => left.items ++ right.items

/-- What comes of the things if `join` puts two together. -/
def value (join : α → α → α) : Grouping α → α
  | one item => item
  | both left right => join (left.value join) (right.value join)

theorem exists_items (grouping : Grouping α) :
    ∃ first rest, grouping.items = first :: rest := by
  induction grouping with
  | one item => exact ⟨item, [], rfl⟩
  | both left right leftItems _ =>
      obtain ⟨first, rest, equal⟩ := leftItems
      exact ⟨first, rest ++ right.items, by rw [items, equal]; rfl⟩

/-- An operation that stays among certain things and is associative there. -/
structure Associates (holds : α → Prop) (join : α → α → α) : Prop where
  keeps : ∀ {a b}, holds a → holds b → holds (join a b)
  assoc : ∀ {a b c}, holds a → holds b → holds c →
    join (join a b) c = join a (join b c)

namespace Associates

variable {holds : α → Prop} {join : α → α → α} {grouping other : Grouping α}
  {first start : α} {rest : List α}

theorem holds_value (associates : Associates holds join)
    (each : ∀ item ∈ grouping.items, holds item) :
    holds (grouping.value join) := by
  induction grouping with
  | one item => exact each item List.mem_cons_self
  | both left right leftHolds rightHolds =>
      obtain ⟨leftEach, rightEach⟩ := List.forall_mem_append.mp each
      exact associates.keeps (leftHolds leftEach) (rightHolds rightEach)

/-- What comes before a grouping may be put together with its things one by
one. -/
theorem join_value (associates : Associates holds join) (begun : holds start)
    (each : ∀ item ∈ grouping.items, holds item) :
    join start (grouping.value join) = grouping.items.foldl join start := by
  induction grouping generalizing start with
  | one item => rfl
  | both left right leftJoined rightJoined =>
      obtain ⟨leftEach, rightEach⟩ := List.forall_mem_append.mp each
      have leftHolds := associates.holds_value leftEach
      have rightHolds := associates.holds_value rightEach
      calc
        join start (join (left.value join) (right.value join))
          = join (join start (left.value join)) (right.value join) :=
            (associates.assoc begun leftHolds rightHolds).symm
        _ = right.items.foldl join (join start (left.value join)) :=
            rightJoined (associates.keeps begun leftHolds) rightEach
        _ = (left.items ++ right.items).foldl join start := by
            rw [leftJoined begun leftEach, List.foldl_append]

/-- A grouping comes to what its things come to from left to right. -/
theorem value_eq_foldl (associates : Associates holds join)
    (each : ∀ item ∈ grouping.items, holds item)
    (split : grouping.items = first :: rest) :
    grouping.value join = rest.foldl join first := by
  induction grouping generalizing rest with
  | one item =>
      obtain ⟨rfl, rfl⟩ := List.cons.inj split
      rfl
  | both left right leftFolded _ =>
      obtain ⟨leftEach, rightEach⟩ := List.forall_mem_append.mp each
      obtain ⟨head, tail, leftSplit⟩ := left.exists_items
      rw [items, leftSplit] at split
      obtain ⟨rfl, rfl⟩ := List.cons.inj split
      rw [Grouping.value,
        associates.join_value (associates.holds_value leftEach) rightEach,
        leftFolded leftEach leftSplit]
      exact (List.foldl_append).symm

/-- Groupings of the same things come to the same. -/
theorem value_eq_of_items_eq (associates : Associates holds join)
    (each : ∀ item ∈ grouping.items, holds item)
    (same : other.items = grouping.items) :
    other.value join = grouping.value join := by
  obtain ⟨first, rest, split⟩ := grouping.exists_items
  rw [associates.value_eq_foldl each split,
    associates.value_eq_foldl (same ▸ each) (same.trans split)]

end Associates

end Grouping

end ArchSurvey
