import ArchSurvey.Keyed

/-!
# Laws of sorted maps

Changing a map under a key keeps its keys in ascending order, so every key has
one value, and a look-up sees exactly the changes made under its own key.
-/

namespace ArchSurvey.Keyed

variable {α : Type}

/-- The keys stand in ascending order, each once. -/
def Sorted (map : List (String × α)) : Prop :=
  (map.map Prod.fst).Pairwise (· < ·)

theorem Sorted.nil : Sorted ([] : List (String × α)) :=
  List.Pairwise.nil

theorem Sorted.tail {pair : String × α} {map : List (String × α)}
    (sorted : Sorted (pair :: map)) : Sorted map :=
  (List.pairwise_cons.mp sorted).2

theorem Sorted.head_lt {name : String} {held : α} {map : List (String × α)}
    (sorted : Sorted ((name, held) :: map)) {other : String}
    (member : other ∈ map.map Prod.fst) : name < other :=
  (List.pairwise_cons.mp sorted).1 other member

theorem Sorted.nodup {map : List (String × α)} (sorted : Sorted map) :
    (map.map Prod.fst).Nodup :=
  List.Pairwise.imp (fun less => String.ne_of_lt less) sorted

theorem Sorted.alter {map : List (String × α)} (sorted : Sorted map)
    (key : String) (change : Option α → α) :
    Sorted (alter key change map) := by
  induction map with
  | nil => exact List.pairwise_singleton _ _
  | cons pair rest ih =>
      obtain ⟨name, held⟩ := pair
      unfold Keyed.alter
      split
      · next less =>
          refine List.pairwise_cons.mpr ⟨?_, sorted⟩
          intro other member
          rcases List.mem_cons.mp member with rfl | later
          · exact less
          · exact String.lt_trans less (sorted.head_lt later)
      · next notLess =>
          split
          · next same =>
              have equal : key = name := eq_of_beq same
              subst equal
              exact List.pairwise_cons.mpr
                ⟨fun other member => sorted.head_lt member, sorted.tail⟩
          · next different =>
              refine List.pairwise_cons.mpr ⟨?_, ih sorted.tail⟩
              intro other member
              rcases (mem_keys_alter key other change rest).mp member with
                rfl | later
              · have distinct : name ≠ other := by
                  intro equal
                  exact different (by simp [equal])
                exact Std.lt_of_le_of_ne (String.not_lt.mp notLess) distinct
              · exact sorted.head_lt later

/-- A key that is no key of a map has no value there. -/
theorem lookup_eq_none {key : String} {map : List (String × α)}
    (absent : key ∉ map.map Prod.fst) : map.lookup key = none := by
  apply List.lookup_eq_none_iff.mpr
  intro pair member
  have different : key ≠ pair.1 := by
    intro equal
    exact absent (equal ▸ List.mem_map_of_mem member)
  simpa using different

theorem lookup_alter {map : List (String × α)} (sorted : Sorted map)
    (key other : String) (change : Option α → α) :
    (alter key change map).lookup other =
      if other = key then some (change (map.lookup key))
      else map.lookup other := by
  induction map with
  | nil =>
      by_cases same : other = key
      · simp [Keyed.alter, same]
      · have different : (other == key) = false := by simp [same]
        simp [Keyed.alter, same, List.lookup_cons, different]
  | cons pair rest ih =>
      obtain ⟨name, held⟩ := pair
      unfold Keyed.alter
      split
      · next less =>
          have absent : key ∉ ((name, held) :: rest).map Prod.fst := by
            intro member
            rcases List.mem_cons.mp member with equal | later
            · exact String.ne_of_lt less equal
            · exact String.lt_asymm less (sorted.head_lt later)
          rw [lookup_eq_none absent]
          by_cases same : other = key
          · simp [same]
          · have different : (other == key) = false := by simp [same]
            simp [same, List.lookup_cons, different]
      · split
        · next same =>
            have equal : key = name := eq_of_beq same
            subst equal
            by_cases same : other = key
            · simp [same]
            · have different : (other == key) = false := by simp [same]
              simp [same, List.lookup_cons, different]
        · next different =>
            have keyDifferent : (key == name) = false := by
              simpa using different
            rw [List.lookup_cons, List.lookup_cons, List.lookup_cons,
              keyDifferent, ih sorted.tail]
            by_cases here : other = name
            · subst here
              have distinct : other ≠ key := by
                intro equal
                simp [equal] at keyDifferent
              simp [distinct]
            · have different : (other == name) = false := by simp [here]
              rw [different]

theorem Sorted.insertNew {map : List (String × α)} (sorted : Sorted map)
    (key : String) (value : α) : Sorted (insertNew key value map) :=
  sorted.alter key _

theorem mem_keys_insertNew (key other : String) (value : α)
    (map : List (String × α)) :
    other ∈ (insertNew key value map).map Prod.fst ↔
      other = key ∨ other ∈ map.map Prod.fst :=
  mem_keys_alter key other _ map

theorem lookup_insertNew {map : List (String × α)} (sorted : Sorted map)
    (key other : String) (value : α) :
    (insertNew key value map).lookup other =
      if other = key then some ((map.lookup key).getD value)
      else map.lookup other :=
  lookup_alter sorted key other _

/-- The pairs of a sorted map are its look-ups. -/
theorem Sorted.mem_iff_lookup {map : List (String × α)} (sorted : Sorted map)
    {key : String} {value : α} :
    (key, value) ∈ map ↔ map.lookup key = some value := by
  induction map with
  | nil => simp
  | cons pair rest ih =>
      obtain ⟨name, held⟩ := pair
      rw [List.mem_cons, ih sorted.tail, List.lookup_cons]
      by_cases same : key = name
      · subst same
        have absent : key ∉ rest.map Prod.fst := by
          intro member
          exact String.lt_irrefl key (sorted.head_lt member)
        simp [lookup_eq_none absent, eq_comm]
      · have different : (key == name) = false := by simp [same]
        simp [same, different]

/-- A key that has a value keeps it when it is offered another. -/
theorem insertNew_of_mem {key : String} {map : List (String × α)}
    (sorted : Sorted map) (member : key ∈ map.map Prod.fst) (value : α) :
    insertNew key value map = map := by
  induction map with
  | nil => simp at member
  | cons pair rest ih =>
      obtain ⟨name, held⟩ := pair
      unfold Keyed.insertNew Keyed.alter
      rcases List.mem_cons.mp member with equal | later
      · have equal : key = name := equal
        subst equal
        simp
      · have less : name < key := sorted.head_lt later
        rw [if_neg (String.lt_asymm less)]
        have different : (key == name) = false := by
          simpa using (String.ne_of_lt less).symm
        rw [different]
        simpa [Keyed.insertNew] using ih sorted.tail later

/-- A new key is set to the value that it is offered. -/
theorem insert_eq_insertNew {key : String} {map : List (String × α)}
    (absent : key ∉ map.map Prod.fst) (value : α) :
    insert key value map = insertNew key value map := by
  induction map with
  | nil => rfl
  | cons pair rest ih =>
      obtain ⟨name, held⟩ := pair
      rw [List.map_cons, List.mem_cons, not_or] at absent
      obtain ⟨apart, later⟩ := absent
      have different : (key == name) = false := by simpa using apart
      have rest := ih later
      unfold Keyed.insert Keyed.insertNew at rest ⊢
      rw [alter, alter, different, rest]
      rfl

/-- Sorted maps with the same look-ups are the same. -/
theorem Sorted.ext {map other : List (String × α)} (sorted : Sorted map)
    (sortedToo : Sorted other)
    (same : ∀ key, map.lookup key = other.lookup key) : map = other := by
  have ascending {map : List (String × α)} (sorted : Sorted map) :
      map.Pairwise fun a b => a.1 < b.1 := List.pairwise_map.mp sorted
  have once {map : List (String × α)} (sorted : Sorted map) : map.Nodup :=
    (ascending sorted).imp fun less equal =>
      String.ne_of_lt less (congrArg Prod.fst equal)
  have permuted : map.Perm other := by
    apply (List.perm_ext_iff_of_nodup (once sorted) (once sortedToo)).mpr
    intro (key, value)
    rw [sorted.mem_iff_lookup, sortedToo.mem_iff_lookup, same]
  exact List.Perm.eq_of_pairwise
    (fun a b _ _ less more => absurd more (String.lt_asymm less))
    (ascending sorted) (ascending sortedToo) permuted

theorem Sorted.insert {map : List (String × α)} (sorted : Sorted map)
    (key : String) (value : α) : Sorted (insert key value map) :=
  sorted.alter key _

theorem Sorted.mem_insert_iff {map : List (String × α)} (sorted : Sorted map)
    {key other : String} {value item : α} :
    (other, item) ∈ Keyed.insert key value map ↔
      if other = key then item = value else (other, item) ∈ map := by
  rw [(sorted.insert key value).mem_iff_lookup, Keyed.insert,
    lookup_alter sorted]
  split
  · rw [Option.some_inj, eq_comm]
  · exact sorted.mem_iff_lookup.symm

/-- A value set under a key that is left out does not show. -/
theorem filter_insert_of_dropped (keeps : String → Bool) {key : String}
    (dropped : keeps key = false) (value : α) (map : List (String × α)) :
    (insert key value map).filter (fun pair => keeps pair.1) =
      map.filter fun pair => keeps pair.1 := by
  unfold Keyed.insert
  induction map with
  | nil => simp [alter, dropped]
  | cons pair rest ih =>
      obtain ⟨name, held⟩ := pair
      rw [alter]
      split
      · rw [List.filter_cons_of_neg (by simp [dropped])]
      · split
        · next same =>
            obtain rfl := eq_of_beq same
            rw [List.filter_cons_of_neg (by simp [dropped]),
              List.filter_cons_of_neg (by simp [dropped])]
        · rw [List.filter_cons, List.filter_cons, ih]

/-- A key below all others goes to the front. -/
theorem insert_of_lt {key : String} {map : List (String × α)}
    (below : ∀ other ∈ map.map Prod.fst, key < other) (value : α) :
    insert key value map = (key, value) :: map := by
  cases map with
  | nil => rfl
  | cons pair rest => exact if_pos (below pair.1 (by simp))

/-- A key that is kept may be set before or after others are left out. -/
theorem Sorted.filter_insert_of_kept {map : List (String × α)}
    (sorted : Sorted map) (keeps : String → Bool) {key : String}
    (kept : keeps key = true) (value : α) :
    (Keyed.insert key value map).filter (fun pair => keeps pair.1) =
      Keyed.insert key value (map.filter fun pair => keeps pair.1) := by
  induction map with
  | nil => simp [Keyed.insert, Keyed.alter, kept]
  | cons pair rest ih =>
      obtain ⟨name, held⟩ := pair
      have later := ih sorted.tail
      unfold Keyed.insert at later ⊢
      rw [Keyed.alter]
      split
      · next less =>
          have below : ∀ other ∈ (((name, held) :: rest).filter
              fun pair => keeps pair.1).map Prod.fst, key < other := by
            intro other member
            have among : other ∈ ((name, held) :: rest).map Prod.fst :=
              List.map_subset _ List.filter_sublist.subset member
            rcases List.mem_cons.mp among with rfl | further
            · exact less
            · exact String.lt_trans less (sorted.head_lt further)
          rw [List.filter_cons_of_pos (by simpa using kept)]
          exact (insert_of_lt below value).symm
      · next notLess =>
          split
          · next same =>
              obtain rfl := eq_of_beq same
              rw [List.filter_cons_of_pos (by simpa using kept),
                List.filter_cons_of_pos (by simpa using kept), Keyed.alter,
                if_neg notLess, if_pos same]
          · next apart =>
              rw [List.filter_cons, List.filter_cons, later]
              split
              · rw [Keyed.alter, if_neg notLess, if_neg apart]
              · rfl

/-- A key above all others goes to the end. -/
theorem insert_of_gt {key : String} {map : List (String × α)}
    (above : ∀ other ∈ map.map Prod.fst, other < key) (value : α) :
    insert key value map = map ++ [(key, value)] := by
  unfold Keyed.insert
  induction map with
  | nil => rfl
  | cons pair rest ih =>
      obtain ⟨name, held⟩ := pair
      have less : name < key := above name List.mem_cons_self
      have apart : (key == name) = false := by
        simpa using (String.ne_of_lt less).symm
      rw [alter, if_neg (String.lt_asymm less), apart,
        if_neg Bool.false_ne_true,
        ih fun other member => above other (List.mem_cons_of_mem _ member)]
      rfl

/-- Entries in order are added one behind the other. -/
theorem foldl_insert_of_sorted {held map : List (String × α)}
    (sorted : Sorted (held ++ map)) :
    map.foldl (fun map (key, value) => Keyed.insert key value map) held =
      held ++ map := by
  induction map generalizing held with
  | nil => simp
  | cons pair rest ih =>
      obtain ⟨key, value⟩ := pair
      have above : ∀ other ∈ held.map Prod.fst, other < key := by
        intro other member
        rw [Sorted, List.map_append, List.pairwise_append] at sorted
        exact sorted.2.2 other member key List.mem_cons_self
      rw [List.foldl_cons]
      dsimp only
      rw [insert_of_gt above, ih (by simpa using sorted)]
      simp

/-- A sorted list of pairs is the map of its pairs. -/
theorem Sorted.ofList_eq {map : List (String × α)} (sorted : Sorted map) :
    ofList map = map :=
  foldl_insert_of_sorted sorted

theorem sorted_ofList (pairs : List (String × α)) : Sorted (ofList pairs) := by
  have keeps : ∀ map, Sorted map → Sorted (pairs.foldl
      (fun map (key, value) => Keyed.insert key value map) map) := by
    induction pairs with
    | nil => exact fun map sorted => sorted
    | cons pair rest ih =>
        exact fun map sorted => ih _ (sorted.insert pair.1 pair.2)
  exact keeps [] .nil

/-- What a map holds is one of the pairs it is made of. -/
theorem mem_of_mem_ofList {pairs : List (String × α)} {pair : String × α}
    (member : pair ∈ ofList pairs) : pair ∈ pairs := by
  have held : ∀ map, Sorted map → pair ∈ pairs.foldl
      (fun map (key, value) => Keyed.insert key value map) map →
        pair ∈ pairs ∨ pair ∈ map := by
    clear member
    induction pairs with
    | nil => exact fun map _ inMap => .inr inMap
    | cons first others ih =>
        intro map sorted inMap
        rcases ih _ (sorted.insert first.1 first.2) inMap with later | here
        · exact .inl (List.mem_cons_of_mem _ later)
        · have changed := sorted.mem_insert_iff.mp here
          split at changed
          · next same =>
              have equal : pair = first := Prod.ext same changed
              exact .inl (equal ▸ List.mem_cons_self)
          · exact .inr changed
  exact (held [] .nil member).resolve_right List.not_mem_nil

theorem Sorted.add {map : List (String × Nat)} (sorted : Sorted map)
    (key : String) (count : Nat) : Sorted (add key count map) :=
  sorted.alter key _

theorem mem_keys_add (key other : String) (count : Nat)
    (map : List (String × Nat)) :
    other ∈ (Keyed.add key count map).map Prod.fst ↔
      other = key ∨ other ∈ map.map Prod.fst :=
  mem_keys_alter key other _ map

theorem lookup_add {map : List (String × Nat)} (sorted : Sorted map)
    (key other : String) (count : Nat) :
    (Keyed.add key count map).lookup other =
      if other = key then some ((map.lookup key).getD 0 + count)
      else map.lookup other :=
  lookup_alter sorted key other _

/-- Numbers may be added in any order. -/
theorem add_add (key other : String) (count more : Nat)
    (map : List (String × Nat)) :
    add key count (add other more map) =
      add other more (add key count map) := by
  unfold Keyed.add
  induction map with
  | nil => grind [Keyed.alter]
  | cons pair rest ih =>
      obtain ⟨name, held⟩ := pair
      grind [Keyed.alter]

end ArchSurvey.Keyed
