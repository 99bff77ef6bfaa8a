/-!
# Sorted maps

A map from texts is a list of pairs in ascending order of their keys, each key once.
-/

namespace ArchSurvey.Keyed

variable {α : Type}

/-- The map with a key changed: `change` is given the value held under it, if any. -/
def alter (key : String) (change : Option α → α) : List (String × α) → List (String × α)
  | [] => [(key, change none)]
  | (other, held) :: rest =>
      if key < other then (key, change none) :: (other, held) :: rest
      else if key == other then (key, change (some held)) :: rest
      else (other, held) :: alter key change rest

/-- The map with a key set to a value. -/
def insert (key : String) (value : α) (map : List (String × α)) : List (String × α) :=
  alter key (fun _ => value) map

/-- The map with a key set to a value unless it has one already. -/
def insertNew (key : String) (value : α) (map : List (String × α)) : List (String × α) :=
  alter key (fun held => held.getD value) map

/-- The map with a number added to the one under a key, or set there. -/
def add (key : String) (count : Nat) (map : List (String × Nat)) : List (String × Nat) :=
  alter key (fun held => held.getD 0 + count) map

/-- The map of some pairs, the last value of each key kept. -/
def ofList (pairs : List (String × α)) : List (String × α) :=
  pairs.foldl (fun map (key, value) => insert key value map) []

theorem mem_keys_alter (key other : String) (change : Option α → α) (map : List (String × α)) :
    other ∈ (alter key change map).map Prod.fst ↔ other = key ∨ other ∈ map.map Prod.fst := by
  induction map with
  | nil => simp [alter]
  | cons pair rest ih =>
      obtain ⟨name, held⟩ := pair
      unfold alter
      split
      · simp
      · split
        · next same => simp [eq_of_beq same]
        · simp only [List.map_cons, List.mem_cons, ih]
          constructor <;> rintro (h | h | h) <;> simp [h]

end ArchSurvey.Keyed
