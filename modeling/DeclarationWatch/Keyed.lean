namespace DeclarationWatch

-- Pairs in strictly ascending order of their keys. Strings are compared by code points, which is
-- the order of their UTF-8 bytes.
abbrev Keyed (α : Type) := List (String × α)

namespace Keyed

variable {α : Type}

-- A present key takes the new value.
def insert (key : String) (value : α) : Keyed α → Keyed α
  | [] => [(key, value)]
  | (k, v) :: rest =>
      if key < k then (key, value) :: (k, v) :: rest
      else if key = k then (key, value) :: rest
      else (k, v) :: insert key value rest

def get? (key : String) : Keyed α → Option α
  | [] => none
  | (k, v) :: rest => if key = k then some v else get? key rest

def contains (key : String) (pairs : Keyed α) : Bool := (pairs.get? key).isSome

def keys (pairs : Keyed α) : List String := pairs.map (·.1)

def values (pairs : Keyed α) : List α := pairs.map (·.2)

theorem get?_insert (key k : String) (value : α) (pairs : Keyed α) :
    (pairs.insert key value).get? k = if k = key then some value else pairs.get? k := by
  induction pairs with
  | nil => rfl
  | cons pair rest ih =>
      obtain ⟨first, v⟩ := pair
      by_cases lt : key < first
      · simp [insert, get?, lt]
      · by_cases same : key = first
        · subst same
          by_cases hk : k = key <;> simp [insert, get?, hk]
        · by_cases hk : k = first
          · simp [insert, get?, lt, same, hk, Ne.symm same]
          · simp [insert, get?, lt, same, hk, ih]

-- No key occurs twice, and the keys ascend.
def Ascending (pairs : Keyed α) : Prop := pairs.keys.Pairwise (· < ·)

theorem mem_keys_insert (key k : String) (value : α) (pairs : Keyed α) :
    k ∈ (pairs.insert key value).keys ↔ k = key ∨ k ∈ pairs.keys := by
  induction pairs with
  | nil => simp [insert, keys]
  | cons pair rest ih =>
      obtain ⟨first, v⟩ := pair
      by_cases lt : key < first
      · simp [insert, keys, lt]
      · by_cases same : key = first
        · simp [insert, keys, same]
        · simp only [insert, lt, same, if_false]
          simp only [keys, List.map_cons, List.mem_cons] at ih ⊢
          rw [ih]
          exact or_left_comm

theorem Ascending.insert {pairs : Keyed α} (key : String) (value : α) (h : pairs.Ascending) :
    (pairs.insert key value).Ascending := by
  induction pairs with
  | nil => simp [Ascending, Keyed.insert, keys]
  | cons pair rest ih =>
      obtain ⟨first, v⟩ := pair
      simp only [Ascending, keys, List.map_cons, List.pairwise_cons] at h
      by_cases lt : key < first
      · simp only [Ascending, Keyed.insert, keys, lt, if_true, List.map_cons, List.pairwise_cons,
          List.mem_cons]
        exact ⟨fun k hk => hk.elim (· ▸ lt) fun hk => String.lt_trans lt (h.1 k hk), h⟩
      · by_cases same : key = first
        · subst same
          simpa [Ascending, Keyed.insert, keys, lt] using h
        · simp only [Ascending, Keyed.insert, lt, same, if_false, keys, List.map_cons,
            List.pairwise_cons]
          refine ⟨fun k hk => ?_, ih h.2⟩
          rcases (mem_keys_insert key k value rest).mp hk with rfl | hk
          · exact String.not_le.mp fun le => same (String.le_antisymm le (String.not_lt.mp lt))
          · exact h.1 k hk

-- Of a repeated key the last value stays.
def ofList (pairs : List (String × α)) : Keyed α :=
  pairs.foldl (fun table pair => table.insert pair.1 pair.2) []

theorem ascending_ofList (pairs : List (String × α)) : (ofList pairs).Ascending := by
  have build (table : Keyed α) (h : table.Ascending) :
      (pairs.foldl (fun table pair => table.insert pair.1 pair.2) table).Ascending := by
    induction pairs generalizing table with
    | nil => exact h
    | cons pair rest ih => exact ih _ (h.insert pair.1 pair.2)
  exact build [] List.Pairwise.nil

end Keyed

end DeclarationWatch
