import DeclarationWatch.Keyed
import Mathlib.Data.List.Induction

namespace DeclarationWatch

-- Where one element may stand in a list that has just grown by another.
theorem append_singleton_eq_iff {α : Type} {list before after : List α} {last a : α} :
    list ++ [last] = before ++ a :: after ↔
      (before = list ∧ a = last ∧ after = []) ∨
        ∃ middle, after = middle ++ [last] ∧ list = before ++ a :: middle := by
  constructor
  · intro h
    rcases List.eq_nil_or_concat after with rfl | ⟨middle, b, rfl⟩
    · obtain ⟨hlist, hlast⟩ := List.append_inj' h rfl
      exact Or.inl ⟨hlist.symm, (List.singleton_inj.mp hlast).symm, rfl⟩
    · rw [List.concat_eq_append, ← List.cons_append, ← List.append_assoc] at h
      obtain ⟨hlist, hlast⟩ := List.append_inj' h rfl
      exact Or.inr ⟨middle, by simp [List.singleton_inj.mp hlast], hlist⟩
  · rintro (⟨rfl, rfl, rfl⟩ | ⟨middle, rfl, rfl⟩)
    · rfl
    · simp

section Splits

-- Something is true of each element of a list and those before it.
variable {α : Type} {property : List α → α → Prop} {list : List α} {a : α}

theorem forall_split_cons :
    (∀ before next after, a :: list = before ++ next :: after → property before next) ↔
      property [] a ∧
        ∀ before next after, list = before ++ next :: after → property (a :: before) next := by
  constructor
  · intro h
    refine ⟨h [] a list rfl, fun before next after heq => ?_⟩
    exact h (a :: before) next after (by rw [heq, List.cons_append])
  · rintro ⟨hfirst, hrest⟩ before next after heq
    cases before with
    | nil =>
        cases heq
        exact hfirst
    | cons first before =>
        cases heq
        exact hrest before next after rfl

theorem forall_split_append_singleton :
    (∀ before next after, list ++ [a] = before ++ next :: after → property before next) ↔
      (∀ before next after, list = before ++ next :: after → property before next) ∧
        property list a := by
  constructor
  · intro h
    refine ⟨fun before next after heq => ?_, h list a [] rfl⟩
    exact h before next (after ++ [a]) (by simp [heq])
  · rintro ⟨hlist, hlast⟩ before next after heq
    rcases append_singleton_eq_iff.mp heq with ⟨rfl, rfl, -⟩ | ⟨middle, -, hsplit⟩
    · exact hlast
    · exact hlist before next middle hsplit

-- Something was true of an element and those before it, and another thing of all since.
theorem exists_split_append_singleton {since : α → Prop} :
    (∃ before next after, list ++ [a] = before ++ next :: after ∧ property before next ∧
        ∀ later ∈ after, since later) ↔
      property list a ∨
        (∃ before next after, list = before ++ next :: after ∧ property before next ∧
          ∀ later ∈ after, since later) ∧ since a := by
  constructor
  · rintro ⟨before, next, after, heq, hnext, hafter⟩
    rcases append_singleton_eq_iff.mp heq with ⟨rfl, rfl, -⟩ | ⟨middle, rfl, rfl⟩
    · exact Or.inl hnext
    · rw [List.forall_mem_append, List.forall_mem_singleton] at hafter
      exact Or.inr ⟨⟨before, next, middle, rfl, hnext, hafter.1⟩, hafter.2⟩
  · rintro (hlast | ⟨⟨before, next, after, rfl, hnext, hafter⟩, hlast⟩)
    · exact ⟨list, a, [], rfl, hlast, by simp⟩
    · refine ⟨before, next, after ++ [a], by simp, hnext, ?_⟩
      rw [List.forall_mem_append, List.forall_mem_singleton]
      exact ⟨hafter, hlast⟩

-- Of the elements with a property one is the last.
theorem exists_last {P : α → Prop} (hmem : a ∈ list) (ha : P a) :
    ∃ before last after, list = before ++ last :: after ∧ P last ∧ ∀ later ∈ after, ¬P later := by
  induction list using List.reverseRecOn with
  | nil => cases hmem
  | append_singleton list final ih =>
      refine exists_split_append_singleton.mpr ?_
      by_cases hfinal : P final
      · exact Or.inl hfinal
      · refine Or.inr ⟨ih ?_, hfinal⟩
        rcases List.mem_append.mp hmem with hmem | hmem
        · exact hmem
        · exact absurd (List.mem_singleton.mp hmem ▸ ha) hfinal

end Splits

namespace Keyed

variable {α β : Type}

@[simp] theorem get?_nil (k : String) : get? k ([] : Keyed α) = none := rfl

theorem get?_cons (k first : String) (v : α) (rest : Keyed α) :
    get? k ((first, v) :: rest) = if k = first then some v else rest.get? k := rfl

theorem ascending_nil : Ascending ([] : Keyed α) := List.Pairwise.nil

theorem ascending_cons (first : String) (v : α) (rest : Keyed α) :
    Ascending ((first, v) :: rest) ↔ (∀ k ∈ rest.keys, first < k) ∧ rest.Ascending := by
  simp [Ascending, keys]

theorem mem_of_get? {k : String} {v : α} {pairs : Keyed α} (h : pairs.get? k = some v) :
    (k, v) ∈ pairs := by
  induction pairs with
  | nil => simp at h
  | cons pair rest ih =>
      obtain ⟨first, w⟩ := pair
      rw [get?_cons] at h
      split at h
      · rename_i hk
        rw [hk, Option.some.inj h]
        exact List.mem_cons_self
      · exact List.mem_cons_of_mem _ (ih h)

-- Where keys ascend, a pair is in the table exactly when its key leads to its value.
theorem get?_eq_some_iff {pairs : Keyed α} (h : pairs.Ascending) (k : String) (v : α) :
    pairs.get? k = some v ↔ (k, v) ∈ pairs := by
  refine ⟨mem_of_get?, fun hmem => ?_⟩
  induction pairs with
  | nil => simp at hmem
  | cons pair rest ih =>
      obtain ⟨first, w⟩ := pair
      rw [ascending_cons] at h
      rw [get?_cons]
      rcases List.mem_cons.mp hmem with heq | hrest
      · obtain ⟨rfl, rfl⟩ := Prod.mk.inj heq
        simp
      · have hlt : first < k := h.1 k (List.mem_map_of_mem hrest)
        have hne : k ≠ first := fun he => String.lt_irrefl k (he ▸ hlt)
        simpa [hne] using ih h.2 hrest

theorem Ascending.nodup {pairs : Keyed α} (h : pairs.Ascending) : pairs.Nodup := by
  refine (List.pairwise_map.mp h).imp ?_
  rintro a b hlt rfl
  exact String.lt_irrefl _ hlt

-- Two tables that lead to the same values are the same.
theorem Ascending.ext {pairs others : Keyed α} (h : pairs.Ascending) (hothers : others.Ascending)
    (hsame : ∀ k, pairs.get? k = others.get? k) : pairs = others := by
  have hmem : ∀ pair, pair ∈ pairs ↔ pair ∈ others := by
    intro pair
    rw [← get?_eq_some_iff h, ← get?_eq_some_iff hothers, hsame]
  have hperm : pairs.Perm others := (List.perm_ext_iff_of_nodup h.nodup hothers.nodup).mpr hmem
  refine hperm.eq_of_pairwise ?_ (List.pairwise_map.mp h) (List.pairwise_map.mp hothers)
  intro a b _ _ hab hba
  exact absurd (String.lt_trans hab hba) (String.lt_irrefl _)

theorem mem_of_mem_insert {key : String} {value : α} {pair : String × α} {pairs : Keyed α}
    (h : pair ∈ pairs.insert key value) : pair = (key, value) ∨ pair ∈ pairs := by
  induction pairs with
  | nil => simpa [insert] using h
  | cons first rest ih =>
      obtain ⟨k, v⟩ := first
      unfold insert at h
      split at h
      · exact List.mem_cons.mp h
      · split at h
        · rcases List.mem_cons.mp h with heq | hrest
          · exact Or.inl heq
          · exact Or.inr (List.mem_cons_of_mem _ hrest)
        · rcases List.mem_cons.mp h with heq | hrest
          · exact Or.inr (heq ▸ List.mem_cons_self)
          · exact (ih hrest).imp_right (List.mem_cons_of_mem _)

theorem ofList_append_singleton (pairs : List (String × α)) (pair : String × α) :
    ofList (pairs ++ [pair]) = (ofList pairs).insert pair.1 pair.2 := by
  simp [ofList, List.foldl_append]

-- The last value given for a key is the one that is kept.
theorem get?_ofList (pairs : List (String × α)) (k : String) (v : α) :
    (ofList pairs).get? k = some v ↔
      ∃ before after, pairs = before ++ (k, v) :: after ∧ k ∉ after.map (·.1) := by
  induction pairs using List.reverseRecOn with
  | nil => simp [ofList]
  | append_singleton pairs pair ih =>
      obtain ⟨last, w⟩ := pair
      rw [ofList_append_singleton, get?_insert]
      by_cases hk : k = last
      · subst hk
        constructor
        · intro h
          refine ⟨pairs, [], ?_, by simp⟩
          simpa using h
        · rintro ⟨before, after, heq, hafter⟩
          rcases append_singleton_eq_iff.mp heq with ⟨-, hpair, -⟩ | ⟨middle, rfl, -⟩
          · simpa using (Prod.mk.inj hpair).2.symm
          · simp at hafter
      · simp only [hk, if_false]
        rw [ih]
        constructor
        · rintro ⟨before, after, rfl, hafter⟩
          exact ⟨before, after ++ [(last, w)], by simp, by simpa [hk] using hafter⟩
        · rintro ⟨before, after, heq, hafter⟩
          rcases append_singleton_eq_iff.mp heq with ⟨-, hpair, -⟩ | ⟨middle, rfl, hpairs⟩
          · exact absurd (Prod.mk.inj hpair).1 hk
          · refine ⟨before, middle, hpairs, fun hmem => hafter ?_⟩
            simp only [List.map_append, List.mem_append]
            exact Or.inl hmem

-- A key above all others goes to the end.
theorem insert_of_forall_lt (key : String) (value : α) (pairs : Keyed α)
    (h : ∀ k ∈ pairs.keys, k < key) : pairs.insert key value = pairs ++ [(key, value)] := by
  induction pairs with
  | nil => rfl
  | cons pair rest ih =>
      obtain ⟨first, v⟩ := pair
      have hfirst : first < key := h first (by simp [keys])
      have hlt : ¬key < first := fun h => String.lt_irrefl _ (String.lt_trans h hfirst)
      have hne : key ≠ first := fun he => String.lt_irrefl key (he ▸ hfirst)
      have hrest := ih fun k hk => h k (List.mem_cons_of_mem _ hk)
      simp [insert, hlt, hne, hrest]

theorem ascending_append (pairs others : Keyed α) :
    Ascending (pairs ++ others) ↔
      pairs.Ascending ∧ others.Ascending ∧ ∀ a ∈ pairs.keys, ∀ b ∈ others.keys, a < b := by
  simp only [Ascending, keys, List.map_append, List.pairwise_append]

theorem insert_of_ascending_append {key : String} {value : α} {pairs rest : Keyed α}
    (h : Ascending (pairs ++ (key, value) :: rest)) :
    pairs.insert key value = pairs ++ [(key, value)] := by
  obtain ⟨-, -, hlt⟩ := (ascending_append pairs ((key, value) :: rest)).mp h
  apply insert_of_forall_lt
  intro k hk
  exact hlt k hk key (by simp [keys])

-- What comes later counts.
theorem get?_foldl_insert {pairs : Keyed α} (h : pairs.Ascending) (table : Keyed α) (k : String) :
    (pairs.foldl (fun table pair => table.insert pair.1 pair.2) table).get? k =
      (pairs.get? k).or (table.get? k) := by
  induction pairs generalizing table with
  | nil => rfl
  | cons pair rest ih =>
      obtain ⟨first, v⟩ := pair
      obtain ⟨hfirst, hrest⟩ := (ascending_cons first v rest).mp h
      rw [List.foldl_cons, ih hrest, get?_insert, get?_cons]
      by_cases hk : k = first
      · have hnone : get? k rest = none := by
          rw [← Option.not_isSome_iff_eq_none, Option.isSome_iff_exists]
          rintro ⟨w, hw⟩
          exact String.lt_irrefl k (hk ▸ hfirst k (List.mem_map_of_mem (mem_of_get? hw)))
        simp [hk, hk ▸ hnone]
      · simp [hk]

-- Pairs that ascend already are kept as they stand.
theorem ofList_of_ascending {pairs : Keyed α} (h : pairs.Ascending) : ofList pairs = pairs := by
  induction pairs using List.reverseRecOn with
  | nil => rfl
  | append_singleton pairs pair ih =>
      have hpairs := ((ascending_append pairs [pair]).mp h).1
      rw [ofList_append_singleton, ih hpairs]
      exact insert_of_ascending_append h

end Keyed

end DeclarationWatch
