import DeclarationWatch.Ledger.Store
import Mathlib.Data.List.Nodup

namespace DeclarationWatch.Ledger

theorem find?_eq_some_iff (ledger : Ledger) (id : String) (item : Item) :
    ledger.find? id = some item ↔ item ∈ ledger.items ∧ item.id = id := by
  unfold find?
  constructor
  · intro h
    exact ⟨List.mem_of_find?_eq_some h, by simpa using List.find?_some h⟩
  · rintro ⟨hmem, rfl⟩
    cases hfound : ledger.items.find? (·.id == item.id) with
    | none =>
        have hnone := List.find?_eq_none.mp hfound item hmem
        simp at hnone
    | some other =>
        have hother := List.mem_of_find?_eq_some hfound
        have hid : other.id = item.id := by simpa using List.find?_some hfound
        rw [List.inj_on_of_nodup_map ledger.distinct hother hmem hid]

theorem find?_eq_none_iff (ledger : Ledger) (id : String) :
    ledger.find? id = none ↔ id ∉ ledger.items.map (·.id) := by
  simp [find?, List.find?_eq_none]

@[simp] theorem find?_empty (id : String) : empty.find? id = none := rfl

@[simp] theorem find?_deleteAll (ledger : Ledger) (id : String) :
    ledger.deleteAll.2.find? id = none := rfl

-- A registration decides about its own id only, and only if the id is new.
theorem find?_register (ledger : Ledger) (item : Item) (id : String) :
    (ledger.register item).2.find? id =
      (ledger.find? id).or (if id = item.id then some item else none) := by
  unfold register
  split
  · rename_i hmem
    by_cases hid : id = item.id
    · subst hid
      obtain ⟨stored, hstored, hsame⟩ := List.mem_map.mp hmem
      have hfind : ledger.find? item.id = some stored :=
        (find?_eq_some_iff ledger item.id stored).mpr ⟨hstored, hsame⟩
      simp [hfind]
    · simp [hid]
  · simp only [find?, List.find?_append, List.find?_singleton]
    congr 1
    by_cases hid : id = item.id
    · simp [hid]
    · simp [hid, Ne.symm hid]

theorem register_eq_created_iff (ledger : Ledger) (item : Item) :
    (ledger.register item).1 = .created ↔ ledger.find? item.id = none := by
  rw [find?_eq_none_iff]
  unfold register
  split <;> simp_all

theorem register_of_alreadyExists {ledger : Ledger} {item : Item}
    (h : (ledger.register item).1 = .alreadyExists) : (ledger.register item).2 = ledger := by
  unfold register at h ⊢
  split
  · rfl
  · rename_i hnew
    simp [hnew] at h

theorem find?_update (ledger : Ledger) (change : Update) (id : String) :
    (ledger.update change).find? id =
      (ledger.find? id).map fun item => if id = change.id then item.apply change else item := by
  unfold find? update revise
  rw [List.find?_map]
  have hsame : ((fun item : Item => item.id == id) ∘ fun item : Item =>
      if item.id = change.id then item.apply change else item) = fun item => item.id == id := by
    funext item
    by_cases h : item.id = change.id <;> simp [h]
  rw [hsame]
  cases hfound : ledger.items.find? (·.id == id) with
  | none => rfl
  | some item =>
      have hid : item.id = id := by simpa using List.find?_some hfound
      simp [hid]

-- The updates that name an item reach it in their order, and no others do.
theorem find?_bulkUpdate (ledger : Ledger) (updates : List Update) (id : String) :
    (ledger.bulkUpdate updates).2.find? id =
      (ledger.find? id).map fun item =>
        (updates.filter fun change => change.id = id).foldl Item.apply item := by
  simp only [bulkUpdate]
  induction updates generalizing ledger with
  | nil => simp
  | cons change rest ih =>
      rw [List.foldl_cons, ih, find?_update, Option.map_map]
      congr 1
      funext item
      by_cases h : id = change.id
      · simp [h]
      · simp [h, Ne.symm h]

theorem find?_bulkUpdate_of_notMem (ledger : Ledger) {updates : List Update} {id : String}
    (h : id ∉ updates.map (·.id)) :
    (ledger.bulkUpdate updates).2.find? id = ledger.find? id := by
  have hnone : (updates.filter fun change => change.id = id) = [] := by
    simpa [List.filter_eq_nil_iff] using h
  rw [find?_bulkUpdate, hnone]
  simp

theorem mem_of_mem_findIncomplete {ledger : Ledger} {limit : Int} {item : Item}
    (h : item ∈ ledger.findIncomplete limit) : item ∈ ledger.items ∧ item.complete = false := by
  have hsorted := List.mem_of_mem_take h
  rw [List.mem_mergeSort, List.mem_filter] at hsorted
  exact ⟨hsorted.1, by simpa using hsorted.2⟩

theorem nodup_findIncomplete (ledger : Ledger) (limit : Int) :
    ((ledger.findIncomplete limit).map (·.id)).Nodup := by
  unfold findIncomplete
  rw [List.map_take]
  apply List.Nodup.sublist (List.take_sublist _ _)
  rw [((List.mergeSort_perm _ _).map _).nodup_iff]
  exact ledger.distinct.sublist (List.filter_sublist.map _)

theorem find?_of_mem_findIncomplete {ledger : Ledger} {limit : Int} {item : Item}
    (h : item ∈ ledger.findIncomplete limit) : ledger.find? item.id = some item :=
  (find?_eq_some_iff ledger item.id item).mpr ⟨(mem_of_mem_findIncomplete h).1, rfl⟩

theorem findIncomplete_eq_singleton {ledger : Ledger} {limit : Int} {item : Item}
    (hopen : ledger.items.filter (!·.complete) = [item]) (hlimit : 0 < limit) :
    ledger.findIncomplete limit = [item] := by
  have hone : [item].length ≤ limit.toNat := by
    rw [List.length_singleton]
    omega
  rw [findIncomplete, hopen, List.mergeSort_singleton]
  exact List.take_of_length_le hone

-- Some replica has taken this occurrence of the job.
def Taken (ledger : Ledger) (job : String) (scheduled : Time.Instant) : Prop :=
  ∃ token ∈ ledger.claims, token.job = job ∧ token.scheduled = scheduled

section Acquire

variable {ledger : Ledger} {job : String} {scheduled now : Time.Instant}

theorem acquire_of_taken (h : ledger.Taken job scheduled) :
    ledger.acquire job scheduled now = (.alreadyClaimed, ledger) := by
  obtain ⟨token, hmem, hjob, hscheduled⟩ := h
  have htaken : (ledger.claims.any fun token =>
      token.job == job && token.scheduled == scheduled) = true :=
    List.any_eq_true.mpr ⟨token, hmem, by simp [hjob, hscheduled]⟩
  rw [acquire, if_pos htaken]

theorem acquire_of_not_taken (h : ¬ledger.Taken job scheduled) :
    ledger.acquire job scheduled now =
      (.acquired, { ledger with claims := ledger.claims ++ [⟨job, scheduled, now⟩] }) := by
  have hfree : ¬(ledger.claims.any fun token =>
      token.job == job && token.scheduled == scheduled) = true := by
    intro htaken
    obtain ⟨token, hmem, hsame⟩ := List.any_eq_true.mp htaken
    exact h ⟨token, hmem, by simpa using hsame⟩
  rw [acquire, if_neg hfree]

-- A claim takes its own occurrence and frees none.
theorem taken_acquire_iff {other : String} {time : Time.Instant} :
    (ledger.acquire job scheduled now).2.Taken other time ↔
      ledger.Taken other time ∨ (other = job ∧ time = scheduled) := by
  by_cases h : ledger.Taken job scheduled
  · rw [acquire_of_taken h]
    constructor
    · exact Or.inl
    · rintro (htaken | ⟨rfl, rfl⟩)
      · exact htaken
      · exact h
  · rw [acquire_of_not_taken h]
    simp only [Taken, List.mem_append, List.mem_singleton, or_and_right, exists_or, exists_eq_left]
    rw [eq_comm (a := job), eq_comm (a := scheduled)]

end Acquire

end DeclarationWatch.Ledger
