import DeclarationWatch.Proofs.Ledger.Store
import DeclarationWatch.Proofs.Time.Order

namespace DeclarationWatch

namespace Item

-- When two items are due in this order.
theorem isDueBefore_iff {a b : Item} : a.isDueBefore b = true ↔
    match a.lastPolled, b.lastPolled with
    | none, some _ => True
    | some _, none => False
    | none, none => a.id ≤ b.id
    | some s, some t => s.before t = true ∨ s = t ∧ a.id ≤ b.id := by
  unfold isDueBefore
  cases a.lastPolled <;> cases b.lastPolled <;> simp

theorem isDueBefore_trans {a b c : Item} (hab : a.isDueBefore b = true)
    (hbc : b.isDueBefore c = true) : a.isDueBefore c = true := by
  rw [isDueBefore_iff] at *
  cases ha : a.lastPolled with
  | none =>
      cases hb : b.lastPolled <;> cases hc : c.lastPolled <;> simp only [ha, hb, hc] at *
      exact String.le_trans hab hbc
  | some s =>
      cases hb : b.lastPolled with
      | none => simp [ha, hb] at hab
      | some t =>
          cases hc : c.lastPolled with
          | none => simp [hb, hc] at hbc
          | some u =>
              simp only [ha, hb, hc] at *
              rcases hab with hst | ⟨rfl, hab⟩
              · rcases hbc with htu | ⟨rfl, -⟩
                · exact Or.inl (Time.Instant.before_trans hst htu)
                · exact Or.inl hst
              · rcases hbc with htu | ⟨rfl, hbc⟩
                · exact Or.inl htu
                · exact Or.inr ⟨rfl, String.le_trans hab hbc⟩

theorem isDueBefore_total (a b : Item) : (a.isDueBefore b || b.isDueBefore a) = true := by
  rw [Bool.or_eq_true, isDueBefore_iff, isDueBefore_iff]
  cases a.lastPolled with
  | none =>
      cases b.lastPolled with
      | none => exact String.le_total _ _
      | some t => exact Or.inl trivial
  | some s =>
      cases b.lastPolled with
      | none => exact Or.inr trivial
      | some t =>
          rcases Time.Instant.before_trichotomy s t with hst | rfl | hts
          · exact Or.inl (Or.inl hst)
          · rcases String.le_total a.id b.id with hle | hle
            · exact Or.inl (Or.inr ⟨rfl, hle⟩)
            · exact Or.inr (Or.inr ⟨rfl, hle⟩)
          · exact Or.inr (Or.inl hts)

-- Two items of which each is due before the other have the same id.
theorem isDueBefore_antisymm {a b : Item} (hab : a.isDueBefore b = true)
    (hba : b.isDueBefore a = true) : a.id = b.id := by
  rw [isDueBefore_iff] at hab hba
  cases ha : a.lastPolled with
  | none =>
      cases hb : b.lastPolled with
      | none =>
          simp only [ha, hb] at hab hba
          exact String.le_antisymm hab hba
      | some t => simp [ha, hb] at hba
  | some s =>
      cases hb : b.lastPolled with
      | none => simp [ha, hb] at hab
      | some t =>
          simp only [ha, hb] at hab hba
          rcases Time.Instant.before_trichotomy s t with hless | rfl | hless
          · simp [Time.Instant.before_asymm hless, (Time.Instant.ne_of_before hless).symm] at hba
          · simp only [Time.Instant.before_irrefl, Bool.false_eq_true, true_and,
              false_or] at hab hba
            exact String.le_antisymm hab hba
          · simp [Time.Instant.before_asymm hless, (Time.Instant.ne_of_before hless).symm] at hab

-- An item that was polled at some time waits for those never polled and those polled earlier.
theorem not_isDueBefore_of_polled {a b : Item} {time : Time.Instant} (ha : a.lastPolled = some time)
    (hb : ∀ earlier, b.lastPolled = some earlier → earlier.before time = true) :
    ¬a.isDueBefore b = true := by
  rw [isDueBefore_iff, ha]
  cases hlast : b.lastPolled with
  | none => exact fun h => h
  | some earlier =>
      have hbefore := hb earlier hlast
      rintro (hlater | ⟨rfl, -⟩)
      · rw [Time.Instant.before_asymm hbefore] at hlater
        cases hlater
      · rw [Time.Instant.before_irrefl] at hbefore
        cases hbefore

end Item

namespace Ledger

-- The items that are not complete.
def pending (ledger : Ledger) : List Item := ledger.items.filter (!·.complete)

theorem mem_pending_iff {ledger : Ledger} {item : Item} :
    item ∈ ledger.pending ↔ item ∈ ledger.items ∧ item.complete = false := by
  simp [pending]

theorem mem_pending_iff_find? {ledger : Ledger} {item : Item} :
    item ∈ ledger.pending ↔ ledger.find? item.id = some item ∧ item.complete = false := by
  simp [mem_pending_iff, find?_eq_some_iff]

theorem mem_pending_of_mem_findIncomplete {ledger : Ledger} {limit : Int} {item : Item}
    (h : item ∈ ledger.findIncomplete limit) : item ∈ ledger.pending :=
  mem_pending_iff.mpr (mem_of_mem_findIncomplete h)

-- The pending items in the order in which they are due.
def queue (ledger : Ledger) : List Item := ledger.pending.mergeSort Item.isDueBefore

theorem queue_perm (ledger : Ledger) : ledger.queue.Perm ledger.pending :=
  List.mergeSort_perm _ _

theorem pairwise_queue (ledger : Ledger) :
    ledger.queue.Pairwise fun a b => a.isDueBefore b = true := by
  apply List.pairwise_mergeSort
  · intro a b c
    exact Item.isDueBefore_trans
  · exact Item.isDueBefore_total

-- A limited find takes the front of the queue.
theorem findIncomplete_eq (ledger : Ledger) (limit : Int) :
    ledger.findIncomplete limit = ledger.queue.take limit.toNat := rfl

theorem findIncomplete_ne_nil {ledger : Ledger} {limit : Int} (hlimit : 1 ≤ limit)
    (h : ledger.pending ≠ []) : ledger.findIncomplete limit ≠ [] := by
  have hlength := ledger.queue_perm.length_eq
  rw [← List.length_pos_iff] at h ⊢
  rw [findIncomplete_eq, List.length_take, hlength]
  omega

-- Items that are kept in the order in which they are due are found as they are kept.
theorem queue_of_pairwise {ledger : Ledger}
    (hsorted : ledger.pending.Pairwise fun a b => a.isDueBefore b = true) :
    ledger.queue = ledger.pending := List.mergeSort_of_pairwise hsorted

theorem findIncomplete_of_pairwise {ledger : Ledger} {limit : Int}
    (hsorted : ledger.pending.Pairwise fun a b => a.isDueBefore b = true)
    (hlimit : ledger.pending.length ≤ limit) : ledger.findIncomplete limit = ledger.pending := by
  rw [findIncomplete_eq, queue_of_pairwise hsorted, List.take_of_length_le (by omega)]

-- What is left behind stands in the queue after all that is found.
theorem rel_of_notMem_findIncomplete {ledger : Ledger} {limit : Int} {rel : Item → Item → Prop}
    (hsorted : ledger.queue.Pairwise rel) {left : Item} (hleft : left ∈ ledger.pending)
    (hout : left ∉ ledger.findIncomplete limit) :
    left ∈ ledger.queue.drop limit.toNat ∧ ∀ item ∈ ledger.findIncomplete limit, rel item left := by
  have hqueued : left ∈ ledger.queue := ledger.queue_perm.mem_iff.mpr hleft
  rw [findIncomplete_eq] at hout ⊢
  rw [← List.take_append_drop limit.toNat ledger.queue] at hsorted hqueued
  have hdrop := (List.mem_append.mp hqueued).resolve_left hout
  exact ⟨hdrop, fun item hitem => (List.pairwise_append.mp hsorted).2.2 item hitem left hdrop⟩

-- What stays behind is due after all that is found, and the batch is full.
theorem isDueBefore_of_notMem_findIncomplete {ledger : Ledger} {limit : Int} {left : Item}
    (hleft : left ∈ ledger.pending) (hout : left ∉ ledger.findIncomplete limit) :
    (∀ item ∈ ledger.findIncomplete limit, item.isDueBefore left = true) ∧
      (ledger.findIncomplete limit).length = limit.toNat := by
  obtain ⟨hdrop, hbefore⟩ := rel_of_notMem_findIncomplete ledger.pairwise_queue hleft hout
  refine ⟨hbefore, ?_⟩
  have hpos := List.length_pos_of_mem hdrop
  rw [List.length_drop] at hpos
  rw [findIncomplete_eq, List.length_take]
  omega

end Ledger

end DeclarationWatch
