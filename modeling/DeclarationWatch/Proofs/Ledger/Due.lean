import DeclarationWatch.Proofs.Ledger.Order
import DeclarationWatch.Proofs.Text.Utf8
import Mathlib.Data.Int.ConditionallyCompleteOrder
import Mathlib.Data.Prod.Lex
import Mathlib.Order.ConditionallyCompleteLattice.Basic
import Mathlib.Order.WithBot

namespace DeclarationWatch

namespace Item

-- The place of an item in the queue, in the usual orders: nothing comes before an item that was
-- never polled, an earlier reading before a later one, and of equal readings the bytes of the ids
-- decide.
def dueKey (item : Item) : WithBot (ℤ ×ₗ ℕ) ×ₗ Text.Bytes :=
  toLex (match item.lastPolled with
    | none => ⊥
    | some t => ((toLex (t.seconds, t.nanos) : ℤ ×ₗ ℕ) : WithBot (ℤ ×ₗ ℕ)), Text.utf8 item.id)

-- An item has the smaller key if the other one is not due before it.
theorem dueKey_lt_iff {a b : Item} : a.dueKey < b.dueKey ↔ ¬b.isDueBefore a = true := by
  rw [isDueBefore_iff, dueKey, dueKey, Prod.Lex.toLex_lt_toLex]
  simp only [Text.utf8_lt_utf8_iff]
  cases a.lastPolled with
  | none =>
      cases b.lastPolled with
      | none => simp
      | some t => simp
  | some s =>
      cases b.lastPolled with
      | none => simp
      | some t =>
          have hsame : (s.seconds, s.nanos) = (t.seconds, t.nanos) ↔ s = t := by
            cases s
            cases t
            simp
          simp only [WithBot.coe_lt_coe, WithBot.coe_inj, toLex_inj, hsame,
            Prod.Lex.toLex_lt_toLex, ← Time.Instant.before_iff]
          rcases Time.Instant.before_trichotomy s t with hless | rfl | hless
          · simp [hless, Time.Instant.before_asymm hless, (Time.Instant.ne_of_before hless).symm]
          · simp [Time.Instant.before_irrefl]
          · simp [hless, Time.Instant.before_asymm hless, (Time.Instant.ne_of_before hless).symm]

end Item

namespace Ledger

variable {ledger : Ledger}

-- Ids are not repeated, so that no two items of the queue have the same place.
theorem pairwise_dueKey_queue (ledger : Ledger) :
    ledger.queue.Pairwise fun a b => a.dueKey < b.dueKey := by
  have hids : (ledger.queue.map (·.id)).Nodup := by
    rw [(ledger.queue_perm.map _).nodup_iff]
    exact ledger.distinct.sublist (List.filter_sublist.map _)
  rw [List.Nodup, List.pairwise_map] at hids
  refine (hids.and ledger.pairwise_queue).imp ?_
  rintro a b ⟨hne, hbefore⟩
  rw [Item.dueKey_lt_iff]
  exact fun hafter => hne (Item.isDueBefore_antisymm hbefore hafter)

-- In whatever order the items are kept, they queue up in the same way.
theorem queue_of_perm {other : Ledger} (h : other.items.Perm ledger.items) :
    other.queue = ledger.queue := by
  have hperm : other.queue.Perm ledger.queue :=
    other.queue_perm.trans ((h.filter _).trans ledger.queue_perm.symm)
  have hstored : ∀ item ∈ ledger.queue, item ∈ ledger.items := fun item hitem =>
    (mem_pending_iff.mp (ledger.queue_perm.mem_iff.mp hitem)).1
  refine hperm.eq_of_pairwise ?_ other.pairwise_queue ledger.pairwise_queue
  intro a b ha hb hab hba
  exact List.inj_on_of_nodup_map ledger.distinct (hstored a (hperm.mem_iff.mp ha)) (hstored b hb)
    (Item.isDueBefore_antisymm hab hba)

-- What a limited find gives back: incomplete items as they are in the store, none of them twice, in
-- strictly ascending order of their keys, as many as the limit and the store allow, and before all
-- that it leaves behind. The order in which the store keeps its items plays no part. A find only
-- reads, so that there is no ledger in its result.
theorem findIncomplete_front (ledger : Ledger) (limit : Int) :
    let found := ledger.findIncomplete limit
    (∀ item ∈ found, ledger.find? item.id = some item ∧ item.complete = false) ∧
      (found.map (·.id)).Nodup ∧
      found.Pairwise (fun a b => a.dueKey < b.dueKey) ∧
      (found.length : Int) = min (max limit 0) (ledger.items.countP (!·.complete)) ∧
      (∀ left ∈ ledger.items, left.complete = false → left ∉ found →
        ∀ item ∈ found, item.dueKey < left.dueKey) ∧
      ∀ other : Ledger, other.items.Perm ledger.items → other.findIncomplete limit = found := by
  intro found
  have hfound : found = ledger.queue.take limit.toNat := ledger.findIncomplete_eq limit
  have hsorted := ledger.pairwise_dueKey_queue
  refine ⟨fun item hitem => ?_, nodup_findIncomplete ledger limit, ?_, ?_, ?_, ?_⟩
  · exact ⟨find?_of_mem_findIncomplete hitem, (mem_of_mem_findIncomplete hitem).2⟩
  · exact hfound ▸ hsorted.sublist (List.take_sublist _ _)
  · have hlength : ledger.queue.length = ledger.items.countP (!·.complete) := by
      rw [ledger.queue_perm.length_eq, List.countP_eq_length_filter, pending]
    rw [hfound, List.length_take, hlength]
    omega
  · intro left hleft hopen hout
    exact (rel_of_notMem_findIncomplete hsorted (mem_pending_iff.mpr ⟨hleft, hopen⟩) hout).2
  · intro other hperm
    rw [hfound, findIncomplete_eq, queue_of_perm hperm]

-- Two items that were never polled, one of them with a longer first character, one polled early,
-- one late, and one that is complete.
theorem findIncomplete_front_three :
    let item (id : String) (complete : Bool) (polled : Option Time.Instant) : Item :=
      ⟨id, [], complete, ⟨0, 0⟩, ⟨5000, 0⟩, polled⟩
    let late := item "A" false (some ⟨20, 0⟩)
    let early := item "Z" false (some ⟨10, 999⟩)
    let plain := item "z" false none
    let accented := item "é" false none
    let done := item "0" true none
    let ledger : Ledger := ⟨[late, accented, done, early, plain], [], by decide⟩
    ledger.findIncomplete 3 = [plain, accented, early] ∧
      (∀ found ∈ ledger.findIncomplete 3, found.dueKey < late.dueKey) ∧
      ledger.findIncomplete (-1) = [] := by
  intro item late early plain accented done ledger
  let sorted : Ledger := ⟨[plain, accented, early, late, done], [], by decide⟩
  have hsorted : sorted.queue = sorted.pending := queue_of_pairwise (by decide)
  have hfound (limit : Int) : ledger.findIncomplete limit = sorted.pending.take limit.toNat := by
    rw [← hsorted, ← findIncomplete_eq]
    exact ((findIncomplete_front ledger limit).2.2.2.2.2 sorted (by decide)).symm
  refine ⟨hfound 3, ?_, hfound (-1)⟩
  refine (findIncomplete_front ledger 3).2.2.2.2.1 late (by decide) rfl ?_
  rw [hfound 3]
  decide

end Ledger

end DeclarationWatch
