import DeclarationWatch.Proofs.Ledger.Store
import Mathlib.Data.List.Induction

namespace DeclarationWatch

-- Of the updates that name the id this one is the last.
def Update.IsLastOf (last : Update) (updates : List Update) (id : String) : Prop :=
  ∃ before after, updates = before ++ last :: after ∧ last.id = id ∧
    ∀ later ∈ after, later.id ≠ id

namespace Item

-- What updates make of an item that some of them name.
structure Updated (updates : List Update) (before after : Item) : Prop where
  replaced : ∃ last, Update.IsLastOf last updates before.id ∧
    after.snapshot = last.snapshot ∧ after.lastPolled = some last.polled
  complete : after.complete = true ↔ before.complete = true ∨
    ∃ change ∈ updates, change.id = before.id ∧ change.complete = true
  id : after.id = before.id
  created : after.created = before.created
  expiry : after.expiry = before.expiry

-- Of several updates the last one decides what it replaces, and any of them completes the item.
theorem foldl_apply (changes : List Update) (item : Item) :
    changes.foldl Item.apply item =
      { item with
        snapshot := (changes.getLast?.map (·.snapshot)).getD item.snapshot
        lastPolled := (changes.getLast?.map fun change => some change.polled).getD item.lastPolled
        complete := item.complete || changes.any (·.complete) } := by
  induction changes using List.reverseRecOn with
  | nil => simp
  | append_singleton changes last ih =>
      rw [List.foldl_append, List.foldl_cons, List.foldl_nil, ih]
      simp [Item.apply, Bool.or_assoc]

theorem id_foldl_apply (changes : List Update) (item : Item) :
    (changes.foldl Item.apply item).id = item.id := by
  rw [foldl_apply]

-- The same updates once more change nothing.
theorem foldl_apply_twice (changes : List Update) (item : Item) :
    changes.foldl Item.apply (changes.foldl Item.apply item) = changes.foldl Item.apply item := by
  rw [foldl_apply, foldl_apply]
  cases changes.getLast? <;> simp

end Item

namespace Ledger

-- The updates that name an id, in their order.
def updatesOf (updates : List Update) (id : String) : List Update :=
  updates.filter fun change => change.id = id

variable {ledger : Ledger} {updates others : List Update} {id : String}

theorem updatesOf_ne_nil (h : id ∈ updates.map (·.id)) : updatesOf updates id ≠ [] := by
  simpa [updatesOf, List.filter_eq_nil_iff] using h

theorem isLastOf_getLast (h : updatesOf updates id ≠ []) :
    ((updatesOf updates id).getLast h).IsLastOf updates id := by
  have hsplit := (List.dropLast_append_getLast h).symm
  obtain ⟨before, rest, hupdates, -, hrest⟩ := List.filter_eq_append_iff.mp hsplit
  obtain ⟨middle, after, rfl, -, hid, hafter⟩ := List.filter_eq_cons_iff.mp hrest
  refine ⟨before ++ middle, after, ?_, by simpa using hid, by simpa using hafter⟩
  rw [List.append_assoc]
  exact hupdates

theorem updated_foldl {item : Item} (h : item.id ∈ updates.map (·.id)) :
    item.Updated updates ((updatesOf updates item.id).foldl Item.apply item) := by
  have hne := updatesOf_ne_nil h
  rw [Item.foldl_apply, List.getLast?_eq_some_getLast hne]
  refine ⟨⟨_, isLastOf_getLast hne, rfl, rfl⟩, ?_, rfl, rfl, rfl⟩
  simp [updatesOf]

-- Where no id is named twice, the updates of one id are the same in any order of the list.
theorem updatesOf_of_perm (hids : (updates.map (·.id)).Nodup) (hperm : updates.Perm others) :
    updatesOf others id = updatesOf updates id := by
  have hapart : (updatesOf updates id).Pairwise fun a b => a.id ≠ b.id :=
    (List.pairwise_map.mp hids).sublist List.filter_sublist
  have hothers : (updatesOf others id).Pairwise fun a b => a.id ≠ b.id :=
    (List.pairwise_map.mp ((hperm.map _).nodup_iff.mp hids)).sublist List.filter_sublist
  refine (hperm.symm.filter _).eq_of_pairwise ?_ hothers hapart
  intro a b ha hb hne _
  have ha : a.id = id := by simpa using (List.mem_filter.mp ha).2
  have hb : b.id = id := by simpa using (List.mem_filter.mp hb).2
  exact absurd (ha.trans hb.symm) hne

-- Each item goes its own way through the list of updates.
theorem items_bulkUpdate (ledger : Ledger) (updates : List Update) :
    (ledger.bulkUpdate updates).2.items =
      ledger.items.map fun item => (updatesOf updates item.id).foldl Item.apply item := by
  simp only [bulkUpdate]
  induction updates generalizing ledger with
  | nil => simp [updatesOf]
  | cons change rest ih =>
      simp only [List.foldl_cons, ih, update, revise, List.map_map]
      apply List.map_congr_left
      intro item _
      by_cases h : item.id = change.id
      · simp [updatesOf, h]
      · simp [updatesOf, h, Ne.symm h]

-- One update after the other, each counted if it meets an item.
theorem bulkUpdate_cons (ledger : Ledger) (change : Update) (rest : List Update) :
    ledger.bulkUpdate (change :: rest) =
      (((ledger.update change).bulkUpdate rest).1 +
          if (ledger.find? change.id).isSome then 1 else 0,
        ((ledger.update change).bulkUpdate rest).2) := by
  have hsome : ∀ id, ((ledger.update change).find? id).isSome = (ledger.find? id).isSome := by
    intro id
    rw [find?_update, Option.isSome_map]
  simp only [bulkUpdate, List.filter_cons, List.foldl_cons, hsome]
  split <;> rfl

theorem count_bulkUpdate (ledger : Ledger) (updates : List Update) :
    (ledger.bulkUpdate updates).1 =
      updates.countP fun change => change.id ∈ ledger.items.map (·.id) := by
  induction updates generalizing ledger with
  | nil => rfl
  | cons change rest ih =>
      have hids : (ledger.update change).items.map (·.id) = ledger.items.map (·.id) :=
        map_id_revise ledger.items change
      have hmet : (ledger.find? change.id).isSome = true ↔
          change.id ∈ ledger.items.map (·.id) := by
        rw [Option.isSome_iff_ne_none, ne_eq, find?_eq_none_iff, not_not]
      rw [bulkUpdate_cons, ih, hids, List.countP_cons]
      simp only [hmet, decide_eq_true_eq]

theorem eq_of_items_eq {other : Ledger} (hitems : ledger.items = other.items)
    (hclaims : ledger.claims = other.claims) : ledger = other := by
  cases ledger
  cases other
  simp_all

-- A list of updates is one write without an order. Every item that it names takes over the last of
-- its updates and is complete if it was or any of them says so; all else stays as it is. What is
-- counted are the updates that name an item, repeats included. Where no id is named twice, the
-- order of the list plays no part, and the same list once more changes nothing in any case.
theorem bulkUpdate_by_id (ledger : Ledger) (updates : List Update) :
    let count := (ledger.bulkUpdate updates).1
    let after := (ledger.bulkUpdate updates).2
    (∀ item ∈ ledger.items, item.id ∈ updates.map (·.id) →
        ∃ now, after.find? item.id = some now ∧ item.Updated updates now) ∧
      (∀ id, id ∉ updates.map (·.id) → after.find? id = ledger.find? id) ∧
      after.items.map (·.id) = ledger.items.map (·.id) ∧
      after.claims = ledger.claims ∧
      count = updates.countP (fun change => change.id ∈ ledger.items.map (·.id)) ∧
      ((updates.map (·.id)).Nodup → ∀ others, updates.Perm others →
        ledger.bulkUpdate others = (count, after)) ∧
      after.bulkUpdate updates = (count, after) := by
  intro count after
  have hitems : after.items =
      ledger.items.map fun item => (updatesOf updates item.id).foldl Item.apply item :=
    items_bulkUpdate ledger updates
  have hids : after.items.map (·.id) = ledger.items.map (·.id) := map_id_bulkUpdate ledger updates
  have hclaims : after.claims = ledger.claims := claims_bulkUpdate ledger updates
  refine ⟨fun item hitem hnamed => ?named, fun id => find?_bulkUpdate_of_notMem ledger, hids,
    hclaims, count_bulkUpdate ledger updates, fun hnodup others hperm => ?reordered, ?repeated⟩
  case named =>
    refine ⟨_, ?_, updated_foldl hnamed⟩
    rw [find?_bulkUpdate, (find?_eq_some_iff ledger item.id item).mpr ⟨hitem, rfl⟩]
    rfl
  case reordered =>
    refine Prod.ext ?_ (eq_of_items_eq ?_ ?_)
    · rw [count_bulkUpdate, hperm.symm.countP_eq, ← count_bulkUpdate]
    · rw [hitems, items_bulkUpdate]
      simp only [updatesOf_of_perm hnodup hperm]
    · rw [hclaims, claims_bulkUpdate]
  case repeated =>
    refine Prod.ext ?_ (eq_of_items_eq ?_ (claims_bulkUpdate after updates))
    · rw [count_bulkUpdate, hids, ← count_bulkUpdate]
    · rw [items_bulkUpdate, hitems, List.map_map]
      apply List.map_congr_left
      intro item _
      simp only [Function.comp_apply, Item.id_foldl_apply, Item.foldl_apply_twice]

-- An item that is named twice, first to complete it, one that is not named, an id that nobody has,
-- and two updates in either order.
theorem bulkUpdate_by_id_twice :
    let item (id : String) : Item := ⟨id, [("G0", "")], false, ⟨0, 0⟩, ⟨5000, 0⟩, none⟩
    let change (id text : String) (complete : Bool) : Update :=
      ⟨id, [("G1", text)], ⟨9, 0⟩, complete⟩
    let ledger : Ledger := ⟨[item "A", item "B", item "C"], [], by decide⟩
    let twice := [change "A" "first" true, change "X" "none" true, change "A" "last" false]
    (ledger.bulkUpdate twice).1 = 2 ∧
      (∃ now, (ledger.bulkUpdate twice).2.find? "A" = some now ∧ (item "A").Updated twice now) ∧
      (ledger.bulkUpdate twice).2.find? "B" = some (item "B") ∧
      ledger.bulkUpdate [change "C" "c" false, change "B" "b" true] =
        ledger.bulkUpdate [change "B" "b" true, change "C" "c" false] := by
  intro item change ledger twice
  obtain ⟨hnamed, hunnamed, -, -, hcount, -, -⟩ := bulkUpdate_by_id ledger twice
  obtain ⟨-, -, -, -, -, horder, -⟩ :=
    bulkUpdate_by_id ledger [change "B" "b" true, change "C" "c" false]
  refine ⟨hcount.trans (by decide), hnamed (item "A") (by decide) (by decide), ?_, ?_⟩
  · exact (hunnamed "B" (by decide)).trans (by decide)
  · exact horder (by decide) _ (List.Perm.swap _ _ _)

end Ledger

end DeclarationWatch
