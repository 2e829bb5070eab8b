import DeclarationWatch.Ledger.Token

namespace DeclarationWatch

inductive Registration where
  | created
  -- The item that was there is untouched.
  | alreadyExists
  deriving Repr, DecidableEq

-- What one cycle found out about an item.
structure Update where
  id : String
  snapshot : Snapshot
  polled : Time.Instant
  -- Completion is set and never cleared.
  complete : Bool
  deriving Repr, DecidableEq

inductive Claim where
  | acquired
  | alreadyClaimed
  deriving Repr, DecidableEq

-- The watched declarations, one item for each id, and the occurrences of jobs that are taken.
structure Ledger where
  items : List Item
  claims : List ScheduleToken
  distinct : (items.map (·.id)).Nodup

namespace Item

-- Items never polled come first, then those polled longest ago. The id decides the rest.
def isDueBefore (a b : Item) : Bool :=
  match a.lastPolled, b.lastPolled with
  | none, some _ => true
  | some _, none => false
  | none, none => a.id ≤ b.id
  | some s, some t => s.before t || (s == t && a.id ≤ b.id)

def apply (item : Item) (update : Update) : Item :=
  { item with
    snapshot := update.snapshot
    lastPolled := some update.polled
    complete := item.complete || update.complete }

@[simp] theorem id_apply (item : Item) (update : Update) : (item.apply update).id = item.id := rfl

end Item

namespace Ledger

def empty : Ledger := ⟨[], [], List.nodup_nil⟩

def find? (ledger : Ledger) (id : String) : Option Item := ledger.items.find? (·.id == id)

theorem nodup_append_id {items : List Item} {item : Item} (distinct : (items.map (·.id)).Nodup)
    (absent : item.id ∉ items.map (·.id)) : ((items ++ [item]).map (·.id)).Nodup := by
  rw [List.map_append, List.map_singleton, List.nodup_append]
  refine ⟨distinct, by simp, fun a ha b hb same => ?_⟩
  rw [List.mem_singleton.mp hb] at same
  exact absent (same ▸ ha)

def register (ledger : Ledger) (item : Item) : Registration × Ledger :=
  if h : item.id ∈ ledger.items.map (·.id) then (.alreadyExists, ledger)
  else
    (.created, ⟨ledger.items ++ [item], ledger.claims, nodup_append_id ledger.distinct h⟩)

-- The incomplete items in the order in which they are due, at most `limit` of them.
def findIncomplete (ledger : Ledger) (limit : Int) : List Item :=
  ((ledger.items.filter (!·.complete)).mergeSort Item.isDueBefore).take limit.toNat

def revise (items : List Item) (update : Update) : List Item :=
  items.map fun item => if item.id = update.id then item.apply update else item

@[simp] theorem map_id_revise (items : List Item) (update : Update) :
    (revise items update).map (·.id) = items.map (·.id) := by
  simp only [revise, List.map_map]
  apply List.map_congr_left
  intro item _
  by_cases h : item.id = update.id <;> simp [h]

def update (ledger : Ledger) (change : Update) : Ledger :=
  ⟨revise ledger.items change, ledger.claims, by simpa using ledger.distinct⟩

-- Applies updates in order. Unknown ids are passed over. The count is of updates that met an item.
def bulkUpdate (ledger : Ledger) (updates : List Update) : Nat × Ledger :=
  ((updates.filter fun change => (ledger.find? change.id).isSome).length,
    updates.foldl update ledger)

@[simp] theorem claims_bulkUpdate (ledger : Ledger) (updates : List Update) :
    (ledger.bulkUpdate updates).2.claims = ledger.claims := by
  simp only [bulkUpdate]
  induction updates generalizing ledger with
  | nil => rfl
  | cons change rest ih => exact ih (ledger.update change)

-- Updates neither add nor remove items.
theorem map_id_bulkUpdate (ledger : Ledger) (updates : List Update) :
    (ledger.bulkUpdate updates).2.items.map (·.id) = ledger.items.map (·.id) := by
  simp only [bulkUpdate]
  induction updates generalizing ledger with
  | nil => rfl
  | cons change rest ih => exact (ih (ledger.update change)).trans (map_id_revise _ _)

-- Forgets the items. Taken occurrences stay taken.
def deleteAll (ledger : Ledger) : Nat × Ledger :=
  (ledger.items.length, ⟨[], ledger.claims, List.nodup_nil⟩)

-- An occurrence belongs to the first who asks for it.
def acquire (ledger : Ledger) (job : String) (scheduled now : Time.Instant) : Claim × Ledger :=
  if ledger.claims.any fun token => token.job == job && token.scheduled == scheduled then
    (.alreadyClaimed, ledger)
  else (.acquired, { ledger with claims := ledger.claims ++ [⟨job, scheduled, now⟩] })

end Ledger

end DeclarationWatch
