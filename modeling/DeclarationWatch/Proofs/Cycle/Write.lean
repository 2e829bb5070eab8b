import DeclarationWatch.Proofs.Completion
import DeclarationWatch.Proofs.Cycle.Round

namespace DeclarationWatch.Cycle

variable {τ : Type}

-- The snapshot of a declaration's records holds each of them under its id.
theorem snapshotOf_resolved (answer : SearchAnswer) (mrn : String) :
    snapshotOf (answer.resolved mrn) = (answer.resolved mrn).map fun gmr => (gmr.id, gmr.text) := by
  apply Keyed.ofList_of_ascending
  simp only [Keyed.Ascending, Keyed.keys, List.map_map, List.pairwise_map, Function.comp_apply]
  exact answer.pairwise_resolved mrn

theorem get?_snapshotOf_resolved (answer : SearchAnswer) (mrn key text : String) :
    (snapshotOf (answer.resolved mrn)).get? key = some text ↔
      ∃ gmr, answer.Resolves mrn gmr ∧ gmr.id = key ∧ gmr.text = text := by
  have hasc : (snapshotOf (answer.resolved mrn)).Ascending := Keyed.ascending_ofList _
  rw [Keyed.get?_eq_some_iff hasc, snapshotOf_resolved, List.mem_map]
  simp only [Prod.mk.injEq, SearchAnswer.mem_resolved_iff]

-- When an item is done: all its records, and there is one, have reached the terminal state, however
-- its letters are spelled, or its time is over.
def IsDone (policy : Policy) (now : Time.Instant) (answer : SearchAnswer) (item : Item) : Prop :=
  (∃ gmr, answer.Resolves item.id gmr) ∧
      (∀ gmr, answer.Resolves item.id gmr →
        Completion.SameButCase gmr.state policy.terminalState) ∨
    item.expiry.before now = true

theorem complete_revision (policy : Policy) (now : Time.Instant) (answer : SearchAnswer)
    (item : Item) :
    (revision policy now answer item).complete = true ↔ IsDone policy now answer item := by
  have hterminal : Completion.allTerminal policy.terminalState (answer.resolved item.id) = true ↔
      (∃ gmr, answer.Resolves item.id gmr) ∧ ∀ gmr, answer.Resolves item.id gmr →
        Completion.SameButCase gmr.state policy.terminalState := by
    simp only [Completion.allTerminal, Bool.and_eq_true, Bool.not_eq_true',
      List.isEmpty_eq_false_iff_exists_mem, List.all_eq_true, SearchAnswer.mem_resolved_iff,
      Completion.sameState_iff]
  unfold IsDone revision Completion.decide
  rw [← hterminal]
  by_cases hall : Completion.allTerminal policy.terminalState (answer.resolved item.id) = true
  · simp [hall]
  · by_cases hlate : item.expiry.before now = true <;> simp [hall, hlate]

-- What a cycle makes of an item of its batch.
structure Revised (policy : Policy) (now : Time.Instant) (answer : SearchAnswer)
    (before after : Item) : Prop where
  polled : after.lastPolled = some now
  ascending : after.snapshot.Ascending
  -- The snapshot is that of the records of this answer and of no others.
  texts : ∀ key text, after.snapshot.get? key = some text ↔
    ∃ gmr, answer.Resolves before.id gmr ∧ gmr.id = key ∧ gmr.text = text
  complete : after.complete = true ↔ IsDone policy now answer before
  id : after.id = before.id
  created : after.created = before.created
  expiry : after.expiry = before.expiry

theorem revised_apply (policy : Policy) (now : Time.Instant) (answer : SearchAnswer) {item : Item}
    (h : item.complete = false) :
    Revised policy now answer item (item.apply (revision policy now answer item)) where
  polled := rfl
  ascending := Keyed.ascending_ofList _
  texts := get?_snapshotOf_resolved answer item.id
  complete := by
    rw [← complete_revision]
    simp [Item.apply, h]
  id := rfl
  created := rfl
  expiry := rfl

section Revisions

variable {policy : Policy} {now : Time.Instant} {ledger : Ledger} {batch : List Item}

theorem filter_revision (answer : SearchAnswer) (hbatch : (batch.map (·.id)).Nodup) {item : Item}
    (hitem : item ∈ batch) :
    ((batch.map (revision policy now answer)).filter fun change => change.id = item.id) =
      [revision policy now answer item] := by
  induction batch with
  | nil => simp at hitem
  | cons first rest ih =>
      rw [List.map_cons, List.nodup_cons] at hbatch
      rcases List.mem_cons.mp hitem with rfl | hrest
      · have hnone : ((rest.map (revision policy now answer)).filter
            fun change => change.id = item.id) = [] := by
          rw [List.filter_eq_nil_iff]
          intro change hchange
          obtain ⟨other, hother, rfl⟩ := List.mem_map.mp hchange
          simp only [decide_eq_true_eq]
          intro hid
          exact hbatch.1 (List.mem_map.mpr ⟨other, hother, hid⟩)
        rw [List.map_cons, List.filter_cons_of_pos (by simp [revision]), hnone]
      · have hne : first.id ≠ item.id := fun hid =>
          hbatch.1 (List.mem_map.mpr ⟨item, hrest, hid.symm⟩)
        rw [List.map_cons, List.filter_cons_of_neg (by simp [revision, hne])]
        exact ih hbatch.2 hrest

-- The write of a batch goes by ids. The ledger may have changed since the batch was read.
theorem find?_bulkUpdate_revision_of_mem (answer : SearchAnswer) (hbatch : (batch.map (·.id)).Nodup)
    {item : Item} (hitem : item ∈ batch) :
    (ledger.bulkUpdate (batch.map (revision policy now answer))).2.find? item.id =
      (ledger.find? item.id).map fun present => present.apply (revision policy now answer item) := by
  rw [Ledger.find?_bulkUpdate, filter_revision answer hbatch hitem]
  rfl

theorem find?_bulkUpdate_revision_of_notMem (answer : SearchAnswer) {id : String}
    (h : id ∉ batch.map (·.id)) :
    (ledger.bulkUpdate (batch.map (revision policy now answer))).2.find? id = ledger.find? id := by
  apply Ledger.find?_bulkUpdate_of_notMem
  rw [List.map_map]
  exact h

end Revisions

namespace Round

variable {round : Round τ} {policy : Policy} {ledger : Ledger}

-- An item of the batch is revised.
theorem find?_rewritten_of_mem (answer : SearchAnswer) {item : Item}
    (h : item ∈ ledger.findIncomplete policy.maxPollSize) :
    (round.rewritten policy ledger answer).find? item.id =
      some (item.apply (revision policy round.now answer item)) := by
  rw [rewritten, find?_bulkUpdate_revision_of_mem answer
    (Ledger.nodup_findIncomplete ledger policy.maxPollSize) h,
    Ledger.find?_of_mem_findIncomplete h]
  rfl

-- All others stay as they are.
theorem find?_rewritten_of_notMem (answer : SearchAnswer) {id : String}
    (h : id ∉ dueIds policy ledger) :
    (round.rewritten policy ledger answer).find? id = ledger.find? id :=
  find?_bulkUpdate_revision_of_notMem answer h

theorem map_id_rewritten (answer : SearchAnswer) :
    (round.rewritten policy ledger answer).items.map (·.id) = ledger.items.map (·.id) :=
  Ledger.map_id_bulkUpdate ledger _

theorem map_id_outcome (round : Round τ) (policy : Policy) (ledger : Ledger) :
    (round.outcome policy ledger).ledger.items.map (·.id) = ledger.items.map (·.id) := by
  rcases round.writes_or_not policy ledger with ⟨answer, hwrites⟩ | hno
  · rw [hwrites.ledger_eq, map_id_rewritten]
  · rw [ledger_of_not_writes hno]

end Round

-- One cycle from end to end. Where nothing is due it does nothing. Otherwise it asks once for the
-- due items, revises these by the answer, and leaves the others alone.
theorem run_revises_batch (round : Round τ) (policy : Policy) (ledger : Ledger)
    (answer : SearchAnswer) (hfound : round.outage.find = none) :
    let batch := ledger.findIncomplete policy.maxPollSize
    let outcome := run policy round.outage round.now ledger round.search round.publish
    (batch = [] → outcome = ⟨.ok {}, ledger, [], [], none⟩) ∧
    (batch ≠ [] → round.search (batch.map (·.id)) = .answered (.ok answer) →
      round.outage.bulkUpdate = none →
      outcome.requests = [batch.map (·.id)] ∧
      (∀ item ∈ batch, ∃ after, outcome.ledger.find? item.id = some after ∧
        Revised policy round.now answer item after) ∧
      (∀ id, id ∉ batch.map (·.id) → outcome.ledger.find? id = ledger.find? id) ∧
      outcome.ledger.items.map (·.id) = ledger.items.map (·.id)) := by
  intro batch outcome
  constructor
  · intro hnone
    exact Round.run_of_none_due hfound hnone round.publish
  · intro hdue hanswered hwrite
    have hwrites : round.Writes policy ledger answer := ⟨hfound, hdue, hanswered, hwrite⟩
    have hledger : outcome.ledger = round.rewritten policy ledger answer := hwrites.ledger_eq
    rw [hledger]
    refine ⟨hwrites.requests_eq, fun item hitem => ?_, fun id hid => ?_, ?_⟩
    · exact ⟨_, Round.find?_rewritten_of_mem answer hitem,
        revised_apply policy round.now answer (Ledger.mem_of_mem_findIncomplete hitem).2⟩
    · exact Round.find?_rewritten_of_notMem answer hid
    · exact Round.map_id_rewritten answer

-- An item with a stale snapshot, and an answer that lists its record twice.
theorem run_revises_stale_item :
    let stale : Item := ⟨"MRN-C", [("G0", "")], false, ⟨0, 0⟩, ⟨5000, 0⟩, some ⟨10, 0⟩⟩
    let done : Item := ⟨"MRN-D", [], true, ⟨0, 0⟩, ⟨5000, 0⟩, some ⟨10, 0⟩⟩
    let ledger : Ledger := ⟨[done, stale], [], by decide⟩
    let answer : SearchAnswer := ⟨[⟨" mrn-c", ["G1", "G9"]⟩],
      [⟨"G1", "OPEN", "u1", []⟩, ⟨"G1", "completed", "u2", []⟩]⟩
    let round : Round Unit := ⟨⟨1000, 0⟩, {}, fun _ => .answered (.ok answer), fun _ => (.ok (), ())⟩
    let outcome := run {} round.outage round.now ledger round.search round.publish
    outcome.requests = [["MRN-C"]] ∧ outcome.ledger.find? "MRN-D" = some done ∧
      ∃ after, outcome.ledger.find? "MRN-C" = some after ∧
        Revised {} round.now answer stale after := by
  intro stale done ledger answer round outcome
  have hbatch : ledger.findIncomplete ({} : Policy).maxPollSize = [stale] :=
    Ledger.findIncomplete_eq_singleton rfl (by decide)
  have hrun := (run_revises_batch round {} ledger answer rfl).2 (by simp [hbatch]) rfl rfl
  simp only [hbatch] at hrun
  obtain ⟨hrequests, hrevised, hothers, -⟩ := hrun
  refine ⟨hrequests, ?_, hrevised stale (List.mem_singleton_self _)⟩
  rw [hothers "MRN-D" (by decide)]
  rfl

end DeclarationWatch.Cycle
