import DeclarationWatch.Proofs.Cycle.StoredTexts
import DeclarationWatch.Proofs.Ledger.Order
import Mathlib.Data.List.Nodup

namespace DeclarationWatch

-- The items of the one ledger that are open in it and complete in the other.
def Ledger.completedIn (before after : Ledger) : List Item :=
  before.items.filter fun item => !item.complete && (after.find? item.id).any (·.complete)

theorem Ledger.mem_completedIn {before after : Ledger} {item : Item} :
    item ∈ before.completedIn after ↔ item ∈ before.items ∧ item.complete = false ∧
      ∃ now, after.find? item.id = some now ∧ now.complete = true := by
  simp [completedIn, Option.any_eq_true]

theorem Ledger.nodup_completedIn (before after : Ledger) : (before.completedIn after).Nodup :=
  (List.Nodup.of_map _ before.distinct).filter _

theorem Ledger.completedIn_self (ledger : Ledger) : ledger.completedIn ledger = [] := by
  rw [List.eq_nil_iff_forall_not_mem]
  intro item hitem
  obtain ⟨hmem, hopen, now, hfind, hcomplete⟩ := mem_completedIn.mp hitem
  rw [(find?_eq_some_iff ledger item.id item).mpr ⟨hmem, rfl⟩] at hfind
  cases hfind
  rw [hopen] at hcomplete
  cases hcomplete

namespace Cycle

variable {τ : Type}

-- The items of a cycle's batch as the ledger after it has them.
def batchIn (policy : Policy) (ledger after : Ledger) : List Item :=
  (ledger.findIncomplete policy.maxPollSize).filterMap fun item => after.find? item.id

section Snapshots

variable (answer : SearchAnswer)

theorem length_snapshotOf_resolved (mrn : String) :
    (snapshotOf (answer.resolved mrn)).length = (answer.resolved mrn).length := by
  rw [snapshotOf_resolved, List.length_map]

theorem isEmpty_snapshotOf_resolved (mrn : String) :
    (snapshotOf (answer.resolved mrn)).isEmpty = (answer.resolved mrn).isEmpty := by
  rw [snapshotOf_resolved, List.isEmpty_map]

theorem length_changedOf_le (item : Item) (current : List Gmr) :
    (changedOf item current).length ≤ current.length := by
  unfold changedOf
  rw [List.length_map]
  exact List.length_filter_le _ _

end Snapshots

namespace Round

variable {round : Round τ} {policy : Policy} {ledger : Ledger} {answer : SearchAnswer}

section Written

variable (round policy ledger answer)

theorem batchIn_rewritten : batchIn policy ledger (round.rewritten policy ledger answer) =
    (ledger.findIncomplete policy.maxPollSize).map fun item =>
      item.apply (revision policy round.now answer item) := by
  rw [← List.filterMap_eq_map, batchIn]
  exact List.filterMap_congr fun item hitem => find?_rewritten_of_mem answer hitem

theorem map_id_batchIn_rewritten :
    (batchIn policy ledger (round.rewritten policy ledger answer)).map (·.id) =
      dueIds policy ledger := by
  rw [batchIn_rewritten, List.map_map]
  rfl

theorem flatMap_batchIn_rewritten :
    (batchIn policy ledger (round.rewritten policy ledger answer)).flatMap (·.snapshot) =
      ((ledger.findIncomplete policy.maxPollSize).map
        (revision policy round.now answer)).flatMap (·.snapshot) := by
  rw [batchIn_rewritten, List.flatMap_map, List.flatMap_map]
  rfl

-- What the snapshots of the batch hold are the records that the answer has for it.
theorem countP_batchIn_rewritten :
    ((batchIn policy ledger (round.rewritten policy ledger answer)).countP fun item =>
        !item.snapshot.isEmpty) =
      (ledger.findIncomplete policy.maxPollSize).countP fun item =>
        !(answer.resolved item.id).isEmpty := by
  rw [batchIn_rewritten, List.countP_map]
  congr 1
  funext item
  exact congrArg _ (isEmpty_snapshotOf_resolved answer item.id)

-- An item is completed by a cycle exactly if the cycle has it in its batch and calls it done.
theorem completedIn_rewritten :
    (ledger.completedIn (round.rewritten policy ledger answer)).Perm
      ((ledger.findIncomplete policy.maxPollSize).filter fun item =>
        (revision policy round.now answer item).complete) := by
  have hbatch := List.Nodup.of_map _ (Ledger.nodup_findIncomplete ledger policy.maxPollSize)
  rw [List.perm_ext_iff_of_nodup (Ledger.nodup_completedIn _ _) (hbatch.filter _)]
  intro item
  rw [Ledger.mem_completedIn, List.mem_filter]
  constructor
  · rintro ⟨hmem, hopen, now, hnow, hcomplete⟩
    have hfind := (Ledger.find?_eq_some_iff ledger item.id item).mpr ⟨hmem, rfl⟩
    by_cases hdue : item.id ∈ dueIds policy ledger
    · have hitem := mem_findIncomplete_of_mem_dueIds hdue hfind
      rw [find?_rewritten_of_mem answer hitem] at hnow
      cases hnow
      refine ⟨hitem, ?_⟩
      simpa [Item.apply, hopen] using hcomplete
    · rw [find?_rewritten_of_notMem answer hdue, hfind] at hnow
      cases hnow
      rw [hopen] at hcomplete
      cases hcomplete
  · rintro ⟨hitem, hdone⟩
    obtain ⟨hmem, hopen⟩ := Ledger.mem_of_mem_findIncomplete hitem
    refine ⟨hmem, hopen, _, find?_rewritten_of_mem answer hitem, ?_⟩
    simp [Item.apply, hdone]

theorem length_selected_le : (selected policy ledger answer).length ≤
    ((batchIn policy ledger (round.rewritten policy ledger answer)).flatMap
      (·.snapshot)).length := by
  rw [batchIn_rewritten, List.flatMap_map, selected]
  induction ledger.findIncomplete policy.maxPollSize with
  | nil => exact Nat.le_refl _
  | cons item rest ih =>
      have hlength := length_snapshotOf_resolved answer item.id
      have hle := length_changedOf_le item (answer.resolved item.id)
      simp only [List.flatMap_cons, List.length_append, Item.apply, revision] at ih ⊢
      omega

end Written

theorem Writes.updates_eq (h : round.Writes policy ledger answer) :
    (round.outcome policy ledger).updates =
      (ledger.findIncomplete policy.maxPollSize).map (revision policy round.now answer) := by
  rw [outcome, h.run_eq, commit_of_writes h]

-- A cycle that writes has the summary of its assessment, if it has one.
theorem Writes.summary_eq {summary : Summary} (h : round.Writes policy ledger answer)
    (hok : (round.outcome policy ledger).result = .ok summary) :
    summary =
      (assess policy round.now (ledger.findIncomplete policy.maxPollSize) answer).summary := by
  rw [outcome, h.run_eq, commit_of_writes h] at hok
  by_cases hnone : selected policy ledger answer = []
  · simp only [hnone, if_true] at hok
    exact (Except.ok.inj hok).symm
  · simp only [hnone, if_false] at hok
    split at hok
    · exact (Except.ok.inj hok).symm
    · cases hok

-- The two ways of a cycle that succeeds: nothing is due, or it writes.
theorem cases_of_ok {summary : Summary}
    (hok : (round.outcome policy ledger).result = .ok summary) :
    (ledger.findIncomplete policy.maxPollSize = [] ∧ summary = {} ∧
      round.outcome policy ledger = ⟨.ok {}, ledger, [], [], none⟩) ∨
    ∃ answer, round.Writes policy ledger answer := by
  have hsound : ∀ failure, ¬round.Fails policy ledger failure := by
    intro failure hfails
    rw [hfails.result_eq] at hok
    cases hok
  cases hfound : round.outage.find with
  | some failure => exact absurd (.unread hfound) (hsound failure)
  | none =>
      by_cases hdue : ledger.findIncomplete policy.maxPollSize = []
      · have hidle := run_of_none_due hfound hdue round.publish
        rw [outcome, hidle] at hok
        exact Or.inl ⟨hdue, (Except.ok.inj hok).symm, hidle⟩
      · cases hsearch : round.search (dueIds policy ledger) with
        | calledOff => exact absurd (.calledOff hfound hdue (Or.inl hsearch)) (hsound _)
        | abandoned => exact absurd (.calledOff hfound hdue (Or.inr hsearch)) (hsound _)
        | answered result =>
            cases result with
            | error failure => exact absurd (.unanswered hfound hdue hsearch) (hsound _)
            | ok answer =>
                cases hwrite : round.outage.bulkUpdate with
                | some failure =>
                    exact absurd (.unwritten hfound hdue hsearch hwrite) (hsound _)
                | none => exact Or.inr ⟨answer, hfound, hdue, hsearch, hwrite⟩

end Round

-- The counts of a cycle against what can be seen of it: what it asks for, what the ledger holds
-- before and after, what is written and what the publisher is given.
theorem summary_agrees (round : Round τ) (policy : Policy) (ledger : Ledger) {summary : Summary}
    (hok : (round.outcome policy ledger).result = .ok summary) :
    let outcome := round.outcome policy ledger
    let written := batchIn policy ledger outcome.ledger
    let handed := round.handed policy ledger
    (outcome.requests = [] ∧ summary.polled = 0 ∨
      ∃ ids, outcome.requests = [ids] ∧ summary.polled = ids.length) ∧
    (written.map (·.id) = dueIds policy ledger ∧
      summary.matchedMrns = summary.itemsWithGmrs ∧
      summary.itemsWithGmrs = written.countP fun item => !item.snapshot.isEmpty) ∧
    (summary.matchedMrns ≤ summary.polled ∧
      summary.unmatchedMrns = summary.polled - summary.matchedMrns) ∧
    summary.completed = (ledger.completedIn outcome.ledger).length ∧
    (summary.changedGmrs = handed.length ∧
      outcome.published = (if handed = [] then none else some (round.publish handed).2) ∧
      written.flatMap (·.snapshot) = outcome.updates.flatMap (·.snapshot) ∧
      handed.length ≤ (written.flatMap (·.snapshot)).length) := by
  intro outcome written handed
  have hpublished : outcome.published =
      if handed = [] then none else some (round.publish handed).2 := Round.published_outcome
  rcases Round.cases_of_ok hok with ⟨hnone, rfl, hidle⟩ | ⟨answer, hwrites⟩
  · have houtcome : outcome = ⟨.ok {}, ledger, [], [], none⟩ := hidle
    have hwritten : written = [] := by simp [written, batchIn, hnone]
    have hhanded : handed = [] := Round.handed_of_not_writes fun answer h => h.due hnone
    simp [houtcome, hwritten, hhanded, dueIds, hnone, Ledger.completedIn_self]
  · have hsummary := hwrites.summary_eq hok
    have hledger : outcome.ledger = round.rewritten policy ledger answer := hwrites.ledger_eq
    have hhanded : handed = selected policy ledger answer := hwrites.handed_eq
    have hupdates : outcome.updates = (ledger.findIncomplete policy.maxPollSize).map
        (revision policy round.now answer) := hwrites.updates_eq
    have hmatched : summary.matchedMrns = summary.itemsWithGmrs := by
      rw [hsummary]
      simp only [assess, SearchAnswer.hasRecords_eq]
    have hwith : summary.itemsWithGmrs = (ledger.findIncomplete policy.maxPollSize).countP
        fun item => !(answer.resolved item.id).isEmpty := by
      rw [hsummary, List.countP_eq_length_filter]
      rfl
    have hpolled : summary.polled = (ledger.findIncomplete policy.maxPollSize).length := by
      rw [hsummary]
      rfl
    simp only [written, hledger]
    refine ⟨Or.inr ⟨_, hwrites.requests_eq, ?_⟩,
      ⟨Round.map_id_batchIn_rewritten round policy ledger answer, hmatched, ?_⟩, ⟨?_, ?_⟩, ?_,
      ?_, hpublished, ?_, ?_⟩
    · rw [hpolled, dueIds, List.length_map]
    · rw [hwith, Round.countP_batchIn_rewritten]
    · rw [hmatched, hwith, hpolled]
      exact List.countP_le_length
    · rw [hsummary]
      rfl
    · rw [hsummary, (Round.completedIn_rewritten round policy ledger answer).length_eq]
      rfl
    · rw [hsummary, hhanded]
      rfl
    · rw [hupdates, Round.flatMap_batchIn_rewritten]
    · rw [hhanded]
      exact Round.length_selected_le round policy ledger answer

-- A record that ends its item, an item whose time is over, one that stays open, and one that was
-- complete before.
theorem summary_agrees_four :
    let item (id : String) (complete : Bool) (expiry : Int) : Item :=
      ⟨id, [], complete, ⟨0, 0⟩, ⟨expiry, 0⟩, none⟩
    let ledger : Ledger := ⟨[item "MRN-A" false 5000, item "MRN-B" false 10,
      item "MRN-C" false 5000, item "MRN-D" true 5000], [], by decide⟩
    let answer : SearchAnswer := ⟨[⟨"mrn-a", ["G1", "G9"]⟩], [⟨"G1", "Completed", "v1", []⟩]⟩
    let round : Round Unit :=
      ⟨⟨1000, 0⟩, {}, fun _ => .answered (.ok answer), fun _ => (.ok (), ())⟩
    let outcome := round.outcome {} ledger
    outcome.result = .ok ⟨3, 1, 2, 1, 1, 2, 1⟩ ∧
      (ledger.completedIn outcome.ledger).length = 2 ∧ (round.handed {} ledger).length = 1 := by
  intro item ledger answer round outcome
  have hbatch : ledger.findIncomplete ({} : Policy).maxPollSize =
      [item "MRN-A" false 5000, item "MRN-B" false 10, item "MRN-C" false 5000] :=
    Ledger.findIncomplete_of_pairwise (by decide) (by decide)
  have hwrites : round.Writes {} ledger answer := ⟨rfl, by simp [hbatch], rfl, rfl⟩
  have hcounts : (assess {} round.now (ledger.findIncomplete ({} : Policy).maxPollSize)
      answer).summary = ⟨3, 1, 2, 1, 1, 2, 1⟩ := by
    rw [hbatch]
    decide
  have hok : outcome.result = .ok ⟨3, 1, 2, 1, 1, 2, 1⟩ := by
    rw [show outcome = _ from hwrites.run_eq round.publish, Round.commit_of_writes hwrites, hcounts]
    exact ite_self _
  obtain ⟨-, -, -, hcompleted, hchanged, -⟩ := summary_agrees round {} ledger hok
  exact ⟨hok, hcompleted.symm, hchanged.symm⟩

end Cycle

end DeclarationWatch
