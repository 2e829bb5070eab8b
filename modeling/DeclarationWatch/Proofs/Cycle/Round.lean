import DeclarationWatch.Cycle
import DeclarationWatch.Proofs.Ledger.Store
import DeclarationWatch.Proofs.Resolution

namespace DeclarationWatch.Cycle

-- All that one cycle meets: the time, what is refused, the movement service and the publisher.
structure Round (τ : Type) where
  now : Time.Instant
  outage : Outage := {}
  search : List String → Search
  publish : List Sighting → Except PublishFailure Unit × τ

variable {τ : Type}

-- The ids of the items that a cycle asks for, in their order.
def dueIds (policy : Policy) (ledger : Ledger) : List String :=
  (ledger.findIncomplete policy.maxPollSize).map (·.id)

theorem mem_findIncomplete_of_mem_dueIds {policy : Policy} {ledger : Ledger} {id : String}
    {item : Item} (hdue : id ∈ dueIds policy ledger) (hfind : ledger.find? id = some item) :
    item ∈ ledger.findIncomplete policy.maxPollSize := by
  obtain ⟨due, hmem, rfl⟩ := List.mem_map.mp hdue
  have hsame := (Ledger.find?_of_mem_findIncomplete hmem).symm.trans hfind
  exact Option.some.inj hsame ▸ hmem

-- What a cycle writes about an item of its batch.
def revision (policy : Policy) (now : Time.Instant) (answer : SearchAnswer) (item : Item) :
    Update :=
  ⟨item.id, snapshotOf (answer.resolved item.id), now,
    (Completion.decide item (answer.resolved item.id) now policy.terminalState).isSome⟩

-- The sightings that a cycle selects as new or changed.
def selected (policy : Policy) (ledger : Ledger) (answer : SearchAnswer) : List Sighting :=
  (ledger.findIncomplete policy.maxPollSize).flatMap fun item =>
    changedOf item (answer.resolved item.id)

namespace Round

variable (round : Round τ) (policy : Policy) (ledger : Ledger)

def outcome : Outcome τ :=
  run policy round.outage round.now ledger round.search round.publish

-- What a cycle hands over, as a publisher sees it that keeps what it is given.
def handed : List Sighting :=
  (run policy round.outage round.now ledger round.search
    fun changed => (.ok (), changed)).published.getD []

-- Items are due, the service answers, and the ledger takes the write.
structure Writes (answer : SearchAnswer) : Prop where
  found : round.outage.find = none
  due : ledger.findIncomplete policy.maxPollSize ≠ []
  answered : round.search (dueIds policy ledger) = .answered (.ok answer)
  written : round.outage.bulkUpdate = none

-- The ledger after a cycle that writes.
def rewritten (answer : SearchAnswer) : Ledger :=
  (ledger.bulkUpdate ((ledger.findIncomplete policy.maxPollSize).map
    (revision policy round.now answer))).2

theorem writes_or_not : (∃ answer, round.Writes policy ledger answer) ∨
    ∀ answer, ¬round.Writes policy ledger answer := by
  rw [← not_exists]
  exact Classical.em _

variable {round policy ledger}

-- A cycle with items to ask for, by what becomes of its search.
theorem run_of_due {σ : Type} (hfound : round.outage.find = none)
    (hdue : ledger.findIncomplete policy.maxPollSize ≠ [])
    (publish : List Sighting → Except PublishFailure Unit × σ) :
    run policy round.outage round.now ledger round.search publish =
      match round.search (dueIds policy ledger) with
      | .calledOff => ⟨.error .cancelled, ledger, [], [], none⟩
      | .abandoned => ⟨.error .cancelled, ledger, [dueIds policy ledger], [], none⟩
      | .answered (.error failure) =>
          ⟨.error (.movement failure), ledger, [dueIds policy ledger], [], none⟩
      | .answered (.ok answer) =>
          commit round.outage publish ledger (dueIds policy ledger)
            (assess policy round.now (ledger.findIncomplete policy.maxPollSize) answer) := by
  unfold run dueIds
  rw [hfound]
  cases hbatch : ledger.findIncomplete policy.maxPollSize with
  | nil => exact absurd hbatch hdue
  | cons item rest => rfl

theorem run_of_none_due {σ : Type} (hfound : round.outage.find = none)
    (hdue : ledger.findIncomplete policy.maxPollSize = [])
    (publish : List Sighting → Except PublishFailure Unit × σ) :
    run policy round.outage round.now ledger round.search publish =
      ⟨.ok {}, ledger, [], [], none⟩ := by
  unfold run
  rw [hfound, hdue]

theorem run_of_refused {σ : Type} {failure : Failure} (hfound : round.outage.find = some failure)
    (publish : List Sighting → Except PublishFailure Unit × σ) :
    run policy round.outage round.now ledger round.search publish =
      ⟨.error failure, ledger, [], [], none⟩ := by
  unfold run
  rw [hfound]

theorem commit_of_refused {σ : Type} {failure : Failure} {assessment : Assessment}
    {ids : List String} (hwrite : round.outage.bulkUpdate = some failure)
    (publish : List Sighting → Except PublishFailure Unit × σ) :
    commit round.outage publish ledger ids assessment =
      ⟨.error failure, ledger, [ids], [], none⟩ := by
  unfold commit
  rw [hwrite]

-- The ledger, the request and the updates of a cycle that writes do not depend on its publisher.
theorem commit_of_writes {σ : Type} {answer : SearchAnswer} (h : round.Writes policy ledger answer)
    (publish : List Sighting → Except PublishFailure Unit × σ) :
    commit round.outage publish ledger (dueIds policy ledger)
        (assess policy round.now (ledger.findIncomplete policy.maxPollSize) answer) =
      { result := if selected policy ledger answer = [] then
            .ok (assess policy round.now (ledger.findIncomplete policy.maxPollSize) answer).summary
          else match (publish (selected policy ledger answer)).1 with
            | .ok () => .ok
                (assess policy round.now (ledger.findIncomplete policy.maxPollSize) answer).summary
            | .error failure => .error (.publish failure)
        ledger := round.rewritten policy ledger answer
        requests := [dueIds policy ledger]
        updates := (ledger.findIncomplete policy.maxPollSize).map (revision policy round.now answer)
        published := if selected policy ledger answer = [] then none
          else some (publish (selected policy ledger answer)).2 } := by
  unfold commit
  rw [h.written]
  have hselected : (assess policy round.now (ledger.findIncomplete policy.maxPollSize)
      answer).changed = selected policy ledger answer := rfl
  cases hchanged : selected policy ledger answer with
  | nil => simp only [hselected, hchanged, if_true]; rfl
  | cons sighting rest => simp only [hselected, hchanged, List.cons_ne_nil, if_false]; rfl

variable (round policy ledger) in
-- The two ways of a cycle: it writes, or it leaves the ledger alone and hands nothing over.
theorem run_cases {σ : Type} (publish : List Sighting → Except PublishFailure Unit × σ) :
    (∃ answer, round.Writes policy ledger answer ∧
      run policy round.outage round.now ledger round.search publish =
        commit round.outage publish ledger (dueIds policy ledger)
          (assess policy round.now (ledger.findIncomplete policy.maxPollSize) answer)) ∨
    ((∀ answer, ¬round.Writes policy ledger answer) ∧
      ∃ result requests,
        run policy round.outage round.now ledger round.search publish =
          ⟨result, ledger, requests, [], none⟩ ∧
        ∀ ids ∈ requests, ids = dueIds policy ledger ∧ ids ≠ []) := by
  cases hfound : round.outage.find with
  | some failure =>
      refine Or.inr ⟨fun answer h => ?_, _, [], run_of_refused hfound publish, by simp⟩
      simp [h.found] at hfound
  | none =>
      by_cases hdue : ledger.findIncomplete policy.maxPollSize = []
      · refine Or.inr ⟨fun answer h => h.due hdue, _, [], run_of_none_due hfound hdue publish, ?_⟩
        simp
      · have hrun := run_of_due hfound hdue publish
        have hids : ∀ ids ∈ [dueIds policy ledger], ids = dueIds policy ledger ∧ ids ≠ [] := by
          simp [dueIds, hdue]
        cases hsearch : round.search (dueIds policy ledger) with
        | calledOff =>
            rw [hsearch] at hrun
            refine Or.inr ⟨fun answer h => ?_, _, [], hrun, by simp⟩
            simp [h.answered] at hsearch
        | abandoned =>
            rw [hsearch] at hrun
            refine Or.inr ⟨fun answer h => ?_, _, _, hrun, hids⟩
            simp [h.answered] at hsearch
        | answered result =>
            rw [hsearch] at hrun
            cases result with
            | error failure =>
                refine Or.inr ⟨fun answer h => ?_, _, _, hrun, hids⟩
                simp [h.answered] at hsearch
            | ok answer =>
                cases hwrite : round.outage.bulkUpdate with
                | none => exact Or.inl ⟨answer, ⟨hfound, hdue, hsearch, hwrite⟩, hrun⟩
                | some failure =>
                    refine Or.inr ⟨fun answer h => ?_, _, _,
                      hrun.trans (commit_of_refused hwrite publish), hids⟩
                    simp [h.written] at hwrite

section Writes

variable {answer : SearchAnswer} (h : round.Writes policy ledger answer)

include h

theorem Writes.run_eq {σ : Type} (publish : List Sighting → Except PublishFailure Unit × σ) :
    run policy round.outage round.now ledger round.search publish =
      commit round.outage publish ledger (dueIds policy ledger)
        (assess policy round.now (ledger.findIncomplete policy.maxPollSize) answer) := by
  rw [run_of_due h.found h.due, h.answered]

theorem Writes.ledger_eq :
    (round.outcome policy ledger).ledger = round.rewritten policy ledger answer := by
  rw [outcome, h.run_eq, commit_of_writes h]

theorem Writes.requests_eq : (round.outcome policy ledger).requests = [dueIds policy ledger] := by
  rw [outcome, h.run_eq, commit_of_writes h]

theorem Writes.handed_eq : round.handed policy ledger = selected policy ledger answer := by
  rw [handed, h.run_eq, commit_of_writes h]
  split
  · rename_i hnone
    rw [hnone]
    rfl
  · rfl

end Writes

section NotWrites

variable (h : ∀ answer, ¬round.Writes policy ledger answer)

include h

theorem ledger_of_not_writes : (round.outcome policy ledger).ledger = ledger := by
  rcases run_cases round policy ledger round.publish with
    ⟨answer, hwrites, -⟩ | ⟨-, result, requests, hrun, -⟩
  · exact absurd hwrites (h answer)
  · rw [outcome, hrun]

theorem handed_of_not_writes : round.handed policy ledger = [] := by
  rcases run_cases round policy ledger
    (fun changed => (.ok (), changed)) with ⟨answer, hwrites, -⟩ | ⟨-, result, requests, hrun, -⟩
  · exact absurd hwrites (h answer)
  · rw [handed, hrun]
    rfl

end NotWrites

-- Nothing but the due ids is ever asked for, and nothing at all where none is due.
theorem mem_requests {ids : List String} (hids : ids ∈ (round.outcome policy ledger).requests) :
    ids = dueIds policy ledger ∧ ids ≠ [] := by
  rw [outcome] at hids
  rcases run_cases round policy ledger round.publish with
    ⟨answer, hwrites, hrun⟩ | ⟨-, result, requests, hrun, hrequests⟩
  · rw [hrun, commit_of_writes hwrites] at hids
    have hasked := List.mem_singleton.mp hids
    refine ⟨hasked, ?_⟩
    simp [hasked, dueIds, hwrites.due]
  · rw [hrun] at hids
    exact hrequests ids hids

-- Where the publication fails the cycle fails.
theorem result_outcome_of_error {failure : PublishFailure} (hne : round.handed policy ledger ≠ [])
    (h : (round.publish (round.handed policy ledger)).1 = .error failure) :
    (round.outcome policy ledger).result = .error (.publish failure) := by
  rcases round.writes_or_not policy ledger with ⟨answer, hwrites⟩ | hno
  · rw [hwrites.handed_eq] at hne h
    rw [outcome, hwrites.run_eq, commit_of_writes hwrites]
    simp only [hne, if_false, h]
  · exact absurd (handed_of_not_writes hno) hne

theorem mrn_mem_of_mem_handed {sighting : Sighting} (h : sighting ∈ round.handed policy ledger) :
    sighting.mrn ∈ dueIds policy ledger := by
  rcases round.writes_or_not policy ledger with ⟨answer, hwrites⟩ | hno
  · rw [hwrites.handed_eq, selected, List.mem_flatMap] at h
    obtain ⟨item, hitem, hchanged⟩ := h
    obtain ⟨gmr, -, rfl⟩ := List.mem_map.mp hchanged
    exact List.mem_map.mpr ⟨item, hitem, rfl⟩
  · rw [handed_of_not_writes hno] at h
    simp at h

-- The publisher is called with what is handed over, unless there is nothing to hand over.
theorem published_outcome : (round.outcome policy ledger).published =
    if round.handed policy ledger = [] then none
    else some (round.publish (round.handed policy ledger)).2 := by
  rcases round.writes_or_not policy ledger with ⟨answer, hwrites⟩ | hno
  · rw [hwrites.handed_eq, outcome, hwrites.run_eq, commit_of_writes hwrites]
  · rw [handed_of_not_writes hno, if_pos rfl, outcome]
    rcases run_cases round policy ledger round.publish with
      ⟨answer, h, -⟩ | ⟨-, result, requests, hrun, -⟩
    · exact absurd h (hno answer)
    · rw [hrun]

end Round

end DeclarationWatch.Cycle
