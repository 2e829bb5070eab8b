import DeclarationWatch.Proofs.Cycle.Change

namespace DeclarationWatch

-- The snapshot has this version of the record: under its id stands a text that can be read, and
-- what it reads as tells the same time of change.
def Snapshot.Knows (snapshot : Snapshot) (gmr : Gmr) : Prop :=
  ∃ stored previous, snapshot.get? gmr.id = some stored ∧ Gmr.ofText stored = .ok previous ∧
    previous.updated = gmr.updated

theorem Snapshot.not_knows_of_unreadable {snapshot : Snapshot} {gmr : Gmr} {stored : String}
    {fault : Json.Fault} (hstored : snapshot.get? gmr.id = some stored)
    (hfault : Gmr.ofText stored = .error fault) : ¬snapshot.Knows gmr := by
  rintro ⟨found, previous, hfound, hread, -⟩
  rw [hstored] at hfound
  cases hfound
  rw [hfault] at hread
  cases hread

namespace Cycle

variable {τ : Type} {policy : Policy} {ledger : Ledger}

theorem isKnown_eq_false_iff {prior : Snapshot} {gmr : Gmr} :
    isKnown prior gmr = false ↔ ¬prior.Knows gmr := by
  rw [← Bool.not_eq_true, isKnown_iff]
  rfl

namespace Round

-- All that a cycle can fail of. What the snapshots hold is not among it.
inductive Fails (round : Round τ) (policy : Policy) (ledger : Ledger) : Failure → Prop where
  | unread {failure : Failure} (refused : round.outage.find = some failure) :
      Fails round policy ledger failure
  | calledOff (found : round.outage.find = none)
      (due : ledger.findIncomplete policy.maxPollSize ≠ [])
      (unanswered : round.search (dueIds policy ledger) = .calledOff ∨
        round.search (dueIds policy ledger) = .abandoned) :
      Fails round policy ledger .cancelled
  | unanswered {failure : MovementFailure} (found : round.outage.find = none)
      (due : ledger.findIncomplete policy.maxPollSize ≠ [])
      (refused : round.search (dueIds policy ledger) = .answered (.error failure)) :
      Fails round policy ledger (.movement failure)
  | unwritten {answer : SearchAnswer} {failure : Failure} (found : round.outage.find = none)
      (due : ledger.findIncomplete policy.maxPollSize ≠ [])
      (answered : round.search (dueIds policy ledger) = .answered (.ok answer))
      (refused : round.outage.bulkUpdate = some failure) :
      Fails round policy ledger failure
  | unpublished {failure : PublishFailure} (changed : round.handed policy ledger ≠ [])
      (refused : (round.publish (round.handed policy ledger)).1 = .error failure) :
      Fails round policy ledger (.publish failure)

variable {round : Round τ} {failure : Failure}

theorem Fails.result_eq (h : round.Fails policy ledger failure) :
    (round.outcome policy ledger).result = .error failure := by
  cases h with
  | unread refused => rw [outcome, run_of_refused refused]
  | calledOff found due unanswered =>
      rw [outcome, run_of_due found due]
      rcases unanswered with hsearch | hsearch <;> rw [hsearch]
  | unanswered found due refused => rw [outcome, run_of_due found due, refused]
  | unwritten found due answered refused =>
      rw [outcome, run_of_due found due, answered]
      exact congrArg Outcome.result (commit_of_refused refused round.publish)
  | unpublished changed refused => exact result_outcome_of_error changed refused

-- A cycle that has written can only fail of its publisher.
theorem Writes.fails_of_result_eq {answer : SearchAnswer} (h : round.Writes policy ledger answer)
    (hresult : (round.outcome policy ledger).result = .error failure) :
    round.Fails policy ledger failure := by
  rw [outcome, h.run_eq, commit_of_writes h] at hresult
  by_cases hnone : selected policy ledger answer = []
  · simp only [hnone, if_true] at hresult
    cases hresult
  · simp only [hnone, if_false] at hresult
    rw [← h.handed_eq] at hnone hresult
    split at hresult
    · cases hresult
    · rename_i refusal hrefused
      cases hresult
      exact .unpublished hnone hrefused

theorem fails_of_result_eq (h : (round.outcome policy ledger).result = .error failure) :
    round.Fails policy ledger failure := by
  cases hfound : round.outage.find with
  | some refusal =>
      rw [outcome, run_of_refused hfound] at h
      cases h
      exact .unread hfound
  | none =>
      by_cases hdue : ledger.findIncomplete policy.maxPollSize = []
      · rw [outcome, run_of_none_due hfound hdue] at h
        cases h
      · have hrun := congrArg Outcome.result (run_of_due hfound hdue round.publish)
        rw [← outcome, h] at hrun
        cases hsearch : round.search (dueIds policy ledger) with
        | calledOff =>
            rw [hsearch] at hrun
            cases hrun
            exact .calledOff hfound hdue (Or.inl hsearch)
        | abandoned =>
            rw [hsearch] at hrun
            cases hrun
            exact .calledOff hfound hdue (Or.inr hsearch)
        | answered result =>
            rw [hsearch] at hrun
            cases result with
            | error refusal =>
                cases hrun
                exact .unanswered hfound hdue hsearch
            | ok answer =>
                cases hwrite : round.outage.bulkUpdate with
                | some refusal =>
                    simp only [commit_of_refused hwrite] at hrun
                    cases hrun
                    exact .unwritten hfound hdue hsearch hwrite
                | none => exact (Writes.mk hfound hdue hsearch hwrite).fails_of_result_eq h

theorem result_eq_error_iff :
    (round.outcome policy ledger).result = .error failure ↔ round.Fails policy ledger failure :=
  ⟨fails_of_result_eq, Fails.result_eq⟩

theorem mem_handed_iff {sighting : Sighting} : sighting ∈ round.handed policy ledger ↔
    ∃ answer item, round.Writes policy ledger answer ∧
      item ∈ ledger.findIncomplete policy.maxPollSize ∧ item.id = sighting.mrn ∧
      answer.Resolves sighting.mrn sighting.gmr ∧ ¬item.snapshot.Knows sighting.gmr := by
  rcases round.writes_or_not policy ledger with ⟨answer, hwrites⟩ | hno
  · rw [hwrites.handed_eq, mem_selected_iff]
    simp only [isKnown_eq_false_iff]
    constructor
    · rintro ⟨item, hitem, hid, hgmr, hnew⟩
      exact ⟨answer, item, hwrites, hitem, hid, hgmr, hnew⟩
    · rintro ⟨other, item, hother, hitem, hid, hgmr, hnew⟩
      cases hwrites.answered.symm.trans hother.answered
      exact ⟨item, hitem, hid, hgmr, hnew⟩
  · rw [handed_of_not_writes hno]
    constructor
    · intro hmem
      cases hmem
    · rintro ⟨answer, -, hwrites, -⟩
      exact absurd hwrites (hno answer)

end Round

-- What a cycle makes of snapshots that hold any texts whatever. The publisher gets the records of
-- the polled items that the snapshots before the write do not know, each of them once and in order.
-- Ids that only a snapshot has bring forth nothing, an unreadable text holds nothing back, and no
-- text makes the cycle fail.
theorem handed_iff_not_stored (policy : Policy) (ledger : Ledger) (round : Round τ) :
    let batch := ledger.findIncomplete policy.maxPollSize
    let handed := round.handed policy ledger
    let outcome := round.outcome policy ledger
    outcome.published = (if handed = [] then none else some (round.publish handed).2) ∧
      (∀ sighting, sighting ∈ handed ↔ ∃ answer item, round.Writes policy ledger answer ∧
        item ∈ batch ∧ item.id = sighting.mrn ∧ answer.Resolves sighting.mrn sighting.gmr ∧
        ¬item.snapshot.Knows sighting.gmr) ∧
      handed.Pairwise (Precedes (batch.map (·.id))) ∧
      (∀ answer, round.Writes policy ledger answer → ∀ item ∈ batch,
        (∀ key, (∀ gmr, answer.Resolves item.id gmr → gmr.id ≠ key) →
          ∀ sighting ∈ handed, sighting.mrn = item.id → sighting.gmr.id ≠ key) ∧
        ∀ gmr stored fault, answer.Resolves item.id gmr →
          item.snapshot.get? gmr.id = some stored → Gmr.ofText stored = .error fault →
            ⟨item.id, gmr⟩ ∈ handed) ∧
      ∀ failure, outcome.result = .error failure ↔ round.Fails policy ledger failure := by
  intro batch handed outcome
  refine ⟨Round.published_outcome, fun sighting => Round.mem_handed_iff, Round.pairwise_handed,
    fun answer hwrites item hitem => ⟨fun key hgone sighting hsighting hmrn => ?_,
      fun gmr stored fault hgmr hstored hfault => ?_⟩, fun failure => Round.result_eq_error_iff⟩
  · obtain ⟨other, -, hother, -, -, hresolves, -⟩ := Round.mem_handed_iff.mp hsighting
    cases hwrites.answered.symm.trans hother.answered
    exact hgone sighting.gmr (hmrn ▸ hresolves)
  · exact Round.mem_handed_iff.mpr ⟨answer, item, hwrites, hitem, rfl, hgmr,
      Snapshot.not_knows_of_unreadable hstored hfault⟩

-- A snapshot with an id that is gone, a text of no record, and a version that is known.
theorem handed_iff_not_stored_three :
    let unread : Gmr := ⟨"G1", "OPEN", "v1", []⟩
    let known : Gmr := ⟨"G2", "", "v1", []⟩
    let texts : Snapshot := [("G0", known.text), ("G1", "\x7b\x7d"), ("G2", known.text)]
    let item : Item := ⟨"MRN-C", texts, false, ⟨0, 0⟩, ⟨5000, 0⟩, none⟩
    let ledger : Ledger := ⟨[item], [], by decide⟩
    let answer : SearchAnswer := ⟨[⟨"mrn-c", ["G1", "G2", "G7"]⟩], [unread, known]⟩
    let round : Round Unit :=
      ⟨⟨1000, 0⟩, {}, fun _ => .answered (.ok answer), fun _ => (.ok (), ())⟩
    (∀ sighting, sighting ∈ round.handed {} ledger ↔ sighting = ⟨"MRN-C", unread⟩) ∧
      ∀ failure, (round.outcome {} ledger).result ≠ .error failure := by
  intro unread known texts item ledger answer round
  have hbatch : ledger.findIncomplete ({} : Policy).maxPollSize = [item] :=
    Ledger.findIncomplete_eq_singleton rfl (by decide)
  have hwrites : round.Writes {} ledger answer := ⟨rfl, by simp [hbatch], rfl, rfl⟩
  have hunread : answer.Resolves "MRN-C" unread :=
    ⟨⟨[], [known], rfl, by simp [unread, known]⟩, _, List.mem_singleton_self _, rfl,
      List.mem_cons_self⟩
  have hknown : item.snapshot.Knows known :=
    ⟨known.text, known, rfl, Gmr.ofText_text (Gmr.sound_nil 126)
      (Gmr.integral_of_payload_eq_nil rfl).exact, rfl⟩
  obtain ⟨-, hhanded, -, hstored, hfails⟩ := handed_iff_not_stored {} ledger round
  have hmem : ⟨"MRN-C", unread⟩ ∈ round.handed {} ledger :=
    (hstored answer hwrites item (by simp [hbatch])).2 unread "\x7b\x7d" .wrongShape hunread rfl
      (by cbv)
  have honly : ∀ sighting ∈ round.handed {} ledger, sighting = ⟨"MRN-C", unread⟩ := by
    intro sighting hsighting
    obtain ⟨other, due, hother, hdue, hid, hgmr, hnew⟩ := (hhanded sighting).mp hsighting
    cases hwrites.answered.symm.trans hother.answered
    rw [hbatch, List.mem_singleton] at hdue
    subst hdue
    obtain ⟨mrn, gmr⟩ := sighting
    cases hid
    rcases List.mem_pair.mp hgmr.mem with rfl | rfl
    · rfl
    · exact absurd hknown hnew
  refine ⟨fun sighting => ⟨honly sighting, fun h => h ▸ hmem⟩, fun failure hresult => ?_⟩
  cases (hfails failure).mp hresult with
  | unread refused => cases refused
  | calledOff _ _ unanswered => rcases unanswered with h | h <;> cases h
  | unanswered _ _ refused => cases refused
  | unwritten _ _ _ refused => cases refused
  | unpublished _ refused => cases refused

end Cycle

end DeclarationWatch
