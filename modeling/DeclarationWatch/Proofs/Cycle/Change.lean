import DeclarationWatch.Proofs.Cycle.Write
import DeclarationWatch.Proofs.Gmr.RoundTrip

namespace DeclarationWatch

-- An answer as a cycle gets it: read from a text, and without a float in its records.
structure SearchAnswer.Read (answer : SearchAnswer) : Prop where
  text : ∃ s, SearchAnswer.ofText s = .ok answer
  integral : ∀ gmr ∈ answer.gmrs, gmr.Integral

theorem SearchAnswer.read_of_sound {answer : SearchAnswer}
    (hsound : ∀ gmr ∈ answer.gmrs, Gmr.Sound 124 gmr.payload)
    (hintegral : ∀ gmr ∈ answer.gmrs, gmr.Integral) : answer.Read where
  text := ⟨_, SearchAnswer.ofText_text hsound fun gmr hgmr => (hintegral gmr hgmr).exact⟩
  integral := hintegral

theorem SearchAnswer.Read.ofText_text {answer : SearchAnswer} (h : answer.Read) {gmr : Gmr}
    (hgmr : gmr ∈ answer.gmrs) : Gmr.ofText gmr.text = .ok gmr := by
  obtain ⟨s, hs⟩ := h.text
  have hsound := SearchAnswer.sound_of_ofText hs gmr hgmr
  exact Gmr.ofText_text (hsound.mono (by decide)) (h.integral gmr hgmr).exact

theorem SearchAnswer.Resolves.mem {answer : SearchAnswer} {mrn : String} {gmr : Gmr}
    (h : answer.Resolves mrn gmr) : gmr ∈ answer.gmrs := by
  obtain ⟨⟨before, after, hgmrs, -⟩, -⟩ := h
  simp [hgmrs]

namespace Cycle

variable {τ : Type} {policy : Policy} {ledger : Ledger}

theorem isKnown_nil (gmr : Gmr) : isKnown [] gmr = false := rfl

theorem isKnown_iff (prior : Snapshot) (gmr : Gmr) :
    isKnown prior gmr = true ↔ ∃ stored previous, prior.get? gmr.id = some stored ∧
      Gmr.ofText stored = .ok previous ∧ previous.updated = gmr.updated := by
  unfold isKnown
  constructor
  · intro h
    split at h
    · cases h
    · rename_i stored hstored
      split at h
      · rename_i previous hprevious
        exact ⟨stored, previous, hstored, hprevious, by simpa using h⟩
      · cases h
  · rintro ⟨stored, previous, hstored, hprevious, hupdated⟩
    simp [hstored, hprevious, hupdated]

-- A record is known to the snapshot of an earlier answer if that answer had it in this version.
theorem isKnown_snapshotOf {previous : SearchAnswer} (hread : previous.Read) (mrn : String)
    (gmr : Gmr) : isKnown (snapshotOf (previous.resolved mrn)) gmr = true ↔
      ∃ old, previous.Resolves mrn old ∧ old.id = gmr.id ∧ old.updated = gmr.updated := by
  rw [isKnown_iff]
  constructor
  · rintro ⟨stored, parsed, hstored, hparsed, hupdated⟩
    obtain ⟨old, hold, hid, rfl⟩ := (get?_snapshotOf_resolved previous mrn gmr.id stored).mp hstored
    rw [hread.ofText_text hold.mem] at hparsed
    cases hparsed
    exact ⟨_, hold, hid, hupdated⟩
  · rintro ⟨old, hold, hid, hupdated⟩
    have hstored := (get?_snapshotOf_resolved previous mrn gmr.id old.text).mpr ⟨old, hold, hid, rfl⟩
    exact ⟨old.text, old, hstored, hread.ofText_text hold.mem, hupdated⟩

-- What is selected: records of due items that their snapshots do not know.
theorem mem_selected_iff (answer : SearchAnswer) (sighting : Sighting) :
    sighting ∈ selected policy ledger answer ↔
      ∃ item ∈ ledger.findIncomplete policy.maxPollSize, item.id = sighting.mrn ∧
        answer.Resolves sighting.mrn sighting.gmr ∧ isKnown item.snapshot sighting.gmr = false := by
  simp only [selected, changedOf, List.mem_flatMap, List.mem_map, List.mem_filter,
    Bool.not_eq_true', SearchAnswer.mem_resolved_iff]
  constructor
  · rintro ⟨item, hitem, gmr, ⟨hgmr, hnew⟩, rfl⟩
    exact ⟨item, hitem, rfl, hgmr, hnew⟩
  · rintro ⟨item, hitem, hid, hgmr, hnew⟩
    exact ⟨item, hitem, sighting.gmr, ⟨hid ▸ hgmr, hnew⟩, by rw [hid]⟩

-- The order in which sightings are handed over: by the items of the batch, and for one item by
-- the ids of the records.
def Precedes (ids : List String) (a b : Sighting) : Prop :=
  ids.idxOf a.mrn < ids.idxOf b.mrn ∨ a.mrn = b.mrn ∧ a.gmr.id < b.gmr.id

theorem Precedes.ne {ids : List String} {a b : Sighting} (h : Precedes ids a b) :
    (a.mrn, a.gmr.id) ≠ (b.mrn, b.gmr.id) := by
  intro heq
  obtain ⟨hmrn, hid⟩ := Prod.mk.inj heq
  rcases h with h | ⟨-, h⟩
  · rw [hmrn] at h
    exact Nat.lt_irrefl _ h
  · rw [hid] at h
    exact String.lt_irrefl _ h

theorem pairwise_idxOf {ids : List String} (h : ids.Nodup) :
    ids.Pairwise fun a b => ids.idxOf a < ids.idxOf b := by
  rw [List.pairwise_iff_getElem]
  intro i j hi hj hlt
  rw [h.idxOf_getElem i hi, h.idxOf_getElem j hj]
  exact hlt

theorem pairwise_selected (answer : SearchAnswer) :
    (selected policy ledger answer).Pairwise (Precedes (dueIds policy ledger)) := by
  unfold selected
  rw [List.pairwise_flatMap]
  constructor
  · intro item _
    unfold changedOf
    rw [List.pairwise_map]
    refine ((answer.pairwise_resolved item.id).filter _).imp ?_
    intro a b hlt
    exact Or.inr ⟨rfl, hlt⟩
  · have hids := pairwise_idxOf (Ledger.nodup_findIncomplete ledger policy.maxPollSize)
    rw [List.pairwise_map] at hids
    refine hids.imp ?_
    intro a b hlt x hx y hy
    obtain ⟨_, -, rfl⟩ := List.mem_map.mp hx
    obtain ⟨_, -, rfl⟩ := List.mem_map.mp hy
    exact Or.inl hlt

theorem Round.pairwise_handed {round : Round τ} :
    (round.handed policy ledger).Pairwise (Precedes (dueIds policy ledger)) := by
  rcases round.writes_or_not policy ledger with ⟨answer, hwrites⟩ | hno
  · rw [hwrites.handed_eq]
    exact pairwise_selected answer
  · rw [handed_of_not_writes hno]
    exact List.Pairwise.nil

end Cycle

end DeclarationWatch
