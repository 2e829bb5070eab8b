import DeclarationWatch.Proofs.ChangeStream
import DeclarationWatch.Proofs.Publish.Dispatch

namespace DeclarationWatch

open Publish (ChunkState Course Dispatch Entry Move Settlement chunks)

-- A past cycle and one of the sightings that it handed over.
structure Handover {τ : Type} (policy : Policy) (past : List (Act τ)) where
  before : List (Act τ)
  round : Cycle.Round τ
  after : List (Act τ)
  split : past = before ++ .cycle round :: after
  sighting : Sighting
  mem : sighting ∈ round.handed policy (replay policy .empty before)

namespace Handover

section History

variable {τ : Type} {policy : Policy} {past : List (Act τ)}

def ledger (handover : Handover policy past) : Ledger := replay policy .empty handover.before

-- All that the cycle handed over.
def records (handover : Handover policy past) : List Sighting :=
  handover.round.handed policy handover.ledger

-- The sighting is of this version of this record, for this item.
structure Of (handover : Handover policy past) (id key updated : String) : Prop where
  mrn : handover.sighting.mrn = id
  key : handover.sighting.gmr.id = key
  updated : handover.sighting.gmr.updated = updated

-- A past cycle is still past after one more call.
def extend (handover : Handover policy past) (act : Act τ) : Handover policy (past ++ [act]) :=
  { handover with
    after := handover.after ++ [act]
    split := by simp [handover.split] }

end History

variable {policy : Policy} {past : List (Act Course)}

-- How the publication went.
def course (handover : Handover policy past) : Course :=
  (handover.round.publish handover.records).2

def Delivered (config : Publish.Config) (handover : Handover policy past) : Prop :=
  handover.course.Delivers config handover.records (.ofSighting handover.sighting)

def Dropped (config : Publish.Config) (handover : Handover policy past)
    (settlement : Settlement) : Prop :=
  handover.course.Drops config handover.records (.ofSighting handover.sighting) settlement

end Handover

-- The item has this version of the record in its snapshot.
def Recorded {τ : Type} (policy : Policy) (past : List (Act τ)) (id key updated : String) : Prop :=
  ∃ item text version, (replay policy .empty past).find? id = some item ∧
    item.snapshot.get? key = some text ∧ Gmr.ofText text = .ok version ∧ version.updated = updated

-- Every publication of the run is one that its receiver can bring about.
def Faithful (config : Publish.Config) (policy : Policy) (past : List (Act Course)) : Prop :=
  ∀ handover : Handover policy past,
    handover.course.Yields config handover.records
      (handover.round.publish handover.records).1

section Snapshots

variable {τ : Type} {policy : Policy}

-- Every text of a snapshot is that of a record whose version was handed over for the item. A
-- cycle that knows the version relies on an earlier one.
theorem exists_handover_of_snapshot {past : List (Act τ)} {id key text : String} {item : Item}
    (hfind : (replay policy .empty past).find? id = some item)
    (htext : item.snapshot.get? key = some text) :
    ∃ gmr : Gmr, gmr.text = text ∧
      ∃ handover : Handover policy past, handover.Of id key gmr.updated := by
  induction past using List.reverseRecOn generalizing item text with
  | nil => cases hfind
  | append_singleton past act ih =>
      have hextend : ∀ {updated}, (∃ handover : Handover policy past, handover.Of id key updated) →
          ∃ handover : Handover policy (past ++ [act]), handover.Of id key updated := by
        rintro updated ⟨handover, hof⟩
        exact ⟨handover.extend act, hof.mrn, hof.key, hof.updated⟩
      rw [replay_append, replay_cons, replay_nil] at hfind
      rcases Act.find?_perform_eq_some hfind with
        ⟨now, expiry, -, rfl⟩ | ⟨hbefore, -⟩ |
          ⟨earlier, round, answer, hbefore, rfl, hwrites, hdue, rfl⟩
      · cases htext
      · obtain ⟨gmr, hgmr, hhanded⟩ := ih hbefore htext
        exact ⟨gmr, hgmr, hextend hhanded⟩
      · have hid : earlier.id = id := ((Ledger.find?_eq_some_iff _ _ _).mp hbefore).2
        obtain ⟨gmr, hgmr, hkey, rfl⟩ :=
          (Cycle.get?_snapshotOf_resolved answer earlier.id key text).mp htext
        refine ⟨gmr, rfl, ?_⟩
        by_cases hknown : Cycle.isKnown earlier.snapshot gmr = true
        · obtain ⟨stored, previous, hstored, hprevious, hsame⟩ :=
            (Cycle.isKnown_iff earlier.snapshot gmr).mp hknown
          rw [hkey] at hstored
          obtain ⟨old, rfl, hhanded⟩ := ih hbefore hstored
          rw [Gmr.updated_of_ofText_text hprevious] at hsame
          exact hextend (hsame ▸ hhanded)
        · have hmem := Cycle.mem_findIncomplete_of_mem_dueIds hdue hbefore
          have hselected : ⟨id, gmr⟩ ∈ Cycle.selected policy (replay policy .empty past) answer :=
            (Cycle.mem_selected_iff answer _).mpr
              ⟨earlier, hmem, hid, hid ▸ hgmr, Bool.not_eq_true _ ▸ hknown⟩
          exact ⟨⟨past, round, [], rfl, ⟨id, gmr⟩, hwrites.handed_eq ▸ hselected⟩, rfl, hkey, rfl⟩

end Snapshots

-- An item that no cycle writes is as it was.
theorem find?_replay_of_unpolled {τ : Type} {policy : Policy} {ledger : Ledger}
    {later : List (Act τ)} {id : String} {item : Item} (hstays : ∀ act ∈ later, ¬act.Clears)
    (hunpolled : Unpolled policy ledger later id) (hfind : ledger.find? id = some item) :
    (replay policy ledger later).find? id = some item := by
  induction later using List.reverseRecOn with
  | nil => exact hfind
  | append_singleton later act ih =>
      obtain ⟨hlater, hact⟩ := unpolled_append_singleton.mp hunpolled
      rw [replay_append, replay_cons, replay_nil]
      exact Act.find?_perform_of_not_polls hact (hstays act (by simp))
        (ih (fun other hother => hstays other (List.mem_append_left _ hother)) hlater)

-- Whatever a snapshot records has been handed over. Then the receiver settled it in that cycle, or
-- its chunk came to an end without it. What a cycle selects and does not get to write is selected
-- again.
theorem recorded_handed_over (config : Publish.Config) (policy : Policy) (past : List (Act Course))
    (hfaithful : Faithful config policy past) :
    (∀ id key updated, Recorded policy past id key updated →
      ∃ handover : Handover policy past, handover.Of id key updated ∧
        (handover.Delivered config ∨
          ∃ settlement, handover.Dropped config settlement ∧
            ((∀ ids, settlement ≠ .failed (.retriesExhausted ids)) →
              ∃ failure, (handover.round.outcome policy handover.ledger).result =
                  .error (.publish failure) ∧
                ∀ ids, failure = .retriesExhausted ids →
                  handover.sighting.identifier ∈ ids))) ∧
      ∀ answer sighting, sighting ∈ Cycle.selected policy (replay policy .empty past) answer →
        ∀ later : List (Act Course), (∀ act ∈ later, ¬act.Clears) →
          Unpolled policy (replay policy .empty past) later sighting.mrn →
          let ledger := replay policy .empty (past ++ later)
          ∀ (round : Cycle.Round Course) (next : SearchAnswer), round.Writes policy ledger next →
            sighting.mrn ∈ Cycle.dueIds policy ledger →
            next.Resolves sighting.mrn sighting.gmr → sighting ∈ round.handed policy ledger := by
  constructor
  · rintro id key updated ⟨item, text, version, hfind, htext, hversion, rfl⟩
    obtain ⟨gmr, rfl, handover, hof⟩ := exists_handover_of_snapshot hfind htext
    rw [Gmr.updated_of_ofText_text hversion]
    refine ⟨handover, hof, ?_⟩
    rcases Course.delivers_or_drops (hfaithful handover) handover.mem with
      hdelivers | ⟨settlement, hdrops, hfails⟩
    · exact Or.inl hdelivers
    · refine Or.inr ⟨settlement, hdrops, fun hown => ?_⟩
      obtain ⟨failure, hfailure, hnamed⟩ := hfails hown
      have hne := List.ne_nil_of_mem handover.mem
      exact ⟨failure, Cycle.Round.result_outcome_of_error hne hfailure, hnamed⟩
  · intro answer sighting hselected later hstays hunpolled ledger round next hwrites hdue hresolves
    obtain ⟨item, hitem, hid, -, hnew⟩ := (Cycle.mem_selected_iff answer sighting).mp hselected
    have hfind := Ledger.find?_of_mem_findIncomplete hitem
    rw [hid] at hfind
    have hkept : ledger.find? sighting.mrn = some item := by
      rw [show ledger = _ from replay_append policy .empty past later]
      exact find?_replay_of_unpolled hstays hunpolled hfind
    have hmem := Cycle.mem_findIncomplete_of_mem_dueIds hdue hkept
    rw [hwrites.handed_eq]
    exact (Cycle.mem_selected_iff next sighting).mpr ⟨item, hmem, hid, hresolves, hnew⟩

section Unsent

-- One item, and a cycle whose only record meets a receiver that is down. One attempt is all there
-- is.
def unsentGmr : Gmr := ⟨"G1", "OPEN", "v1", []⟩

def unsentRound : Cycle.Round Course where
  now := ⟨1, 0⟩
  search := fun _ => .answered (.ok ⟨[⟨"MRN-C", ["G1"]⟩], [unsentGmr]⟩)
  publish := fun _ => (.error (.retriesExhausted ["MRN-C-G1"]),
    ⟨false, [.chunk 0 .send, .chunk 0 (.answer (.error (.sink "503" "" false)))]⟩)

def unsentRun : List (Act Course) := [.watch {} ⟨0, 0⟩ "MRN-C", .cycle unsentRound]

def unsentLedger : Ledger :=
  ⟨[⟨"MRN-C", [], false, ⟨0, 0⟩, ⟨2592000, 0⟩, none⟩], [], by decide⟩

theorem findIncomplete_unsentLedger :
    unsentLedger.findIncomplete ({} : Policy).maxPollSize = unsentLedger.items :=
  Ledger.findIncomplete_eq_singleton rfl (by decide)

theorem writes_unsentRound :
    unsentRound.Writes {} unsentLedger ⟨[⟨"MRN-C", ["G1"]⟩], [unsentGmr]⟩ where
  found := rfl
  due := by
    rw [findIncomplete_unsentLedger]
    simp [unsentLedger]
  answered := rfl
  written := rfl

theorem handed_unsentRound :
    unsentRound.handed {} unsentLedger = [⟨"MRN-C", unsentGmr⟩] := by
  rw [writes_unsentRound.handed_eq, Cycle.selected, findIncomplete_unsentLedger]
  rfl

-- Its cycle is the only one.
theorem handover_unsentRun (handover : Handover {} unsentRun) :
    handover.round = unsentRound ∧ handover.records = [⟨"MRN-C", unsentGmr⟩] ∧
      handover.sighting = ⟨"MRN-C", unsentGmr⟩ := by
  obtain ⟨before, round, after, split, sighting, mem⟩ := handover
  have hsplit : before = [.watch {} ⟨0, 0⟩ "MRN-C"] ∧ round = unsentRound := by
    unfold unsentRun at split
    cases before with
    | nil => cases split
    | cons first before =>
        cases before with
        | nil =>
            cases split
            exact ⟨rfl, rfl⟩
        | cons second before => simp at split
  obtain ⟨rfl, rfl⟩ := hsplit
  have hledger : replay {} .empty ([.watch {} ⟨0, 0⟩ "MRN-C"] : List (Act Course)) =
      unsentLedger := rfl
  have hhanded := handed_unsentRound
  rw [← hledger] at hhanded
  rw [hhanded] at mem
  exact ⟨rfl, hhanded, List.mem_singleton.mp mem⟩

theorem faithful_unsentRun : Faithful { maxAttempts := 1 } {} unsentRun := by
  intro handover
  obtain ⟨hround, hrecords, -⟩ := handover_unsentRun handover
  rw [Handover.course, hrecords, hround]
  have hstart : (unsentRound.publish [⟨"MRN-C", unsentGmr⟩]).2.start { maxAttempts := 1 }
      [⟨"MRN-C", unsentGmr⟩] =
      ⟨[ChunkState.start [.ofSighting ⟨"MRN-C", unsentGmr⟩]], false⟩ := by
    simp [Course.start, Dispatch.start, chunks, unsentRound]
  constructor
  · rw [hstart]
    simp [unsentRound, Dispatch.possible_cons, Dispatch.possible_nil, Dispatch.Allows]
  · exact ⟨[.exhausted [.ofSighting ⟨"MRN-C", unsentGmr⟩]], by rw [hstart]; rfl, rfl⟩

theorem recorded_unsentRun : Recorded {} unsentRun "MRN-C" "G1" "v1" := by
  let answer : SearchAnswer := ⟨[⟨"MRN-C", ["G1"]⟩], [unsentGmr]⟩
  have hpolls : (Act.cycle unsentRound).Polls {} unsentLedger "MRN-C" answer := by
    refine ⟨unsentRound, rfl, writes_unsentRound, ?_⟩
    rw [Cycle.dueIds, findIncomplete_unsentLedger]
    exact List.mem_singleton_self _
  obtain ⟨item, hfind, hsnapshot⟩ := hpolls.snapshot_perform
  have hresolves : answer.Resolves "MRN-C" unsentGmr :=
    ⟨⟨[], [], rfl, by simp⟩, _, List.mem_singleton_self _, rfl, List.mem_singleton_self _⟩
  have htext := (Cycle.get?_snapshotOf_resolved answer "MRN-C" "G1" unsentGmr.text).mpr
    ⟨unsentGmr, hresolves, rfl, rfl⟩
  have hread : Gmr.ofText unsentGmr.text = .ok unsentGmr :=
    Gmr.ofText_text (Gmr.sound_nil 126) (Gmr.integral_of_payload_eq_nil rfl).exact
  exact ⟨item, unsentGmr.text, unsentGmr, hfind, hsnapshot ▸ htext, hread, rfl⟩

-- The run is one of those above.
theorem recorded_handed_over_unsent :
    Faithful { maxAttempts := 1 } {} unsentRun ∧ Recorded {} unsentRun "MRN-C" "G1" "v1" ∧
      ∃ handover : Handover {} unsentRun, handover.Of "MRN-C" "G1" "v1" ∧
        (handover.Delivered { maxAttempts := 1 } ∨
          ∃ settlement, handover.Dropped { maxAttempts := 1 } settlement) := by
  have hhanded := (recorded_handed_over { maxAttempts := 1 } {} unsentRun faithful_unsentRun).1
  obtain ⟨handover, hof, hend⟩ := hhanded "MRN-C" "G1" "v1" recorded_unsentRun
  refine ⟨faithful_unsentRun, recorded_unsentRun, handover, hof, ?_⟩
  exact hend.imp_right fun ⟨settlement, hdropped, _⟩ => ⟨settlement, hdropped⟩

-- So not all that is recorded has reached the receiver.
theorem not_forall_recorded_delivered :
    ¬∀ (config : Publish.Config) (policy : Policy) (past : List (Act Course)),
      Faithful config policy past → ∀ id key updated, Recorded policy past id key updated →
        ∃ handover : Handover policy past, handover.Of id key updated ∧
          handover.Delivered config := by
  intro hall
  obtain ⟨handover, -, hdelivered⟩ :=
    hall { maxAttempts := 1 } {} unsentRun faithful_unsentRun "MRN-C" "G1" "v1" recorded_unsentRun
  obtain ⟨hround, -, -⟩ := handover_unsentRun handover
  obtain ⟨before, index, answer, after, attempt, pending, hmoves, -, -, hsettles⟩ := hdelivered
  have hmem : .chunk index (.answer answer) ∈ handover.course.moves := by simp [hmoves]
  rw [Handover.course, hround] at hmem
  simp only [unsentRound, List.mem_cons, Move.chunk.injEq, reduceCtorEq, and_false, false_or,
    ChunkState.Event.answer.injEq, List.not_mem_nil, or_false] at hmem
  rw [hmem.2] at hsettles
  exact hsettles

end Unsent

end DeclarationWatch
