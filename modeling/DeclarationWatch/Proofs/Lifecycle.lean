import DeclarationWatch.Proofs.History
import Mathlib.Data.List.Induction

namespace DeclarationWatch

variable {τ : Type} {policy : Policy}

-- Some past call created an item under this id, and no call since then removed all items.
def CreatedSince (policy : Policy) (past : List (Act τ)) (id : String) : Prop :=
  ∃ before act after, past = before ++ act :: after ∧
    act.Registers policy (replay policy .empty before) id ∧ ∀ later ∈ after, ¬later.Clears

theorem createdSince_append_singleton {past : List (Act τ)} {act : Act τ} {id : String} :
    CreatedSince policy (past ++ [act]) id ↔
      act.Registers policy (replay policy .empty past) id ∨
        CreatedSince policy past id ∧ ¬act.Clears :=
  exists_split_append_singleton

-- The ledger has exactly the items that were created and not removed since.
theorem find?_replay_ne_none_iff (past : List (Act τ)) (id : String) :
    (replay policy .empty past).find? id ≠ none ↔ CreatedSince policy past id := by
  induction past using List.reverseRecOn with
  | nil => simp [CreatedSince]
  | append_singleton past act ih =>
      rw [replay_append, replay_cons, replay_nil, createdSince_append_singleton, ← ih]
      exact Act.find?_perform_ne_none_iff

-- What a call keeps of an item. It keeps all of an item that is complete.
structure Keeps (before after : Item) : Prop where
  created : after.created = before.created
  expiry : after.expiry = before.expiry
  frozen : before.complete = true → after = before

theorem Keeps.refl (item : Item) : Keeps item item := ⟨rfl, rfl, fun _ => rfl⟩

theorem Keeps.trans {first second third : Item} (h : Keeps first second) (h' : Keeps second third) :
    Keeps first third where
  created := h'.created.trans h.created
  expiry := h'.expiry.trans h.expiry
  frozen := fun hcomplete => by
    have hsecond := h.frozen hcomplete
    rw [h'.frozen (hsecond ▸ hcomplete), hsecond]

theorem Act.find?_perform_keeps {ledger : Ledger} {act : Act τ} {id : String} {item : Item}
    (hstays : ¬act.Clears) (hfind : ledger.find? id = some item) :
    ∃ after, (act.perform policy ledger).find? id = some after ∧ Keeps item after := by
  rcases Act.find?_perform_of_some hstays hfind with h | ⟨hopen, round, answer, -, -, -, h⟩
  · exact ⟨item, h, Keeps.refl item⟩
  · refine ⟨_, h, rfl, rfl, fun hcomplete => ?_⟩
    rw [hopen] at hcomplete
    cases hcomplete

-- The calls of a whole run keep no less, by induction on the run.
theorem find?_replay_keeps {later : List (Act τ)} (hstays : ∀ act ∈ later, ¬act.Clears)
    {ledger : Ledger} {id : String} {item : Item} (hfind : ledger.find? id = some item) :
    ∃ after, (replay policy ledger later).find? id = some after ∧ Keeps item after := by
  induction later generalizing ledger item with
  | nil => exact ⟨item, hfind, Keeps.refl item⟩
  | cons act later ih =>
      obtain ⟨next, hnext, hkeeps⟩ :=
        Act.find?_perform_keeps (hstays act List.mem_cons_self) hfind
      obtain ⟨last, hlast, hrest⟩ :=
        ih (fun other hother => hstays other (List.mem_cons_of_mem _ hother)) hnext
      exact ⟨last, hlast, hkeeps.trans hrest⟩

namespace Cycle

variable {ledger : Ledger} {item : Item} {id : String}

-- A complete item is not due.
theorem notMem_dueIds_of_complete (hfind : ledger.find? id = some item)
    (hcomplete : item.complete = true) : id ∉ dueIds policy ledger := by
  intro hdue
  have hmem := mem_findIncomplete_of_mem_dueIds hdue hfind
  have hopen := (Ledger.mem_of_mem_findIncomplete hmem).2
  rw [hcomplete] at hopen
  cases hopen

end Cycle

-- The life of an item over a whole run, from its registration to the removal of all items.
theorem item_lifecycle (policy : Policy) (past : List (Act τ)) :
    let ledger := replay policy .empty past
    (∀ outage now reference ttl expiry, outage.register = none → policy.ttl? = some ttl →
      now.add? ttl = some expiry →
      let id := Mrn.canonical reference
      let after := replay policy .empty (past ++ [.watch outage now reference])
      ∃ registration, watch policy outage now ledger reference = .ok (registration, after) ∧
        (registration = .created ↔ ¬CreatedSince policy past id) ∧
        (registration = .created → after.find? id = some ⟨id, [], false, now, expiry, none⟩) ∧
        (registration = .alreadyExists → after = ledger)) ∧
    (∀ id item, ledger.find? id = some item →
      ∀ later : List (Act τ), (∀ act ∈ later, ¬act.Clears) →
      ∃ after, (replay policy ledger later).find? id = some after ∧
        after.created = item.created ∧ after.expiry = item.expiry ∧
        (item.complete = true → after = item ∧ ∀ round : Cycle.Round τ,
          (∀ ids ∈ (round.outcome policy (replay policy ledger later)).requests, id ∉ ids) ∧
          ∀ sighting ∈ round.handed policy (replay policy ledger later), sighting.mrn ≠ id)) := by
  intro ledger
  constructor
  · intro outage now reference ttl expiry hopen httl hexpiry id after
    let item : Item := ⟨id, [], false, now, expiry, none⟩
    have hwatch : watch policy outage now ledger reference = .ok (ledger.register item) :=
      watch_eq httl hexpiry hopen
    have hafter : after = (ledger.register item).2 := by
      simp only [after, replay_append, replay_cons, replay_nil, Act.perform]
      rw [show watch policy outage now (replay policy .empty past) reference = _ from hwatch]
    rw [hwatch, hafter]
    refine ⟨(ledger.register item).1, rfl, ?_, ?_, Ledger.register_of_alreadyExists⟩
    · rw [Ledger.register_eq_created_iff, ← find?_replay_ne_none_iff, not_not]
    · intro hcreated
      rw [Ledger.find?_register, (Ledger.register_eq_created_iff _ _).mp hcreated]
      simp [item]
  · intro id item hfind later hstays
    obtain ⟨after, hafter, hkeeps⟩ := find?_replay_keeps hstays hfind
    refine ⟨after, hafter, hkeeps.created, hkeeps.expiry, fun hcomplete => ?_⟩
    have hsame := hkeeps.frozen hcomplete
    rw [hsame] at hafter
    have hdue : id ∉ Cycle.dueIds policy (replay policy ledger later) :=
      Cycle.notMem_dueIds_of_complete hafter hcomplete
    refine ⟨hsame, fun round => ⟨fun ids hids => ?_, fun sighting hsighting heq => ?_⟩⟩
    · rw [(Cycle.Round.mem_requests hids).1]
      exact hdue
    · exact hdue (heq ▸ Cycle.Round.mrn_mem_of_mem_handed hsighting)

-- An item that expires, and is registered again.
theorem item_lifecycle_expired :
    let round : Cycle.Round Unit :=
      ⟨⟨2592001, 0⟩, {}, fun _ => .answered (.ok ⟨[], []⟩), fun _ => (.ok (), ())⟩
    let past := [.watch {} ⟨0, 0⟩ "MRN-C", .cycle round]
    let expired : Item := ⟨"MRN-C", [], true, ⟨0, 0⟩, ⟨2592000, 0⟩, some ⟨2592001, 0⟩⟩
    (replay {} .empty past).find? "MRN-C" = some expired ∧
      (∃ registration, watch {} {} ⟨2592002, 0⟩ (replay {} .empty past) " mrn-c" =
          .ok (registration, replay {} .empty (past ++ [.watch {} ⟨2592002, 0⟩ " mrn-c"])) ∧
        ¬registration = .created) ∧
      (replay {} .empty (past ++ [.watch {} ⟨2592002, 0⟩ " mrn-c", .cycle round])).find? "MRN-C" =
        some expired := by
  intro round past expired
  let fresh : Item := ⟨"MRN-C", [], false, ⟨0, 0⟩, ⟨2592000, 0⟩, none⟩
  let ledger : Ledger := ⟨[fresh], [], by decide⟩
  have hledger : replay {} .empty past = (round.outcome {} ledger).ledger := rfl
  have hbatch : ledger.findIncomplete ({} : Policy).maxPollSize = [fresh] :=
    Ledger.findIncomplete_eq_singleton rfl (by decide)
  have hwrites : round.Writes {} ledger ⟨[], []⟩ := ⟨rfl, by simp [hbatch], rfl, rfl⟩
  have hfind : (replay {} .empty past).find? "MRN-C" = some expired := by
    have hdue : fresh ∈ ledger.findIncomplete ({} : Policy).maxPollSize := by simp [hbatch]
    rw [hledger, hwrites.ledger_eq]
    exact Cycle.Round.find?_rewritten_of_mem ⟨[], []⟩ hdue
  obtain ⟨hregister, hlife⟩ := item_lifecycle {} past
  obtain ⟨registration, hwatch, hcreated, -, -⟩ :=
    hregister {} ⟨2592002, 0⟩ " mrn-c" 2592000000 ⟨5184002, 0⟩ rfl rfl rfl
  obtain ⟨after, hafter, -, -, hfrozen⟩ :=
    hlife "MRN-C" expired hfind [.watch {} ⟨2592002, 0⟩ " mrn-c", .cycle round] (by
      simp [Act.Clears])
  refine ⟨hfind, ⟨registration, hwatch, ?_⟩, ?_⟩
  · rw [hcreated, not_not]
    exact (find?_replay_ne_none_iff past "MRN-C").mp (by simp [hfind])
  · rw [replay_append, hafter, (hfrozen rfl).1]

end DeclarationWatch
