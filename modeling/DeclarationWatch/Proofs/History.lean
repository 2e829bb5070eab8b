import DeclarationWatch.Proofs.Cycle.Write

namespace DeclarationWatch

-- One call of the program: a registration, a cycle, or the removal of all items.
inductive Act (τ : Type) where
  | watch (outage : Outage) (now : Time.Instant) (reference : String)
  | cycle (round : Cycle.Round τ)
  | clear (outage : Outage)

variable {τ : Type}

namespace Act

-- The ledger after a call. A call that fails before it writes leaves it alone.
def perform (policy : Policy) (ledger : Ledger) : Act τ → Ledger
  | .watch outage now reference =>
      match DeclarationWatch.watch policy outage now ledger reference with
      | .ok (_, ledger) => ledger
      | .error _ => ledger
  | .cycle round => (round.outcome policy ledger).ledger
  | .clear outage =>
      match outage.deleteAll with
      | some _ => ledger
      | none => ledger.deleteAll.2

section Perform

variable {policy : Policy} {ledger after : Ledger} {outage : Outage} {now : Time.Instant}
  {reference : String} {failure : Failure}

theorem perform_watch_of_ok {registration : Registration}
    (hwatch : DeclarationWatch.watch policy outage now ledger reference =
      .ok (registration, after)) :
    (Act.watch outage now reference : Act τ).perform policy ledger = after := by
  simp only [perform, hwatch]

theorem perform_watch_of_error
    (hwatch : DeclarationWatch.watch policy outage now ledger reference = .error failure) :
    (Act.watch outage now reference : Act τ).perform policy ledger = ledger := by
  simp only [perform, hwatch]

theorem perform_cycle (round : Cycle.Round τ) :
    (Act.cycle round).perform policy ledger = (round.outcome policy ledger).ledger := rfl

theorem perform_clear_of_some (hclosed : outage.deleteAll = some failure) :
    (Act.clear outage : Act τ).perform policy ledger = ledger := by
  simp only [perform, hclosed]

theorem perform_clear_of_none (hopen : outage.deleteAll = none) :
    (Act.clear outage : Act τ).perform policy ledger = ledger.deleteAll.2 := by
  simp only [perform, hopen]

end Perform

-- The call adds an item under this id.
def Registers (policy : Policy) (ledger : Ledger) (act : Act τ) (id : String) : Prop :=
  ∃ outage now reference after, act = .watch outage now reference ∧
    Mrn.canonical reference = id ∧
    DeclarationWatch.watch policy outage now ledger reference = .ok (.created, after)

-- The call removes all items.
def Clears (act : Act τ) : Prop := ∃ outage : Outage, act = .clear outage ∧ outage.deleteAll = none

end Act

-- The ledger after some calls, one after the other.
def replay (policy : Policy) (ledger : Ledger) (acts : List (Act τ)) : Ledger :=
  acts.foldl (Act.perform policy) ledger

@[simp] theorem replay_nil (policy : Policy) (ledger : Ledger) :
    replay policy ledger ([] : List (Act τ)) = ledger := rfl

@[simp] theorem replay_cons (policy : Policy) (ledger : Ledger) (act : Act τ)
    (acts : List (Act τ)) :
    replay policy ledger (act :: acts) = replay policy (act.perform policy ledger) acts := rfl

theorem replay_append (policy : Policy) (ledger : Ledger) (acts more : List (Act τ)) :
    replay policy ledger (acts ++ more) = replay policy (replay policy ledger acts) more := by
  simp [replay, List.foldl_append]

section Watch

variable {policy : Policy} {outage : Outage} {now expiry : Time.Instant} {ledger : Ledger}
  {reference : String} {ttl : Int}

-- A registration that the ledger takes and whose expiry is a time.
theorem watch_eq (httl : policy.ttl? = some ttl) (hexpiry : now.add? ttl = some expiry)
    (hopen : outage.register = none) :
    watch policy outage now ledger reference =
      .ok (ledger.register ⟨Mrn.canonical reference, [], false, now, expiry, none⟩) := by
  simp [watch, httl, Item.fresh?, hexpiry, hopen]

-- Whatever a registration returns comes from the ledger.
theorem eq_register_of_watch_eq_ok {result : Registration × Ledger}
    (h : watch policy outage now ledger reference = .ok result) :
    ∃ expiry, result =
      ledger.register ⟨Mrn.canonical reference, [], false, now, expiry, none⟩ := by
  unfold watch at h
  cases hitem : policy.ttl?.bind (Item.fresh? (Mrn.canonical reference) now) with
  | none => simp [hitem] at h
  | some item =>
      cases hregister : outage.register with
      | some failure => simp [hitem, hregister] at h
      | none =>
          obtain ⟨span, -, hfresh⟩ := Option.bind_eq_some_iff.mp hitem
          obtain ⟨expiry, -, rfl⟩ := Option.map_eq_some_iff.mp hfresh
          refine ⟨expiry, ?_⟩
          simpa [hitem, hregister] using h.symm

end Watch

namespace Act

variable {policy : Policy} {ledger : Ledger} {act : Act τ} {id : String} {item : Item}

section Watch

variable {outage : Outage} {now : Time.Instant} {reference : String}

theorem find?_watch_of_some (hfind : ledger.find? id = some item) :
    ((Act.watch outage now reference : Act τ).perform policy ledger).find? id = some item := by
  cases hwatch : DeclarationWatch.watch policy outage now ledger reference with
  | error failure => rw [perform_watch_of_error hwatch, hfind]
  | ok result =>
      obtain ⟨registration, after⟩ := result
      obtain ⟨expiry, heq⟩ := eq_register_of_watch_eq_ok hwatch
      have hafter : after = (ledger.register _).2 := congrArg Prod.snd heq
      rw [perform_watch_of_ok hwatch, hafter, Ledger.find?_register, hfind]
      rfl

theorem registers_watch_iff :
    (Act.watch outage now reference : Act τ).Registers policy ledger id ↔
      Mrn.canonical reference = id ∧ ∃ after,
        DeclarationWatch.watch policy outage now ledger reference = .ok (.created, after) := by
  constructor
  · rintro ⟨outage', now', reference', after, hact, hid, hwatch⟩
    cases hact
    exact ⟨hid, after, hwatch⟩
  · rintro ⟨hid, after, hwatch⟩
    exact ⟨outage, now, reference, after, rfl, hid, hwatch⟩

theorem find?_watch_of_none (hfind : ledger.find? id = none) :
    ((Act.watch outage now reference : Act τ).perform policy ledger).find? id ≠ none ↔
      (Act.watch outage now reference : Act τ).Registers policy ledger id := by
  rw [registers_watch_iff]
  cases hwatch : DeclarationWatch.watch policy outage now ledger reference with
  | error failure => simp [perform_watch_of_error hwatch, hfind]
  | ok result =>
      obtain ⟨registration, after⟩ := result
      obtain ⟨expiry, heq⟩ := eq_register_of_watch_eq_ok hwatch
      have hregistration : registration = (ledger.register _).1 := congrArg Prod.fst heq
      have hafter : after = (ledger.register _).2 := congrArg Prod.snd heq
      rw [perform_watch_of_ok hwatch, hafter, Ledger.find?_register, hfind, Option.none_or]
      by_cases hid : id = Mrn.canonical reference
      · have hcreated : registration = .created := by
          rw [hregistration, Ledger.register_eq_created_iff]
          exact hid ▸ hfind
        simp [hid, hcreated]
      · simp [hid, Ne.symm hid]

end Watch

section Cycle

variable {round : Cycle.Round τ}

theorem find?_cycle_of_some (hfind : ledger.find? id = some item) :
    ((Act.cycle round).perform policy ledger).find? id = some item ∨
      item.complete = false ∧ ∃ answer, round.Writes policy ledger answer ∧
        id ∈ Cycle.dueIds policy ledger ∧
        ((Act.cycle round).perform policy ledger).find? id =
          some (item.apply (Cycle.revision policy round.now answer item)) := by
  rcases round.writes_or_not policy ledger with ⟨answer, hwrites⟩ | hno
  · rw [perform_cycle, hwrites.ledger_eq]
    by_cases hdue : id ∈ Cycle.dueIds policy ledger
    · have hmem := Cycle.mem_findIncomplete_of_mem_dueIds hdue hfind
      have hid : item.id = id := ((Ledger.find?_eq_some_iff ledger id item).mp hfind).2
      refine Or.inr ⟨(Ledger.mem_of_mem_findIncomplete hmem).2, answer, hwrites, hdue, ?_⟩
      rw [← hid]
      exact Cycle.Round.find?_rewritten_of_mem answer hmem
    · exact Or.inl (by rw [Cycle.Round.find?_rewritten_of_notMem answer hdue, hfind])
  · exact Or.inl (by rw [perform_cycle, Cycle.Round.ledger_of_not_writes hno, hfind])

theorem find?_cycle_of_none (hfind : ledger.find? id = none) :
    ((Act.cycle round).perform policy ledger).find? id = none := by
  rw [perform_cycle, Ledger.find?_eq_none_iff, Cycle.Round.map_id_outcome,
    ← Ledger.find?_eq_none_iff, hfind]

end Cycle

theorem find?_clear_of_none {outage : Outage} (hfind : ledger.find? id = none) :
    ((Act.clear outage : Act τ).perform policy ledger).find? id = none := by
  cases hdeletes : outage.deleteAll with
  | some failure => rw [perform_clear_of_some hdeletes, hfind]
  | none =>
      rw [perform_clear_of_none hdeletes]
      rfl

-- What a call may do to an item that is there, unless it removes all: revise it in a cycle, as
-- long as it is incomplete.
theorem find?_perform_of_some (hstays : ¬act.Clears) (hfind : ledger.find? id = some item) :
    (act.perform policy ledger).find? id = some item ∨
      item.complete = false ∧ ∃ round answer, act = .cycle round ∧
        round.Writes policy ledger answer ∧ id ∈ Cycle.dueIds policy ledger ∧
        (act.perform policy ledger).find? id =
          some (item.apply (Cycle.revision policy round.now answer item)) := by
  cases act with
  | watch outage now reference => exact Or.inl (find?_watch_of_some hfind)
  | cycle round =>
      rcases find?_cycle_of_some hfind with hsame | ⟨hopen, answer, hwrites, hdue, hrevised⟩
      · exact Or.inl hsame
      · exact Or.inr ⟨hopen, round, answer, rfl, hwrites, hdue, hrevised⟩
  | clear outage =>
      cases hdeletes : outage.deleteAll with
      | some failure => exact Or.inl (by rw [perform_clear_of_some hdeletes, hfind])
      | none => exact absurd ⟨outage, rfl, hdeletes⟩ hstays

-- Items come from registrations only.
theorem find?_perform_of_none (hfind : ledger.find? id = none) :
    (act.perform policy ledger).find? id ≠ none ↔ act.Registers policy ledger id := by
  cases act with
  | watch outage now reference => exact find?_watch_of_none hfind
  | cycle round => simp [Registers, find?_cycle_of_none hfind]
  | clear outage => simp [Registers, find?_clear_of_none hfind]

-- A new item has not been polled.
theorem find?_perform_of_registers (h : act.Registers policy ledger id) :
    ∃ now expiry, (act.perform policy ledger).find? id =
      some ⟨id, [], false, now, expiry, none⟩ := by
  obtain ⟨outage, now, reference, after, rfl, rfl, hwatch⟩ := h
  obtain ⟨expiry, heq⟩ := eq_register_of_watch_eq_ok hwatch
  have hcreated : .created = (ledger.register _).1 := congrArg Prod.fst heq
  have hafter : after = (ledger.register _).2 := congrArg Prod.snd heq
  have hnone := (Ledger.register_eq_created_iff _ _).mp hcreated.symm
  refine ⟨now, expiry, ?_⟩
  rw [perform_watch_of_ok hwatch, hafter, Ledger.find?_register, hnone]
  simp

theorem find?_perform_of_clears (h : act.Clears) : (act.perform policy ledger).find? id = none := by
  obtain ⟨outage, rfl, hopen⟩ := h
  rw [perform_clear_of_none hopen]
  rfl

-- Where an item comes from that is there after a call.
theorem find?_perform_eq_some (h : (act.perform policy ledger).find? id = some item) :
    (∃ now expiry, act.Registers policy ledger id ∧ item = ⟨id, [], false, now, expiry, none⟩) ∨
      (ledger.find? id = some item ∧ ¬act.Clears) ∨
      ∃ earlier round answer, ledger.find? id = some earlier ∧ act = .cycle round ∧
        round.Writes policy ledger answer ∧ id ∈ Cycle.dueIds policy ledger ∧
        item = earlier.apply (Cycle.revision policy round.now answer earlier) := by
  have hstays : ¬act.Clears := by
    intro hclears
    rw [find?_perform_of_clears hclears] at h
    cases h
  cases hbefore : ledger.find? id with
  | none =>
      have hregisters : act.Registers policy ledger id := by
        rw [← find?_perform_of_none hbefore, h]
        simp
      obtain ⟨now, expiry, hnew⟩ := find?_perform_of_registers hregisters
      exact Or.inl ⟨now, expiry, hregisters, Option.some.inj (h.symm.trans hnew)⟩
  | some earlier =>
      rcases find?_perform_of_some hstays hbefore with
        hkept | ⟨-, round, answer, hact, hwrites, hdue, hrevised⟩
      · have hsame : item = earlier := Option.some.inj (h.symm.trans hkept)
        exact Or.inr (Or.inl ⟨by rw [hsame], hstays⟩)
      · exact Or.inr (Or.inr ⟨earlier, round, answer, rfl, hact, hwrites, hdue,
          Option.some.inj (h.symm.trans hrevised)⟩)

-- An item is there after a call if the call adds it, or it was there and is not removed.
theorem find?_perform_ne_none_iff : (act.perform policy ledger).find? id ≠ none ↔
    act.Registers policy ledger id ∨ ledger.find? id ≠ none ∧ ¬act.Clears := by
  constructor
  · intro h
    obtain ⟨item, hitem⟩ := Option.ne_none_iff_exists'.mp h
    rcases find?_perform_eq_some hitem with
      ⟨now, expiry, hregisters, -⟩ | ⟨hbefore, hstays⟩ | ⟨earlier, round, answer, hbefore, rfl, -⟩
    · exact Or.inl hregisters
    · exact Or.inr ⟨by simp [hbefore], hstays⟩
    · exact Or.inr ⟨by simp [hbefore], by simp [Clears]⟩
  · rintro (hregisters | ⟨hbefore, hstays⟩)
    · obtain ⟨now, expiry, hnew⟩ := find?_perform_of_registers hregisters
      simp [hnew]
    · obtain ⟨item, hitem⟩ := Option.ne_none_iff_exists'.mp hbefore
      rcases find?_perform_of_some hstays hitem with hkept | ⟨-, round, answer, -, -, -, hrevised⟩
      · rw [hkept]
        exact Option.some_ne_none _
      · rw [hrevised]
        exact Option.some_ne_none _

end Act

end DeclarationWatch
