import DeclarationWatch.Proofs.Cycle.Progress
import DeclarationWatch.Proofs.Lifecycle

namespace DeclarationWatch

variable {policy : Policy} {ledger : Ledger} {id : String} {item : Item}

-- These calls have registered an item under this id, and it has not been removed since. The item
-- is given as its registration left it.
def RegisteredSince (policy : Policy) (ledger : Ledger) (acts : List (Act Unit)) (id : String)
    (item : Item) : Prop :=
  ∃ before act after, acts = before ++ act :: after ∧
    act.Registers policy (replay policy ledger before) id ∧
    (replay policy ledger (before ++ [act])).find? id = some item ∧ ∀ later ∈ after, ¬later.Clears

section Calls

variable {acts : List (Act Unit)}

theorem Act.find?_of_registers {act : Act Unit} (h : act.Registers policy ledger id) :
    ledger.find? id = none := by
  obtain ⟨outage, now, reference, after, rfl, rfl, hwatch⟩ := h
  obtain ⟨expiry, heq⟩ := eq_register_of_watch_eq_ok hwatch
  have hcreated : .created = (ledger.register _).1 := congrArg Prod.fst heq
  have hnone := (Ledger.register_eq_created_iff _ _).mp hcreated.symm
  exact hnone

theorem registeredSince_append_singleton {act : Act Unit} :
    RegisteredSince policy ledger (acts ++ [act]) id item ↔
      (act.Registers policy (replay policy ledger acts) id ∧
          (replay policy ledger (acts ++ [act])).find? id = some item) ∨
        (RegisteredSince policy ledger acts id item ∧ ¬act.Clears) := by
  have h := @exists_split_append_singleton _ (fun before creator =>
    creator.Registers policy (replay policy ledger before) id ∧
      (replay policy ledger (before ++ [creator])).find? id = some item) acts act
    fun later => ¬later.Clears
  simpa only [RegisteredSince, and_assoc] using h

-- Where items come from that are there after some calls without cycles: the last registration
-- under their id, or the ledger before, if nothing has removed them.
theorem find?_replay_eq_some_iff (hcycles : ∀ round, .cycle round ∉ acts) :
    (replay policy ledger acts).find? id = some item ↔
      RegisteredSince policy ledger acts id item ∨
        (ledger.find? id = some item ∧ ∀ act ∈ acts, ¬act.Clears) := by
  induction acts using List.reverseRecOn generalizing item with
  | nil => simp [RegisteredSince]
  | append_singleton acts act ih =>
      have hbefore (item : Item) := @ih item fun round h =>
        hcycles round (List.mem_append_left _ h)
      have hact : ∀ round, act ≠ .cycle round := fun round h => hcycles round (by simp [h])
      rw [registeredSince_append_singleton, replay_append, replay_cons, replay_nil]
      simp only [List.mem_append, List.mem_singleton, or_imp, forall_and, forall_eq]
      constructor
      · intro h
        rcases Act.find?_perform_eq_some h with
          ⟨now, expiry, hregisters, -⟩ | ⟨hkept, hstays⟩ | ⟨earlier, round, answer, -, hcycle, -⟩
        · exact Or.inl (Or.inl ⟨hregisters, h⟩)
        · rcases (hbefore item).mp hkept with hregistered | ⟨hold, hnone⟩
          · exact Or.inl (Or.inr ⟨hregistered, hstays⟩)
          · exact Or.inr ⟨hold, hnone, hstays⟩
        · exact absurd hcycle (hact round)
      · have hkeep (hstays : ¬act.Clears) (hfind : (replay policy ledger acts).find? id = some item) :
            (act.perform policy (replay policy ledger acts)).find? id = some item := by
          rcases Act.find?_perform_of_some hstays hfind with hsame | ⟨-, round, -, hcycle, -⟩
          · exact hsame
          · exact absurd hcycle (hact round)
        rintro ((⟨-, hitem⟩ | ⟨hregistered, hstays⟩) | ⟨hold, hnone, hstays⟩)
        · exact hitem
        · exact hkeep hstays ((hbefore item).mpr (Or.inl hregistered))
        · exact hkeep hstays ((hbefore item).mpr (Or.inr ⟨hold, hnone⟩))

-- An id that was there is registered anew only after it has been removed.
theorem RegisteredSince.exists_clears {read : Item} (h : RegisteredSince policy ledger acts id item)
    (hread : ledger.find? id = some read) : ∃ act ∈ acts, act.Clears := by
  obtain ⟨before, act, after, rfl, hregisters, -, -⟩ := h
  by_contra hnone
  have hstays : ∀ act ∈ before, ¬act.Clears := fun act hmem hclears =>
    hnone ⟨act, List.mem_append_left _ hmem, hclears⟩
  obtain ⟨kept, hkept, -⟩ := find?_replay_keeps hstays hread
  rw [Act.find?_of_registers hregisters] at hkept
  cases hkept

end Calls

namespace Cycle

-- What may happen while a cycle is under way: a step of its own, or a call of somebody else.
inductive Turn where
  | cycle (event : Event)
  | watch (outage : Outage) (now : Time.Instant) (reference : String)
  | clear (outage : Outage)

-- The call of somebody else.
def Turn.act? : Turn → Option (Act Unit)
  | .cycle _ => none
  | .watch outage now reference => some (.watch outage now reference)
  | .clear outage => some (.clear outage)

def calls (turns : List Turn) : List (Act Unit) := turns.filterMap Turn.act?

theorem cycle_notMem_calls (turns : List Turn) (round : Round Unit) :
    .cycle round ∉ calls turns := by
  intro h
  obtain ⟨turn, -, hact⟩ := List.mem_filterMap.mp h
  cases turn <;> cases hact

namespace Progress

variable (policy : Policy) (config : Publish.Config) (now : Time.Instant)

-- One turn. Calls of others work on the ledger at once and leave the cycle where it stands.
def turn (progress : Progress) (turn : Turn) : Progress :=
  match turn with
  | .cycle event => progress.step policy config now event
  | other => { progress with ledger := replay policy progress.ledger other.act?.toList }

def through (progress : Progress) (turns : List Turn) : Progress :=
  turns.foldl (Progress.turn policy config now) progress

end Progress

section Through

variable {config : Publish.Config} {now : Time.Instant} {progress : Progress}

theorem through_append_singleton (turns : List Turn) (turn : Turn) :
    progress.through policy config now (turns ++ [turn]) =
      (progress.through policy config now turns).turn policy config now turn := by
  simp [Progress.through]

theorem calls_append_cycle (turns : List Turn) (event : Event) :
    calls (turns ++ [.cycle event]) = calls turns := by
  simp [calls, Turn.act?]

theorem replay_calls_append_singleton (turns : List Turn) (turn : Turn) :
    replay policy ledger (calls (turns ++ [turn])) =
      replay policy (replay policy ledger (calls turns)) turn.act?.toList := by
  rw [calls, List.filterMap_append, replay_append]
  cases hact : turn.act? <;> simp [hact, calls]

-- Since its find, with others between, the cycle has waited for its answer or is about to write.
structure Waits (policy : Policy) (now : Time.Instant) (found : Ledger) (between : List Turn)
    (progress : Progress) : Prop where
  due : found.findIncomplete policy.maxPollSize ≠ []
  ledger : progress.ledger = replay policy found (calls between)
  stage : progress.stage = .asking (found.findIncomplete policy.maxPollSize) ∨
    ∃ answer, .cycle (.searched (.answered (.ok answer))) ∈ between ∧
      progress.stage = .writing (assess policy now (found.findIncomplete policy.maxPollSize) answer)

theorem Waits.of_stage {found : Ledger} {between : List Turn} {after : Progress} {next : Turn}
    (h : Waits policy now found between progress) (hstage : after.stage = progress.stage)
    (hledger : after.ledger = replay policy progress.ledger next.act?.toList) :
    Waits policy now found (between ++ [next]) after where
  due := h.due
  ledger := by rw [hledger, h.ledger, replay_calls_append_singleton]
  stage := by
    rw [hstage]
    rcases h.stage with hasking | ⟨answer, hmem, hwriting⟩
    · exact Or.inl hasking
    · exact Or.inr ⟨answer, List.mem_append_left _ hmem, hwriting⟩

theorem Waits.turn {found : Ledger} {between : List Turn} (config : Publish.Config)
    (h : Waits policy now found between progress) (next : Turn) :
    Waits policy now found (between ++ [next]) (progress.turn policy config now next) ∨
      (progress.turn policy config now next).isLate = true := by
  cases next with
  | watch outage time reference => exact Or.inl (h.of_stage rfl rfl)
  | clear outage => exact Or.inl (h.of_stage rfl rfl)
  | cycle event =>
      rcases h.stage with hasking | ⟨answer, -, hwriting⟩
      · cases event with
        | searched search =>
            simp only [Progress.turn, Progress.step, hasking]
            cases search with
            | calledOff => exact Or.inr rfl
            | abandoned => exact Or.inr rfl
            | answered result =>
                cases result with
                | error failure => exact Or.inr rfl
                | ok answer =>
                    refine Or.inl ⟨h.due, ?_, Or.inr ⟨answer, by simp, rfl⟩⟩
                    rw [calls_append_cycle]
                    exact h.ledger
        | _ =>
            refine Or.inl (h.of_stage ?_ ?_) <;>
              simp [Progress.turn, Progress.step, hasking, Turn.act?]
      · cases event with
        | written failure calledOff =>
            refine Or.inr ?_
            simp only [Progress.turn, Progress.step, hwriting]
            cases failure with
            | some failure => rfl
            | none =>
                simp only
                split <;> rfl
        | _ =>
            refine Or.inl (h.of_stage ?_ ?_) <;>
              simp [Progress.turn, Progress.step, hwriting, Turn.act?]

theorem isLate_turn (h : progress.isLate = true) (next : Turn) :
    (progress.turn policy config now next).isLate = true := by
  cases next with
  | cycle event => exact (Progress.step_of_isLate h event).2
  | _ => exact h

variable (policy config now ledger) in
-- A cycle is about to find its items, or it has found them, or its write is over.
theorem through_start_cases (turns : List Turn) :
    let progress := (Progress.start ledger).through policy config now turns
    progress.stage = .finding ∨ progress.isLate = true ∨
      ∃ before between, turns = before ++ .cycle (.found none) :: between ∧
        let earlier := (Progress.start ledger).through policy config now before
        earlier.stage = .finding ∧ Waits policy now earlier.ledger between progress := by
  induction turns using List.reverseRecOn with
  | nil => exact Or.inl rfl
  | append_singleton turns next ih =>
      rw [through_append_singleton]
      rcases ih with hfinding | hlate | ⟨before, between, rfl, hfinding, hwaits⟩
      · cases next with
        | cycle event =>
            cases event with
            | found failure =>
                simp only [Progress.turn, Progress.step, hfinding]
                cases failure with
                | some failure => exact Or.inr (Or.inl rfl)
                | none =>
                    simp only
                    split
                    · exact Or.inr (Or.inl rfl)
                    · refine Or.inr (Or.inr ⟨turns, [], rfl, hfinding, ?_, rfl, Or.inl rfl⟩)
                      assumption
            | _ => exact Or.inl (by simp [Progress.turn, Progress.step, hfinding])
        | _ => exact Or.inl hfinding
      · exact Or.inr (Or.inl (isLate_turn hlate next))
      · rcases hwaits.turn config next with hnext | hlate
        · exact Or.inr (Or.inr ⟨before, between ++ [next], by simp, hfinding, hnext⟩)
        · exact Or.inr (Or.inl hlate)

end Through

section Written

variable {acts : List (Act Unit)} {now : Time.Instant} {answer : SearchAnswer}

-- The ledger after the write of what was read, with calls of others in between.
def writtenAfter (policy : Policy) (now : Time.Instant) (found : Ledger) (acts : List (Act Unit))
    (answer : SearchAnswer) : Ledger :=
  ((replay policy found acts).bulkUpdate
    ((found.findIncomplete policy.maxPollSize).map (revision policy now answer))).2

theorem find?_writtenAfter_of_notMem (h : id ∉ dueIds policy ledger) :
    (writtenAfter policy now ledger acts answer).find? id =
      (replay policy ledger acts).find? id :=
  find?_bulkUpdate_revision_of_notMem answer h

theorem find?_writtenAfter_of_mem {read : Item}
    (hread : read ∈ ledger.findIncomplete policy.maxPollSize)
    (hpresent : (replay policy ledger acts).find? read.id = some item) :
    (writtenAfter policy now ledger acts answer).find? read.id =
      some (item.apply (revision policy now answer read)) := by
  rw [writtenAfter, find?_bulkUpdate_revision_of_mem answer
    (Ledger.nodup_findIncomplete ledger policy.maxPollSize) hread, hpresent]
  rfl

-- An item that has not been registered anew is as it was read.
theorem find?_of_not_registeredSince (hcycles : ∀ round, .cycle round ∉ acts)
    (hold : ¬RegisteredSince policy ledger acts id item)
    (hpresent : (replay policy ledger acts).find? id = some item) : ledger.find? id = some item :=
  (((find?_replay_eq_some_iff hcycles).mp hpresent).resolve_left hold).1

-- Only items under ids that were read can become complete, and only if those were done.
theorem exists_done_of_complete {after : Item} (hcycles : ∀ round, .cycle round ∉ acts)
    (hpresent : (replay policy ledger acts).find? id = some item) (hopen : item.complete = false)
    (hafter : (writtenAfter policy now ledger acts answer).find? id = some after)
    (hcomplete : after.complete = true) :
    ∃ read ∈ ledger.findIncomplete policy.maxPollSize, read.id = id ∧
      IsDone policy now answer read ∧ (¬RegisteredSince policy ledger acts id item → read = item) := by
  by_cases hdue : id ∈ dueIds policy ledger
  · obtain ⟨read, hread, rfl⟩ := List.mem_map.mp hdue
    rw [find?_writtenAfter_of_mem hread hpresent] at hafter
    refine ⟨read, hread, rfl, ?_, fun hold => ?_⟩
    · rw [← complete_revision]
      cases hafter
      simpa [Item.apply, hopen] using hcomplete
    · have hitem := find?_of_not_registeredSince hcycles hold hpresent
      exact Option.some.inj ((Ledger.find?_of_mem_findIncomplete hread).symm.trans hitem)
  · rw [find?_writtenAfter_of_notMem hdue, hpresent] at hafter
    cases hafter
    rw [hopen] at hcomplete
    cases hcomplete

end Written

-- The write of a cycle goes by the ids that the cycle has read. An item that was registered since
-- stays as it is, unless the cycle has read an item under its id, which must then have been removed
-- meanwhile. The new item gets what the cycle found out about the old one. All other items of
-- the batch are still as they were read.
theorem write_reaches_ids_read (policy : Policy) (config : Publish.Config) (now : Time.Instant)
    (ledger : Ledger) (turns : List Turn) (calledOff : Bool) (assessment : Assessment)
    (hwriting : ((Progress.start ledger).through policy config now turns).stage =
      .writing assessment) :
    let present := ((Progress.start ledger).through policy config now turns).ledger
    let written := ((Progress.start ledger).through policy config now
      (turns ++ [.cycle (.written none calledOff)])).ledger
    ∃ before between answer, turns = before ++ .cycle (.found none) :: between ∧
      .cycle (.searched (.answered (.ok answer))) ∈ between ∧
      let earlier := (Progress.start ledger).through policy config now before
      let batch := earlier.ledger.findIncomplete policy.maxPollSize
      let fresh := RegisteredSince policy earlier.ledger (calls between)
      earlier.stage = .finding ∧
      (∀ id item, fresh id item → present.find? id = some item ∧
        (id ∉ batch.map (·.id) → written.find? id = some item) ∧
        ∀ read ∈ batch, read.id = id → (∃ act ∈ calls between, act.Clears) ∧
          written.find? id = some (item.apply (revision policy now answer read))) ∧
      (∀ id item, ¬fresh id item → present.find? id = some item →
        earlier.ledger.find? id = some item ∧
        (item ∉ batch → written.find? id = some item) ∧
        (item ∈ batch → written.find? id = some (item.apply (revision policy now answer item)))) ∧
      ∀ id item after, present.find? id = some item → item.complete = false →
        written.find? id = some after → after.complete = true →
        ∃ read ∈ batch, read.id = id ∧ IsDone policy now answer read ∧
          (¬fresh id item → read = item) := by
  intro present written
  rcases through_start_cases policy ledger config now turns with
    hfinding | hlate | ⟨before, between, hturns, hfinding, hwaits⟩
  · rw [hwriting] at hfinding
    cases hfinding
  · rw [Progress.isLate, hwriting] at hlate
    cases hlate
  · rcases hwaits.stage with hasking | ⟨answer, hanswer, hstage⟩
    · rw [hwriting] at hasking
      cases hasking
    · let earlier := (Progress.start ledger).through policy config now before
      have hpresent : present = replay policy earlier.ledger (calls between) := hwaits.ledger
      have hwritten : written = writtenAfter policy now earlier.ledger (calls between) answer := by
        simp only [written, through_append_singleton, Progress.turn, Progress.step, hstage,
          hwaits.ledger]
        rfl
      rw [hpresent, hwritten]
      refine ⟨before, between, answer, hturns, hanswer, hfinding, ?fresh, ?old, ?complete⟩
      case fresh =>
        intro id item hfresh
        have hitem := (find?_replay_eq_some_iff (cycle_notMem_calls between)).mpr (Or.inl hfresh)
        refine ⟨hitem, fun hid => (find?_writtenAfter_of_notMem hid).trans hitem, ?_⟩
        rintro read hread rfl
        exact ⟨hfresh.exists_clears (Ledger.find?_of_mem_findIncomplete hread),
          find?_writtenAfter_of_mem hread hitem⟩
      case old =>
        intro id item hold hitem
        have hfound := find?_of_not_registeredSince (cycle_notMem_calls between) hold hitem
        obtain ⟨-, rfl⟩ := (Ledger.find?_eq_some_iff _ _ _).mp hfound
        refine ⟨hfound, fun hout => ?_, fun hread => find?_writtenAfter_of_mem hread hitem⟩
        refine (find?_writtenAfter_of_notMem fun hdue => hout ?_).trans hitem
        exact mem_findIncomplete_of_mem_dueIds hdue hfound
      case complete =>
        intro id item after hitem hopen hafter hcomplete
        exact exists_done_of_complete (cycle_notMem_calls between) hitem hopen hafter hcomplete

-- An item that has expired is read. It is removed and registered again before the answer comes.
def expiredItem : Item := ⟨"MRN-C", [], false, ⟨0, 0⟩, ⟨5000, 0⟩, none⟩

def expiredLedger : Ledger := ⟨[expiredItem], [], by decide⟩

def renewedItem : Item := ⟨"MRN-C", [], false, ⟨6001, 0⟩, ⟨2598001, 0⟩, none⟩

def renewal : List Turn :=
  [.clear {}, .watch {} ⟨6001, 0⟩ "MRN-C", .cycle (.searched (.answered (.ok ⟨[], []⟩)))]

def renewalRun : Progress :=
  (Progress.start expiredLedger).through {} {} ⟨6000, 0⟩ (.cycle (.found none) :: renewal)

theorem findIncomplete_expiredLedger :
    expiredLedger.findIncomplete ({} : Policy).maxPollSize = [expiredItem] :=
  Ledger.findIncomplete_eq_singleton rfl (by decide)

theorem registeredSince_renewal :
    RegisteredSince {} expiredLedger (calls renewal) "MRN-C" renewedItem := by
  refine ⟨[.clear {}], .watch {} ⟨6001, 0⟩ "MRN-C", [], rfl, ?_, rfl, by simp⟩
  exact ⟨{}, ⟨6001, 0⟩, "MRN-C", _, rfl, rfl, rfl⟩

theorem renewalRun_eq : renewalRun =
    ⟨(expiredLedger.deleteAll.2.register renewedItem).2,
      .writing (assess {} ⟨6000, 0⟩ [expiredItem] ⟨[], []⟩), [.asked ["MRN-C"]]⟩ := by
  have hfound : (Progress.start expiredLedger).turn {} {} ⟨6000, 0⟩ (.cycle (.found none)) =
      ⟨expiredLedger, .asking [expiredItem], []⟩ := by
    have hdue : expiredLedger.findIncomplete ({} : Policy).maxPollSize ≠ [] := by
      rw [findIncomplete_expiredLedger]
      exact List.cons_ne_nil _ _
    rw [← findIncomplete_expiredLedger]
    exact step_found_none {} ⟨6000, 0⟩ hdue
  simp only [renewalRun, Progress.through, List.foldl_cons, hfound]
  rfl

theorem write_reaches_ids_read_renewed :
    renewalRun.stage = .writing (assess {} ⟨6000, 0⟩ [expiredItem] ⟨[], []⟩) ∧
      renewalRun.ledger.find? "MRN-C" = some renewedItem ∧
      ∃ after, (renewalRun.turn {} {} ⟨6000, 0⟩ (.cycle (.written none false))).ledger.find?
        "MRN-C" = some after ∧ after.complete = true ∧ after.created = renewedItem.created ∧
          after.expiry = renewedItem.expiry := by
  have hstage : renewalRun.stage = .writing (assess {} ⟨6000, 0⟩ [expiredItem] ⟨[], []⟩) := by
    rw [renewalRun_eq]
  obtain ⟨before, between, answer, hturns, hanswer, -, hfresh, -⟩ :=
    write_reaches_ids_read {} {} ⟨6000, 0⟩ expiredLedger (.cycle (.found none) :: renewal) false _
      hstage
  have hsplit : before = [] ∧ between = renewal := by
    cases before with
    | nil => exact ⟨rfl, (List.cons.inj hturns).2.symm⟩
    | cons first before =>
        have hmem : Turn.cycle (.found none) ∈ renewal := by
          rw [(List.cons.inj hturns).2]
          simp
        simp [renewal] at hmem
  obtain ⟨rfl, rfl⟩ := hsplit
  have hempty : answer = ⟨[], []⟩ := by simpa [renewal] using hanswer
  obtain ⟨hpresent, -, hwritten⟩ := hfresh "MRN-C" renewedItem registeredSince_renewal
  have hread : expiredItem ∈ expiredLedger.findIncomplete ({} : Policy).maxPollSize := by
    rw [findIncomplete_expiredLedger]
    exact List.mem_singleton_self _
  refine ⟨hstage, hpresent, _, (hwritten expiredItem hread rfl).2, ?_, rfl, rfl⟩
  rw [hempty]
  rfl

-- It does not follow that the write leaves alone whatever was registered after its find.
theorem not_forall_registered_untouched :
    ¬∀ (policy : Policy) (config : Publish.Config) (now : Time.Instant) (ledger : Ledger)
      (before between : List Turn) (calledOff : Bool) (assessment : Assessment) (id : String)
      (item : Item),
      let earlier := (Progress.start ledger).through policy config now before
      let turns := before ++ .cycle (.found none) :: between
      earlier.stage = .finding →
      ((Progress.start ledger).through policy config now turns).stage = .writing assessment →
      RegisteredSince policy earlier.ledger (calls between) id item →
      ((Progress.start ledger).through policy config now
        (turns ++ [.cycle (.written none calledOff)])).ledger.find? id = some item := by
  intro h
  have hstage : renewalRun.stage = .writing (assess {} ⟨6000, 0⟩ [expiredItem] ⟨[], []⟩) := by
    rw [renewalRun_eq]
  have hsame := h {} {} ⟨6000, 0⟩ expiredLedger [] renewal false _ "MRN-C" renewedItem rfl hstage
    registeredSince_renewal
  have hwritten : (renewalRun.turn {} {} ⟨6000, 0⟩ (.cycle (.written none false))).ledger.find?
      "MRN-C" = some { renewedItem with lastPolled := some ⟨6000, 0⟩, complete := true } := by
    rw [renewalRun_eq]
    rfl
  cases hsame.symm.trans hwritten

end Cycle

end DeclarationWatch
