import DeclarationWatch.Proofs.Ledger.Store
import DeclarationWatch.Proofs.Keyed
import DeclarationWatch.Schedule.Job

namespace DeclarationWatch.Schedule

-- One of the loops that share a store: which job it runs, and when.
structure Replica where
  job : String
  timetable : Timetable

-- What can be seen of the replicas from outside.
inductive Happening where
  -- The replica asked for the token of an occurrence and was given this answer.
  | claimed (replica : Nat) (job : String) (occurrence : Time.Instant) (claim : Claim)
  | started (replica : Nat) (job : String) (occurrence : Time.Instant)
  | ended (replica : Nat)
  deriving Repr, DecidableEq

def Happening.replica : Happening → Nat
  | .claimed replica _ _ _ => replica
  | .started replica _ _ => replica
  | .ended replica => replica

-- The loops of all replicas over their store, and what has happened so far.
structure Fleet where
  ledger : Ledger
  loops : Nat → Loop
  -- What the store answered to a loop that has not gone on since.
  answers : Nat → Option Claim
  log : List Happening

-- Replicas are numbered, and each reads a clock of its own.
inductive FleetEvent where
  | look (replica : Nat) (now : Time.Instant)
  | slept (replica : Nat)
  -- The store serves the claim of a replica. The loop sees the answer when it goes on.
  | claim (replica : Nat) (now : Time.Instant)
  | resume (replica : Nat)
  | finished (replica : Nat) (failure : Option Failure)
  | crashed (replica : Nat)
  | stop (replica : Nat)
  -- The loop is broken off, wherever it stands.
  | abort (replica : Nat)
  | deleteAll

def Phase.isRunning : Phase → Bool
  | .running _ => true
  | _ => false

namespace Fleet

def start (ledger : Ledger) : Fleet := ⟨ledger, fun _ => .start, fun _ => none, []⟩

-- The work that starts or ends when a loop goes from one phase to another.
def noted (replica : Nat) (job : String) : Phase → Phase → List Happening
  | .running before, .running after =>
      if before = after then [] else [.started replica job after]
  | _, .running occurrence => [.started replica job occurrence]
  | .running _, _ => [.ended replica]
  | _, _ => []

variable (replicas : Nat → Replica)

-- An answer is of use only as long as the loop waits for it.
def enter (fleet : Fleet) (replica : Nat) (loop : Loop) : Fleet :=
  let phase := (fleet.loops replica).phase
  { fleet with
    loops := Function.update fleet.loops replica loop
    answers := Function.update fleet.answers replica
      (if loop.phase = phase then fleet.answers replica else none)
    log := fleet.log ++ noted replica (replicas replica).job phase loop.phase }

def advance (fleet : Fleet) (replica : Nat) (event : LoopEvent) : Fleet :=
  fleet.enter replicas replica ((fleet.loops replica).step event)

def step (fleet : Fleet) : FleetEvent → Fleet
  | .look replica now =>
      fleet.advance replicas replica (.look ((replicas replica).timetable.next? now))
  | .slept replica => fleet.advance replicas replica .slept
  | .claim replica now =>
      match (fleet.loops replica).phase, fleet.answers replica with
      | .claiming occurrence, none =>
          let job := (replicas replica).job
          let (claim, ledger) := fleet.ledger.acquire job occurrence now
          { fleet with
            ledger := ledger
            answers := Function.update fleet.answers replica (some claim)
            log := fleet.log ++ [.claimed replica job occurrence claim] }
      | _, _ => fleet
  | .resume replica =>
      match fleet.answers replica with
      | some claim => fleet.advance replicas replica (.claimed (some claim))
      | none => fleet
  | .finished replica failure => fleet.advance replicas replica (.finished failure)
  | .crashed replica => fleet.advance replicas replica .crashed
  | .stop replica => fleet.advance replicas replica .stop
  | .abort replica => fleet.enter replicas replica { fleet.loops replica with phase := .ended }
  | .deleteAll => { fleet with ledger := fleet.ledger.deleteAll.2 }

def run (fleet : Fleet) (events : List FleetEvent) : Fleet := events.foldl (step replicas) fleet

end Fleet

-- The occurrences for which work was started, in order.
def startedWork (log : List Happening) : List (String × Time.Instant) :=
  log.filterMap fun
    | .started _ job occurrence => some (job, occurrence)
    | _ => none

def startsBy (replica : Nat) (log : List Happening) : Nat :=
  log.countP fun
    | .started other _ _ => replica == other
    | _ => false

def endsBy (replica : Nat) (log : List Happening) : Nat :=
  log.countP fun
    | .ended other => replica == other
    | _ => false

namespace Loop

-- Only the token of the occurrence brings a loop to its work.
theorem phase_of_step_running {loop : Loop} {event : LoopEvent} {occurrence : Time.Instant}
    (hevent : event ≠ .claimed (some .acquired))
    (h : (loop.step event).phase = .running occurrence) : loop.phase = .running occurrence := by
  obtain ⟨phase, told⟩ := loop
  cases event with
  | claimed claim =>
      cases phase with
      | claiming other =>
          rcases claim with _ | claim
          · cases h
          · cases claim with
            | acquired => exact absurd rfl hevent
            | alreadyClaimed => cases h
      | _ => exact h
  | look next =>
      cases phase with
      | idle => cases told <;> cases next <;> cases h
      | _ => exact h
  | finished failure =>
      cases phase with
      | running other =>
          simp only [step] at h
          split at h <;> cases h
      | _ => exact h
  | slept => cases phase <;> first | exact h | cases h
  | stop => cases phase <;> first | exact h | cases h
  | crashed => cases phase <;> first | exact h | cases h

theorem step_acquired {loop : Loop} {occurrence : Time.Instant}
    (h : loop.phase = .claiming occurrence) :
    (loop.step (.claimed (some .acquired))).phase = .running occurrence := by
  simp only [step, h]

theorem step_claimed_of_not_claiming {loop : Loop} {claim : Option Claim}
    (h : ∀ occurrence, loop.phase ≠ .claiming occurrence) : loop.step (.claimed claim) = loop := by
  obtain ⟨phase, told⟩ := loop
  cases phase with
  | claiming occurrence => exact absurd rfl (h occurrence)
  | _ => rfl

end Loop

namespace Fleet

variable {replicas : Nat → Replica} {fleet : Fleet} {i replica : Nat} {job : String}
  {occurrence : Time.Instant}

def isBusy (fleet : Fleet) (replica : Nat) : Bool := (fleet.loops replica).phase.isRunning

-- The replica has the token of the occurrence in hand and has not started its work yet.
def Holds (fleet : Fleet) (replica : Nat) (occurrence : Time.Instant) : Prop :=
  (fleet.loops replica).phase = .claiming occurrence ∧ fleet.answers replica = some .acquired

theorem Holds.not_busy (h : fleet.Holds i occurrence) : fleet.isBusy i = false := by
  rw [isBusy, h.1]
  rfl

-- A phase that is no new work: nothing is noted, or the end of the work before.
theorem noted_of_no_start (replica : Nat) (job : String) {before after : Phase}
    (h : ∀ occurrence, after = .running occurrence → before = .running occurrence) :
    noted replica job before after = [] ∧ after.isRunning = before.isRunning ∨
      noted replica job before after = [.ended replica] ∧ before.isRunning = true ∧
        after.isRunning = false := by
  cases after with
  | running occurrence =>
      rw [h occurrence rfl]
      exact Or.inl ⟨if_pos rfl, rfl⟩
  | _ =>
      cases before with
      | running occurrence => exact Or.inr ⟨rfl, rfl, rfl⟩
      | _ => exact Or.inl ⟨rfl, rfl⟩

-- All that an event can do to a fleet, as far as claims and work are concerned. A token in hand can
-- always be lost, since a loop may be broken off.
inductive Effect (replicas : Nat → Replica) (fleet after : Fleet) : Prop where
  | quiet
      (taken : ∀ job time, after.ledger.Taken job time ↔ fleet.ledger.Taken job time)
      (log : after.log = fleet.log)
      (busy : ∀ i, after.isBusy i = fleet.isBusy i)
      (holds : ∀ i time, after.Holds i time → fleet.Holds i time)
  | ended (replica : Nat)
      (taken : ∀ job time, after.ledger.Taken job time ↔ fleet.ledger.Taken job time)
      (log : after.log = fleet.log ++ [.ended replica])
      (working : fleet.isBusy replica = true)
      (busy : ∀ i, after.isBusy i = if i = replica then false else fleet.isBusy i)
      (holds : ∀ i time, after.Holds i time → fleet.Holds i time)
  | refused (replica : Nat) (occurrence : Time.Instant)
      (barred : fleet.ledger.Taken (replicas replica).job occurrence)
      (taken : ∀ job time, after.ledger.Taken job time ↔ fleet.ledger.Taken job time)
      (log : after.log =
        fleet.log ++ [.claimed replica (replicas replica).job occurrence .alreadyClaimed])
      (busy : ∀ i, after.isBusy i = fleet.isBusy i)
      (holds : ∀ i time, after.Holds i time → i ≠ replica ∧ fleet.Holds i time)
  | granted (replica : Nat) (occurrence : Time.Instant)
      (free : ¬fleet.ledger.Taken (replicas replica).job occurrence)
      (taken : ∀ job time, after.ledger.Taken job time ↔
        fleet.ledger.Taken job time ∨ (job = (replicas replica).job ∧ time = occurrence))
      (log : after.log =
        fleet.log ++ [.claimed replica (replicas replica).job occurrence .acquired])
      (busy : ∀ i, after.isBusy i = fleet.isBusy i)
      (holds : ∀ i time, after.Holds i time →
        (i = replica ∧ time = occurrence) ∨ (i ≠ replica ∧ fleet.Holds i time))
  | started (replica : Nat) (occurrence : Time.Instant)
      (held : fleet.Holds replica occurrence)
      (taken : ∀ job time, after.ledger.Taken job time ↔ fleet.ledger.Taken job time)
      (log : after.log = fleet.log ++ [.started replica (replicas replica).job occurrence])
      (busy : ∀ i, after.isBusy i = if i = replica then true else fleet.isBusy i)
      (holds : ∀ i time, after.Holds i time → i ≠ replica ∧ fleet.Holds i time)

section Enter

variable (fleet) (loop : Loop)

theorem isBusy_enter (replica i : Nat) :
    (fleet.enter replicas replica loop).isBusy i =
      if i = replica then loop.phase.isRunning else fleet.isBusy i := by
  simp only [isBusy, enter, Function.update_apply]
  split <;> rfl

-- No loop comes by a token just because one of them goes on.
theorem holds_of_holds_enter (h : (fleet.enter replicas replica loop).Holds i occurrence) :
    fleet.Holds i occurrence := by
  obtain ⟨hphase, hanswer⟩ := h
  simp only [enter, Function.update_apply] at hphase hanswer
  by_cases hi : i = replica
  · subst hi
    rw [if_pos rfl] at hphase hanswer
    split at hanswer
    · rename_i hsame
      exact ⟨hsame ▸ hphase, hanswer⟩
    · cases hanswer
  · rw [if_neg hi] at hphase hanswer
    exact ⟨hphase, hanswer⟩

theorem effect_enter (replica : Nat) {loop : Loop}
    (h : ∀ occurrence, loop.phase = .running occurrence →
      (fleet.loops replica).phase = .running occurrence) :
    fleet.Effect replicas (fleet.enter replicas replica loop) := by
  have hholds : ∀ i time, (fleet.enter replicas replica loop).Holds i time →
      fleet.Holds i time := fun i time => holds_of_holds_enter fleet loop
  rcases noted_of_no_start replica (replicas replica).job h with
    ⟨hnoted, hsame⟩ | ⟨hnoted, hworking, hresting⟩
  · refine .quiet (fun _ _ => Iff.rfl) ?_ (fun i => ?_) hholds
    · rw [enter, hnoted, List.append_nil]
    · rw [isBusy_enter]
      split
      · rename_i hi
        rw [hi, hsame]
        rfl
      · rfl
  · refine .ended replica (fun _ _ => Iff.rfl) ?_ hworking (fun i => ?_) hholds
    · rw [enter, hnoted]
    · rw [isBusy_enter, hresting]

theorem effect_advance (replica : Nat) {event : LoopEvent}
    (hevent : event ≠ .claimed (some .acquired)) :
    fleet.Effect replicas (fleet.advance replicas replica event) :=
  effect_enter fleet replica fun _ => Loop.phase_of_step_running hevent

end Enter

theorem effect_advance_acquired (held : fleet.Holds replica occurrence) :
    fleet.Effect replicas (fleet.advance replicas replica (.claimed (some .acquired))) := by
  have hphase := Loop.step_acquired held.1
  refine .started replica occurrence held (fun _ _ => Iff.rfl) ?_ (fun i => ?_)
    fun i time hi => ⟨?_, holds_of_holds_enter fleet _ hi⟩
  · rw [advance, enter, held.1, hphase]
    rfl
  · rw [advance, isBusy_enter, hphase]
    rfl
  · rintro rfl
    have hbusy := hi.not_busy
    rw [advance, isBusy_enter, if_pos rfl, hphase] at hbusy
    cases hbusy

theorem effect_resume (fleet : Fleet) (replica : Nat) :
    fleet.Effect replicas (fleet.step replicas (.resume replica)) := by
  simp only [step]
  split
  · rename_i claim hanswer
    cases claim with
    | alreadyClaimed => exact effect_advance fleet replica (by simp)
    | acquired =>
        by_cases hclaiming : ∃ occurrence, (fleet.loops replica).phase = .claiming occurrence
        · obtain ⟨occurrence, hphase⟩ := hclaiming
          exact effect_advance_acquired ⟨hphase, hanswer⟩
        · rw [advance, Loop.step_claimed_of_not_claiming (not_exists.mp hclaiming)]
          exact effect_enter fleet replica fun _ h => h
  · exact .quiet (fun _ _ => Iff.rfl) rfl (fun _ => rfl) fun _ _ h => h

theorem effect_claim (fleet : Fleet) (replica : Nat) (now : Time.Instant) :
    fleet.Effect replicas (fleet.step replicas (.claim replica now)) := by
  simp only [step]
  split
  · rename_i occurrence hphase hnone
    by_cases htaken : fleet.ledger.Taken (replicas replica).job occurrence
    · rw [Ledger.acquire_of_taken htaken]
      refine .refused replica occurrence htaken (fun _ _ => Iff.rfl) rfl (fun _ => rfl) ?_
      rintro i time ⟨hi, hanswer⟩
      simp only [Function.update_apply] at hanswer
      split at hanswer
      · cases hanswer
      · exact ⟨‹_›, hi, hanswer⟩
    · refine .granted replica occurrence htaken (fun _ _ => Ledger.taken_acquire_iff) ?_
        (fun _ => rfl) ?_
      · rw [Ledger.acquire_of_not_taken htaken]
      · rintro i time ⟨hi, hanswer⟩
        simp only [Function.update_apply] at hanswer
        split at hanswer
        · rename_i hreplica
          subst hreplica
          exact Or.inl ⟨rfl, Phase.claiming.inj (hi.symm.trans hphase)⟩
        · exact Or.inr ⟨‹_›, hi, hanswer⟩
  · exact .quiet (fun _ _ => Iff.rfl) rfl (fun _ => rfl) fun _ _ h => h

theorem effect_step (fleet : Fleet) (event : FleetEvent) :
    fleet.Effect replicas (fleet.step replicas event) := by
  cases event with
  | look replica now => exact effect_advance fleet replica (by simp)
  | slept replica => exact effect_advance fleet replica (by simp)
  | claim replica now => exact effect_claim fleet replica now
  | resume replica => exact effect_resume fleet replica
  | finished replica failure => exact effect_advance fleet replica (by simp)
  | crashed replica => exact effect_advance fleet replica (by simp)
  | stop replica => exact effect_advance fleet replica (by simp)
  | abort replica => exact effect_enter fleet replica (by simp)
  | deleteAll => exact .quiet (fun _ _ => Iff.rfl) rfl (fun _ => rfl) fun _ _ h => h

end Fleet

section Log

variable (log : List Happening) (i replica : Nat) (job : String) (occurrence : Time.Instant)
  (claim : Claim)

@[simp] theorem startedWork_claimed :
    startedWork (log ++ [.claimed i job occurrence claim]) = startedWork log := by
  simp [startedWork]

@[simp] theorem startedWork_started :
    startedWork (log ++ [.started i job occurrence]) = startedWork log ++ [(job, occurrence)] := by
  simp [startedWork]

@[simp] theorem startedWork_ended : startedWork (log ++ [.ended i]) = startedWork log := by
  simp [startedWork]

@[simp] theorem startsBy_claimed :
    startsBy i (log ++ [.claimed replica job occurrence claim]) = startsBy i log := by
  simp [startsBy]

@[simp] theorem startsBy_started :
    startsBy i (log ++ [.started replica job occurrence]) =
      startsBy i log + if i = replica then 1 else 0 := by
  simp [startsBy, List.countP_cons]

@[simp] theorem startsBy_ended : startsBy i (log ++ [.ended replica]) = startsBy i log := by
  simp [startsBy]

@[simp] theorem endsBy_claimed :
    endsBy i (log ++ [.claimed replica job occurrence claim]) = endsBy i log := by
  simp [endsBy]

@[simp] theorem endsBy_started :
    endsBy i (log ++ [.started replica job occurrence]) = endsBy i log := by
  simp [endsBy]

@[simp] theorem endsBy_ended :
    endsBy i (log ++ [.ended replica]) = endsBy i log + if i = replica then 1 else 0 := by
  simp [endsBy, List.countP_cons]

end Log

-- The last thing that happened to the replica is that it was given the token of the occurrence.
def Acquired (log : List Happening) (replica : Nat) (job : String) (occurrence : Time.Instant) :
    Prop :=
  ∃ earlier later, log = earlier ++ .claimed replica job occurrence .acquired :: later ∧
    ∀ happening ∈ later, happening.replica ≠ replica

-- Work starts only where the token has just been given.
def OwnStarts (log : List Happening) : Prop :=
  ∀ before after replica job occurrence, log = before ++ .started replica job occurrence :: after →
    Acquired before replica job occurrence

-- Once an occurrence was asked for, nobody else is given it.
def FinalClaims (log : List Happening) : Prop :=
  ∀ before after replica job occurrence claim,
    log = before ++ .claimed replica job occurrence claim :: after →
      ∀ other later, .claimed other job occurrence later ∈ after → later = .alreadyClaimed

-- Nobody is refused who is the first to ask for an occurrence that was free from the beginning.
def FairRefusals (initial : Ledger) (log : List Happening) : Prop :=
  ∀ before after replica job occurrence,
    log = before ++ .claimed replica job occurrence .alreadyClaimed :: after →
      initial.Taken job occurrence ∨
        ∃ earlier claim, .claimed earlier job occurrence claim ∈ before

-- No loop starts work while it is still at work.
def SingleWork (log : List Happening) : Prop :=
  ∀ before, before <+: log → ∀ replica,
    endsBy replica before ≤ startsBy replica before ∧
      startsBy replica before ≤ endsBy replica before + 1

section Growth

variable {initial : Ledger} {log : List Happening} {happening : Happening} {replica : Nat}
  {job : String} {occurrence : Time.Instant}

theorem Acquired.append (h : Acquired log replica job occurrence)
    (hother : happening.replica ≠ replica) :
    Acquired (log ++ [happening]) replica job occurrence := by
  obtain ⟨earlier, later, rfl, hlater⟩ := h
  refine ⟨earlier, later ++ [happening], by simp, fun other hmem => ?_⟩
  rcases List.mem_append.mp hmem with hold | hnew
  · exact hlater other hold
  · rwa [List.mem_singleton.mp hnew]

theorem acquired_append_self (log : List Happening) (replica : Nat) (job : String)
    (occurrence : Time.Instant) :
    Acquired (log ++ [.claimed replica job occurrence .acquired]) replica job occurrence :=
  ⟨log, [], rfl, by simp⟩

theorem OwnStarts.append (h : OwnStarts log)
    (hlast : ∀ replica job occurrence, happening = .started replica job occurrence →
      Acquired log replica job occurrence) : OwnStarts (log ++ [happening]) := by
  intro before after replica job occurrence heq
  rcases append_singleton_eq_iff.mp heq with ⟨rfl, hstarted, -⟩ | ⟨middle, -, hlog⟩
  · exact hlast replica job occurrence hstarted.symm
  · exact h before middle replica job occurrence hlog

theorem FinalClaims.append (h : FinalClaims log)
    (hlast : ∀ replica job occurrence later, happening = .claimed replica job occurrence later →
      (∃ earlier claim, .claimed earlier job occurrence claim ∈ log) → later = .alreadyClaimed) :
    FinalClaims (log ++ [happening]) := by
  intro before after replica job occurrence claim heq other later hmem
  rcases append_singleton_eq_iff.mp heq with ⟨-, -, rfl⟩ | ⟨middle, rfl, hlog⟩
  · cases hmem
  · rcases List.mem_append.mp hmem with hmiddle | hnew
    · exact h before middle replica job occurrence claim hlog other later hmiddle
    · exact hlast other job occurrence later (List.mem_singleton.mp hnew).symm
        ⟨replica, claim, by simp [hlog]⟩

theorem FairRefusals.append (h : FairRefusals initial log)
    (hlast : ∀ replica job occurrence,
      happening = .claimed replica job occurrence .alreadyClaimed →
        initial.Taken job occurrence ∨
          ∃ earlier claim, .claimed earlier job occurrence claim ∈ log) :
    FairRefusals initial (log ++ [happening]) := by
  intro before after replica job occurrence heq
  rcases append_singleton_eq_iff.mp heq with ⟨rfl, hrefused, -⟩ | ⟨middle, -, hlog⟩
  · exact hlast replica job occurrence hrefused.symm
  · exact h before middle replica job occurrence hlog

theorem SingleWork.append (h : SingleWork log)
    (hlast : ∀ replica,
      endsBy replica (log ++ [happening]) ≤ startsBy replica (log ++ [happening]) ∧
        startsBy replica (log ++ [happening]) ≤ endsBy replica (log ++ [happening]) + 1) :
    SingleWork (log ++ [happening]) := by
  intro before hprefix
  rcases List.prefix_concat_iff.mp hprefix with rfl | hold
  · exact hlast
  · exact h before hold

end Growth

namespace Fleet

variable {replicas : Nat → Replica} {initial : Ledger} {fleet after : Fleet}

-- What holds of a fleet at every moment. A token in hand belongs to an occurrence that is taken and
-- not started, and no two replicas have the same one in hand.
structure Orderly (replicas : Nat → Replica) (initial : Ledger) (fleet : Fleet) : Prop where
  taken_claimed : ∀ job time, fleet.ledger.Taken job time →
    initial.Taken job time ∨ ∃ i claim, .claimed i job time claim ∈ fleet.log
  claims_taken : ∀ i job time claim, .claimed i job time claim ∈ fleet.log →
    fleet.ledger.Taken job time
  started_taken : ∀ work ∈ startedWork fleet.log, fleet.ledger.Taken work.1 work.2
  started_nodup : (startedWork fleet.log).Nodup
  held_taken : ∀ i time, fleet.Holds i time → fleet.ledger.Taken (replicas i).job time
  held_fresh : ∀ i time, fleet.Holds i time → ((replicas i).job, time) ∉ startedWork fleet.log
  held_once : ∀ i j time, fleet.Holds i time → fleet.Holds j time →
    (replicas i).job = (replicas j).job → i = j
  held_acquired : ∀ i time, fleet.Holds i time → Acquired fleet.log i (replicas i).job time
  count : ∀ i, startsBy i fleet.log = endsBy i fleet.log + if fleet.isBusy i then 1 else 0
  starts : OwnStarts fleet.log
  claims : FinalClaims fleet.log
  refusals : FairRefusals initial fleet.log
  single : SingleWork fleet.log

theorem orderly_start (ledger : Ledger) : (Fleet.start ledger).Orderly replicas ledger where
  taken_claimed := fun _ _ => Or.inl
  claims_taken := by simp [start]
  started_taken := by simp [start, startedWork]
  started_nodup := List.nodup_nil
  held_taken := by simp [Holds, start]
  held_fresh := by simp [Holds, start]
  held_once := by simp [Holds, start]
  held_acquired := by simp [Holds, start]
  count := fun _ => rfl
  starts := by simp [OwnStarts, start]
  claims := by simp [FinalClaims, start]
  refusals := by simp [FairRefusals, start]
  single := by
    intro before hprefix replica
    rw [List.prefix_nil.mp hprefix]
    exact ⟨Nat.le_refl _, Nat.le_succ _⟩

namespace Effect

-- What is taken stays taken.
theorem taken_mono (effect : fleet.Effect replicas after) {job : String} {time : Time.Instant}
    (h : fleet.ledger.Taken job time) : after.ledger.Taken job time := by
  cases effect with
  | quiet taken | ended _ taken | refused _ _ _ taken | started _ _ _ taken =>
      exact (taken job time).mpr h
  | granted _ _ _ taken => exact (taken job time).mpr (Or.inl h)

theorem log_cases (effect : fleet.Effect replicas after) :
    after.log = fleet.log ∨ ∃ happening, after.log = fleet.log ++ [happening] := by
  cases effect with
  | quiet _ log => exact Or.inl log
  | ended _ _ log | refused _ _ _ _ log | granted _ _ _ _ log | started _ _ _ _ log =>
      exact Or.inr ⟨_, log⟩

-- An occurrence is taken by a claim and by nothing else.
theorem taken_claimed (effect : fleet.Effect replicas after) (h : fleet.Orderly replicas initial)
    (job : String) (time : Time.Instant) (htaken : after.ledger.Taken job time) :
    initial.Taken job time ∨ ∃ i claim, .claimed i job time claim ∈ after.log := by
  have hold : fleet.ledger.Taken job time →
      initial.Taken job time ∨ ∃ i claim, .claimed i job time claim ∈ after.log := by
    intro hbefore
    refine (h.taken_claimed job time hbefore).imp_right ?_
    rintro ⟨i, claim, hmem⟩
    refine ⟨i, claim, ?_⟩
    rcases effect.log_cases with hsame | ⟨happening, hnew⟩
    · rwa [hsame]
    · rw [hnew]
      exact List.mem_append_left _ hmem
  cases effect with
  | quiet taken | ended _ taken | refused _ _ _ taken | started _ _ _ taken =>
      exact hold ((taken job time).mp htaken)
  | granted replica occurrence _ taken log =>
      rcases (taken job time).mp htaken with hbefore | ⟨rfl, rfl⟩
      · exact hold hbefore
      · exact Or.inr ⟨replica, .acquired, by simp [log]⟩

theorem claims_taken (effect : fleet.Effect replicas after) (h : fleet.Orderly replicas initial)
    (i : Nat) (job : String) (time : Time.Instant) (claim : Claim)
    (hmem : .claimed i job time claim ∈ after.log) : after.ledger.Taken job time := by
  have hold : .claimed i job time claim ∈ fleet.log → after.ledger.Taken job time :=
    fun hmem => effect.taken_mono (h.claims_taken i job time claim hmem)
  cases effect with
  | quiet _ log =>
      rw [log] at hmem
      exact hold hmem
  | ended _ _ log | started _ _ _ _ log =>
      rw [log] at hmem
      exact hold (by simpa using hmem)
  | refused replica occurrence barred taken log =>
      simp only [log, List.mem_append, List.mem_singleton, Happening.claimed.injEq] at hmem
      rcases hmem with hmem | ⟨-, rfl, rfl, -⟩
      · exact hold hmem
      · exact (taken _ _).mpr barred
  | granted replica occurrence free taken log =>
      simp only [log, List.mem_append, List.mem_singleton, Happening.claimed.injEq] at hmem
      rcases hmem with hmem | ⟨-, rfl, rfl, -⟩
      · exact hold hmem
      · exact (taken _ _).mpr (Or.inr ⟨rfl, rfl⟩)

-- New work is what its replica had the token for.
theorem startedWork_eq (effect : fleet.Effect replicas after) :
    startedWork after.log = startedWork fleet.log ∨
      ∃ i time, fleet.Holds i time ∧
        startedWork after.log = startedWork fleet.log ++ [((replicas i).job, time)] ∧
        ∀ j other, after.Holds j other → j ≠ i ∧ fleet.Holds j other := by
  cases effect with
  | quiet _ log | ended _ _ log | refused _ _ _ _ log | granted _ _ _ _ log =>
      exact Or.inl (by simp [log])
  | started replica occurrence held _ log _ holds =>
      exact Or.inr ⟨replica, occurrence, held, by simp [log], holds⟩

-- A token in hand was there before, or it has just been given.
theorem holds_cases (effect : fleet.Effect replicas after) {i : Nat} {time : Time.Instant}
    (h : after.Holds i time) :
    fleet.Holds i time ∨
      ¬fleet.ledger.Taken (replicas i).job time ∧
        after.log = fleet.log ++ [.claimed i (replicas i).job time .acquired] := by
  cases effect with
  | quiet _ _ _ holds | ended _ _ _ _ _ holds => exact Or.inl (holds i time h)
  | refused _ _ _ _ _ _ holds | started _ _ _ _ _ _ holds => exact Or.inl (holds i time h).2
  | granted replica occurrence free _ log _ holds =>
      rcases holds i time h with ⟨rfl, rfl⟩ | ⟨-, hold⟩
      · exact Or.inr ⟨free, log⟩
      · exact Or.inl hold

-- While a replica has a token in hand, nothing else happens to it.
theorem acquired (effect : fleet.Effect replicas after) (h : fleet.Orderly replicas initial)
    {i : Nat} {time : Time.Instant} (hbefore : fleet.Holds i time) (hafter : after.Holds i time) :
    Acquired after.log i (replicas i).job time := by
  have hacquired := h.held_acquired i time hbefore
  cases effect with
  | quiet _ log => rwa [log]
  | ended replica _ log working =>
      rw [log]
      refine hacquired.append fun hreplica => ?_
      have hresting : fleet.isBusy replica = false := by
        have hsame : replica = i := hreplica
        rw [hsame]
        exact hbefore.not_busy
      rw [hresting] at working
      cases working
  | refused _ _ _ _ log _ holds | started _ _ _ _ log _ holds =>
      rw [log]
      exact hacquired.append (holds i time hafter).1.symm
  | granted replica occurrence free _ log _ holds =>
      rw [log]
      rcases holds i time hafter with ⟨rfl, rfl⟩ | ⟨hne, -⟩
      · exact absurd (h.held_taken i time hbefore) free
      · exact hacquired.append hne.symm

theorem held_fresh (effect : fleet.Effect replicas after) (h : fleet.Orderly replicas initial)
    (i : Nat) (time : Time.Instant) (hafter : after.Holds i time) :
    ((replicas i).job, time) ∉ startedWork after.log := by
  rcases effect.holds_cases hafter with hbefore | ⟨hfree, hlog⟩
  · have hfresh := h.held_fresh i time hbefore
    rcases effect.startedWork_eq with hsame | ⟨replica, occurrence, held, hnew, hlost⟩
    · rwa [hsame]
    · rw [hnew, List.mem_append, not_or, List.mem_singleton]
      refine ⟨hfresh, fun heq => ?_⟩
      obtain ⟨hjob, rfl⟩ := Prod.mk.inj heq
      exact (hlost i time hafter).1 (h.held_once i replica time hbefore held hjob)
  · rw [hlog, startedWork_claimed]
    exact fun hmem => hfree (h.started_taken _ hmem)

theorem held_once (effect : fleet.Effect replicas after) (h : fleet.Orderly replicas initial)
    (i j : Nat) (time : Time.Instant) (hi : after.Holds i time) (hj : after.Holds j time)
    (hjob : (replicas i).job = (replicas j).job) : i = j := by
  rcases effect.holds_cases hi with hbefore | ⟨hfree, hlog⟩
  · rcases effect.holds_cases hj with hbefore' | ⟨hfree, -⟩
    · exact h.held_once i j time hbefore hbefore' hjob
    · exact absurd (hjob ▸ h.held_taken i time hbefore) hfree
  · rcases effect.holds_cases hj with hbefore | ⟨-, hlog'⟩
    · exact absurd (hjob ▸ h.held_taken j time hbefore) hfree
    · have hlast := List.append_cancel_left (hlog.symm.trans hlog')
      exact (Happening.claimed.inj (List.singleton_inj.mp hlast)).1

theorem started_nodup (effect : fleet.Effect replicas after) (h : fleet.Orderly replicas initial) :
    (startedWork after.log).Nodup := by
  rcases effect.startedWork_eq with hsame | ⟨replica, occurrence, held, hnew, -⟩
  · rw [hsame]
    exact h.started_nodup
  · rw [hnew, List.nodup_append_comm, List.singleton_append, List.nodup_cons]
    exact ⟨h.held_fresh replica occurrence held, h.started_nodup⟩

theorem count (effect : fleet.Effect replicas after) (h : fleet.Orderly replicas initial)
    (i : Nat) :
    startsBy i after.log = endsBy i after.log + if after.isBusy i then 1 else 0 := by
  have hcount := h.count i
  cases effect with
  | quiet _ log busy | refused _ _ _ _ log busy | granted _ _ _ _ log busy =>
      simpa [log, busy] using hcount
  | ended replica _ log working busy =>
      rw [log, busy, startsBy_ended, endsBy_ended, hcount]
      by_cases hi : i = replica
      · subst hi
        simp [working]
      · simp [hi]
  | started replica occurrence held _ log busy =>
      rw [log, busy, startsBy_started, endsBy_started, hcount]
      by_cases hi : i = replica
      · subst hi
        simp [held.not_busy]
      · simp [hi]

theorem starts (effect : fleet.Effect replicas after) (h : fleet.Orderly replicas initial) :
    OwnStarts after.log := by
  cases effect with
  | quiet _ log =>
      rw [log]
      exact h.starts
  | ended _ _ log | refused _ _ _ _ log | granted _ _ _ _ log =>
      rw [log]
      exact h.starts.append (by simp)
  | started replica occurrence held _ log =>
      rw [log]
      refine h.starts.append fun i job time heq => ?_
      obtain ⟨rfl, rfl, rfl⟩ := Happening.started.inj heq
      exact h.held_acquired replica occurrence held

theorem claims (effect : fleet.Effect replicas after) (h : fleet.Orderly replicas initial) :
    FinalClaims after.log := by
  cases effect with
  | quiet _ log =>
      rw [log]
      exact h.claims
  | ended _ _ log | started _ _ _ _ log =>
      rw [log]
      exact h.claims.append (by simp)
  | refused replica occurrence _ _ log =>
      rw [log]
      refine h.claims.append fun i job time later heq _ => ?_
      exact (Happening.claimed.inj heq).2.2.2.symm
  | granted replica occurrence free _ log =>
      rw [log]
      refine h.claims.append fun i job time later heq hasked => ?_
      obtain ⟨rfl, rfl, rfl, rfl⟩ := Happening.claimed.inj heq
      obtain ⟨earlier, claim, hmem⟩ := hasked
      exact absurd (h.claims_taken earlier _ _ claim hmem) free

theorem refusals (effect : fleet.Effect replicas after) (h : fleet.Orderly replicas initial) :
    FairRefusals initial after.log := by
  cases effect with
  | quiet _ log =>
      rw [log]
      exact h.refusals
  | ended _ _ log | granted _ _ _ _ log | started _ _ _ _ log =>
      rw [log]
      exact h.refusals.append (by simp)
  | refused replica occurrence barred _ log =>
      rw [log]
      refine h.refusals.append fun i job time heq => ?_
      obtain ⟨rfl, rfl, rfl, -⟩ := Happening.claimed.inj heq
      exact h.taken_claimed _ _ barred

theorem single (effect : fleet.Effect replicas after) (h : fleet.Orderly replicas initial) :
    SingleWork after.log := by
  have hlast : ∀ i, endsBy i after.log ≤ startsBy i after.log ∧
      startsBy i after.log ≤ endsBy i after.log + 1 := by
    intro i
    rw [effect.count h i]
    split <;> omega
  rcases effect.log_cases with hsame | ⟨happening, hnew⟩
  · rw [hsame]
    exact h.single
  · rw [hnew] at hlast ⊢
    exact h.single.append hlast

theorem orderly (effect : fleet.Effect replicas after) (h : fleet.Orderly replicas initial) :
    after.Orderly replicas initial where
  taken_claimed := effect.taken_claimed h
  claims_taken := effect.claims_taken h
  started_taken := by
    intro work hmem
    rcases effect.startedWork_eq with hsame | ⟨replica, occurrence, held, hnew, -⟩
    · exact effect.taken_mono (h.started_taken work (hsame ▸ hmem))
    · rw [hnew, List.mem_append, List.mem_singleton] at hmem
      rcases hmem with hold | rfl
      · exact effect.taken_mono (h.started_taken work hold)
      · exact effect.taken_mono (h.held_taken replica occurrence held)
  started_nodup := effect.started_nodup h
  held_taken := by
    intro i time hafter
    rcases effect.holds_cases hafter with hbefore | ⟨-, hlog⟩
    · exact effect.taken_mono (h.held_taken i time hbefore)
    · exact effect.claims_taken h i _ time .acquired (by simp [hlog])
  held_fresh := effect.held_fresh h
  held_once := effect.held_once h
  held_acquired := by
    intro i time hafter
    rcases effect.holds_cases hafter with hbefore | ⟨-, hlog⟩
    · exact effect.acquired h hbefore hafter
    · rw [hlog]
      exact acquired_append_self fleet.log i (replicas i).job time
  count := effect.count h
  starts := effect.starts h
  claims := effect.claims h
  refusals := effect.refusals h
  single := effect.single h

end Effect

-- Whatever the replicas do, and in whatever order.
theorem Orderly.run (h : fleet.Orderly replicas initial) (events : List FleetEvent) :
    (fleet.run replicas events).Orderly replicas initial := by
  induction events generalizing fleet with
  | nil => exact h
  | cons event rest ih => exact ih ((effect_step fleet event).orderly h)

-- However many replicas share a store, and whatever their jobs, timetables and clocks are: the work
-- for an occurrence of a job starts once at most, and only with a replica that has just been given
-- its token. Nobody who asks for it later is given it, although the items of the store may be
-- deleted in between, but the first one is. No replica starts work while it is still at work.
theorem work_starts_once (replicas : Nat → Replica) (ledger : Ledger) (events : List FleetEvent) :
    let log := ((start ledger).run replicas events).log
    (startedWork log).Nodup ∧ OwnStarts log ∧ FinalClaims log ∧ FairRefusals ledger log ∧
      SingleWork log := by
  have hstart : (start ledger).Orderly replicas ledger := orderly_start ledger
  have h := hstart.run events
  exact ⟨h.started_nodup, h.starts, h.claims, h.refusals, h.single⟩

-- Two replicas of one job, due at the same second. The items are deleted between their claims, and
-- the clock of the first goes back after its work.
def twoReplicas : Nat → Replica := fun _ =>
  ⟨"poll", ⟨[0], [0, 1], [0], [1], [1], [1, 2, 3, 4, 5, 6, 7], [1970]⟩⟩

def twoReplicasRun : List FleetEvent := [
  .look 0 ⟨5, 0⟩, .look 1 ⟨3, 0⟩, .slept 1, .slept 0, .claim 0 ⟨60, 0⟩, .deleteAll,
  .claim 1 ⟨59, 0⟩, .resume 1, .resume 0, .finished 0 none, .look 0 ⟨6, 0⟩, .slept 0,
  .claim 0 ⟨7, 0⟩, .resume 0]

theorem work_starts_once_twoReplicas :
    let log := ((start .empty).run twoReplicas twoReplicasRun).log
    log = [
        .claimed 0 "poll" ⟨60, 0⟩ .acquired, .claimed 1 "poll" ⟨60, 0⟩ .alreadyClaimed,
        .started 0 "poll" ⟨60, 0⟩, .ended 0, .claimed 0 "poll" ⟨60, 0⟩ .alreadyClaimed] ∧
      (startedWork log).Nodup ∧ OwnStarts log ∧ FinalClaims log ∧ FairRefusals .empty log ∧
        SingleWork log :=
  ⟨by decide, work_starts_once twoReplicas .empty twoReplicasRun⟩

end Fleet

end DeclarationWatch.Schedule
