import DeclarationWatch.Proofs.Cycle.Round
import DeclarationWatch.Proofs.Publish.Accounting

namespace DeclarationWatch

namespace Publish.ChunkState

def settlement? : ChunkState → Option Settlement
  | .settled result => some result
  | _ => none

end Publish.ChunkState

namespace Publish.Dispatch

instance (dispatch : Dispatch) (next : Move) : Decidable (dispatch.Allows next) :=
  match next with
  | .chunk _ .send => inferInstanceAs (Decidable (dispatch.calledOff = false))
  | .chunk _ .cancel => inferInstanceAs (Decidable (dispatch.calledOff = true))
  | .chunk _ (.answer _) | .chunk _ .wake | .callOff => isTrue trivial

-- How all chunks have ended, once they have.
def settlements? (dispatch : Dispatch) : Option (List Settlement) :=
  dispatch.states.mapM ChunkState.settlement?

theorem settlements?_eq_some_iff {dispatch : Dispatch} {settlements : List Settlement} :
    dispatch.settlements? = some settlements ↔
      dispatch.states = settlements.map ChunkState.settled := by
  unfold settlements?
  induction dispatch.states generalizing settlements with
  | nil => simp [eq_comm]
  | cons state states ih =>
      cases state with
      | settled result =>
          cases settlements <;>
            simp [ChunkState.settlement?, Option.bind_eq_some_iff, ih, and_comm]
      | _ => cases settlements <;> simp [ChunkState.settlement?]

end Publish.Dispatch

namespace Cycle

open Publish (Course Dispatch Entry Move Settlement)

-- Where a cycle stands.
inductive Stage where
  | finding
  | asking (batch : List Item)
  | writing (assessment : Assessment)
  | publishing (summary : Summary) (dispatch : Dispatch)
  | ended (result : Except Failure Summary)

-- What a cycle does that others can see.
inductive Deed where
  | asked (ids : List String)
  | wrote (updates : List Update)
  | sent (entries : List Entry)

-- A cycle under way, with all that it has done.
structure Progress where
  ledger : Ledger
  stage : Stage
  log : List Deed

-- What a cycle meets on its way, piece by piece.
inductive Event where
  | found (failure : Option Failure)
  | searched (search : Search)
  -- The ledger has taken the write or refused it, and the cycle has been called off by then or not.
  | written (failure : Option Failure) (calledOff : Bool)
  | published (next : Move)
  | returned

-- The events that the publisher and its receiver have a part in.
def Event.isPublication : Event → Bool
  | .published _ | .returned => true
  | _ => false

namespace Progress

variable (policy : Policy) (config : Publish.Config) (now : Time.Instant)

def start (ledger : Ledger) : Progress := ⟨ledger, .finding, []⟩

-- One step of a cycle. An event that does not fit the stage changes nothing.
def step (progress : Progress) : Event → Progress
  | .found failure =>
      match progress.stage, failure with
      | .finding, some failure => { progress with stage := .ended (.error failure) }
      | .finding, none =>
          match progress.ledger.findIncomplete policy.maxPollSize with
          | [] => { progress with stage := .ended (.ok {}) }
          | batch => { progress with stage := .asking batch }
      | _, _ => progress
  | .searched search =>
      match progress.stage with
      | .asking batch =>
          let asked := progress.log ++ [.asked (batch.map (·.id))]
          match search with
          | .calledOff => { progress with stage := .ended (.error .cancelled) }
          | .abandoned => { progress with stage := .ended (.error .cancelled), log := asked }
          | .answered (.error failure) =>
              { progress with stage := .ended (.error (.movement failure)), log := asked }
          | .answered (.ok answer) =>
              { progress with stage := .writing (assess policy now batch answer), log := asked }
      | _ => progress
  | .written failure calledOff =>
      match progress.stage, failure with
      | .writing _, some failure => { progress with stage := .ended (.error failure) }
      | .writing assessment, none =>
          { ledger := (progress.ledger.bulkUpdate assessment.updates).2
            stage := match assessment.changed with
              | [] => .ended (.ok assessment.summary)
              | changed => .publishing assessment.summary
                  (Dispatch.start config (changed.map Entry.ofSighting) calledOff)
            log := progress.log ++ [.wrote assessment.updates] }
      | _, _ => progress
  | .published next =>
      match progress.stage with
      | .publishing summary dispatch =>
          if dispatch.Allows next then
            { progress with
              stage := .publishing summary (dispatch.move config next)
              log := progress.log ++ ((dispatch.sent? next).map Deed.sent).toList }
          else progress
      | _ => progress
  | .returned =>
      match progress.stage with
      | .publishing summary dispatch =>
          match dispatch.settlements? with
          | some settlements =>
              { progress with
                stage := .ended (match Publish.conclude settlements with
                  | .ok () => .ok summary
                  | .error failure => .error (.publish failure)) }
          | none => progress
      | _ => progress

def after (progress : Progress) (events : List Event) : Progress :=
  events.foldl (step policy config now) progress

end Progress

namespace Round

-- Nothing goes wrong in this cycle.
def smooth (now : Time.Instant) (answer : SearchAnswer) : Round Unit where
  now := now
  search := fun _ => .answered (.ok answer)
  publish := fun _ => (.ok (), ())

variable (config : Publish.Config) (policy : Policy) (ledger : Ledger) (round : Round Course)

-- If the publisher is called at all, its course is a possible one that goes on to the end.
def IsFaithful : Prop :=
  let handed := round.handed policy ledger
  handed ≠ [] → (round.publish handed).2.Yields config handed (round.publish handed).1

def deeds : List Deed :=
  let outcome := round.outcome policy ledger
  outcome.requests.map Deed.asked ++
    (match outcome.updates with
      | [] => []
      | updates => [.wrote updates]) ++
    match outcome.published with
      | none => []
      | some course => (course.sent config (round.handed policy ledger)).map Deed.sent

-- Where a cycle stands at its end.
def ending : Progress :=
  let outcome := round.outcome policy ledger
  ⟨outcome.ledger, .ended outcome.result, round.deeds config policy ledger⟩

variable {config policy ledger round}

theorem ending_of_not_writes {result : Except Failure Summary} {requests : List (List String)}
    (houtcome : round.outcome policy ledger = ⟨result, ledger, requests, [], none⟩) :
    round.ending config policy ledger = ⟨ledger, .ended result, requests.map Deed.asked⟩ := by
  simp [ending, deeds, houtcome]

-- A cycle that does not write calls no publisher.
theorem isFaithful_of_not_writes (h : ∀ answer, ¬round.Writes policy ledger answer) :
    round.IsFaithful config policy ledger :=
  fun hne => absurd (handed_of_not_writes h) hne

section Writes

variable {answer : SearchAnswer} (h : round.Writes policy ledger answer)

include h

-- The batch is not empty, so there are updates.
theorem Writes.updates_ne_nil :
    (ledger.findIncomplete policy.maxPollSize).map (revision policy round.now answer) ≠ [] := by
  simpa using h.due

theorem Writes.ending_of_none_selected (hnone : selected policy ledger answer = []) :
    round.ending config policy ledger =
      { ledger := round.rewritten policy ledger answer
        stage := .ended (.ok
          (assess policy round.now (ledger.findIncomplete policy.maxPollSize) answer).summary)
        log := [.asked (dueIds policy ledger),
          .wrote ((ledger.findIncomplete policy.maxPollSize).map
            (revision policy round.now answer))] } := by
  -- Without it the log could be that of a cycle that wrote nothing.
  have hupdates := h.updates_ne_nil
  rw [ending, deeds, outcome, h.run_eq, commit_of_writes h, h.handed_eq]
  simp only [hnone, if_true]
  rfl

theorem Writes.ending_of_selected (hsome : selected policy ledger answer ≠ []) :
    round.ending config policy ledger =
      { ledger := round.rewritten policy ledger answer
        stage := .ended (match (round.publish (selected policy ledger answer)).1 with
          | .ok () => .ok
            (assess policy round.now (ledger.findIncomplete policy.maxPollSize) answer).summary
          | .error failure => .error (.publish failure))
        log := .asked (dueIds policy ledger) :: .wrote
            ((ledger.findIncomplete policy.maxPollSize).map (revision policy round.now answer)) ::
          ((round.publish (selected policy ledger answer)).2.sent config
            (selected policy ledger answer)).map Deed.sent } := by
  -- Without it the log could be that of a cycle that wrote nothing.
  have hupdates := h.updates_ne_nil
  rw [ending, deeds, outcome, h.run_eq, commit_of_writes h, h.handed_eq]
  simp only [hsome, if_false]
  rfl

end Writes

end Round

section Stages

variable (policy : Policy) (config : Publish.Config) (now : Time.Instant) (ledger : Ledger)
  (answer : SearchAnswer)

-- The answer is there, and the write comes next.
def Progress.beforeWrite : Progress where
  ledger := ledger
  stage := .writing (assess policy now (ledger.findIncomplete policy.maxPollSize) answer)
  log := [.asked (dueIds policy ledger)]

-- The write is done, and the publication has come so far.
def Progress.inPublication (course : Course) : Progress where
  ledger := (Round.smooth now answer).rewritten policy ledger answer
  stage := .publishing (assess policy now (ledger.findIncomplete policy.maxPollSize) answer).summary
    ((course.start config (selected policy ledger answer)).after config course.moves)
  log := .asked (dueIds policy ledger) ::
    .wrote ((ledger.findIncomplete policy.maxPollSize).map (revision policy now answer)) ::
      (course.sent config (selected policy ledger answer)).map Deed.sent

end Stages

-- Where a cycle can stand, with an answer that it was given. At its end it stands where a cycle
-- as a whole comes out.
inductive Reached (policy : Policy) (config : Publish.Config) (now : Time.Instant)
    (ledger : Ledger) (given : SearchAnswer → Prop) : Progress → Prop where
  | finding : Reached policy config now ledger given (.start ledger)
  | asking (due : ledger.findIncomplete policy.maxPollSize ≠ []) :
      Reached policy config now ledger given
        ⟨ledger, .asking (ledger.findIncomplete policy.maxPollSize), []⟩
  | writing {answer : SearchAnswer} (due : ledger.findIncomplete policy.maxPollSize ≠ [])
      (heard : given answer) :
      Reached policy config now ledger given (.beforeWrite policy now ledger answer)
  | publishing {answer : SearchAnswer} (course : Course)
      (due : ledger.findIncomplete policy.maxPollSize ≠ []) (heard : given answer)
      (changed : selected policy ledger answer ≠ [])
      (possible : (course.start config (selected policy ledger answer)).Possible config
        course.moves) :
      Reached policy config now ledger given
        (.inPublication policy config now ledger answer course)
  | ended (round : Round Course) (clock : round.now = now)
      (faithful : round.IsFaithful config policy ledger)
      (heard : ∀ answer, round.Writes policy ledger answer → given answer) :
      Reached policy config now ledger given (round.ending config policy ledger)

namespace Reached

variable {policy : Policy} {config : Publish.Config} {now : Time.Instant} {ledger : Ledger}
  {given : SearchAnswer → Prop} {answer : SearchAnswer}

-- An end before the write.
theorem of_not_writes (round : Round Course) {result : Except Failure Summary}
    {requests : List (List String)} (hno : ∀ answer, ¬round.Writes policy ledger answer)
    (houtcome : round.outcome policy ledger = ⟨result, ledger, requests, [], none⟩)
    (hnow : round.now = now) :
    Reached policy config now ledger given ⟨ledger, .ended result, requests.map Deed.asked⟩ := by
  rw [← Round.ending_of_not_writes houtcome]
  exact .ended round hnow (Round.isFaithful_of_not_writes hno) fun answer h => absurd h (hno answer)

-- An end after the write.
theorem of_writes (round : Round Course) (hwrites : round.Writes policy ledger answer)
    (hfaithful : round.IsFaithful config policy ledger) (heard : given answer)
    (hnow : round.now = now) :
    Reached policy config now ledger given (round.ending config policy ledger) := by
  refine .ended round hnow hfaithful fun other h => ?_
  have hsame := hwrites.answered.symm.trans h.answered
  rwa [Except.ok.inj (Search.answered.inj hsame)] at heard

-- The search for due items, up to a batch.
theorem step_found (failure : Option Failure) : Reached policy config now ledger given
    ((Progress.start ledger).step policy config now (.found failure)) := by
  cases failure with
  | some failure =>
      let round : Round Course :=
        { now, outage := { find := some failure }, search := fun _ => .calledOff,
          publish := fun _ => (.ok (), ⟨false, []⟩) }
      have hfound : round.outage.find = some failure := rfl
      exact of_not_writes round (fun answer h => by cases h.found)
        (Round.run_of_refused hfound _) rfl
  | none =>
      simp only [Progress.step, Progress.start]
      split
      · rename_i hnone
        let round : Round Course :=
          { now, search := fun _ => .calledOff, publish := fun _ => (.ok (), ⟨false, []⟩) }
        have hfound : round.outage.find = none := rfl
        exact of_not_writes round (fun answer h => h.due hnone)
          (Round.run_of_none_due hfound hnone _) rfl
      · rename_i hdue
        exact .asking hdue

-- A cycle with items to ask for, up to the answer.
theorem step_searched (due : ledger.findIncomplete policy.maxPollSize ≠ []) (search : Search)
    (hgiven : ∀ answer, search = .answered (.ok answer) → given answer) :
    Reached policy config now ledger given
      (Progress.step policy config now
        ⟨ledger, .asking (ledger.findIncomplete policy.maxPollSize), []⟩ (.searched search)) := by
  let round : Round Course :=
    { now, search := fun _ => search, publish := fun _ => (.ok (), ⟨false, []⟩) }
  have hfound : round.outage.find = none := rfl
  have houtcome := Round.run_of_due hfound due round.publish
  cases search with
  | calledOff => exact of_not_writes round (fun answer h => by cases h.answered) houtcome rfl
  | abandoned => exact of_not_writes round (fun answer h => by cases h.answered) houtcome rfl
  | answered result =>
      cases result with
      | error failure =>
          exact of_not_writes round (fun answer h => by cases h.answered) houtcome rfl
      | ok answer => exact .writing due (hgiven answer rfl)

-- The write, up to the start of a publication if there is anything to publish.
theorem step_written (due : ledger.findIncomplete policy.maxPollSize ≠ []) (heard : given answer)
    (failure : Option Failure) (calledOff : Bool) :
    Reached policy config now ledger given ((Progress.beforeWrite policy now ledger answer).step
      policy config now (.written failure calledOff)) := by
  cases failure with
  | some failure =>
      let round : Round Course :=
        { now, outage := { bulkUpdate := some failure }, search := fun _ => .answered (.ok answer),
          publish := fun _ => (.ok (), ⟨false, []⟩) }
      have hfound : round.outage.find = none := rfl
      have hwrite : round.outage.bulkUpdate = some failure := rfl
      have houtcome := (Round.run_of_due hfound due round.publish).trans
        (Round.commit_of_refused hwrite round.publish)
      exact of_not_writes round (fun answer h => by cases h.written) houtcome rfl
  | none =>
      simp only [Progress.step, Progress.beforeWrite]
      cases hchanged : selected policy ledger answer with
      | nil =>
          let round : Round Course :=
            { now, search := fun _ => .answered (.ok answer),
              publish := fun _ => (.ok (), ⟨false, []⟩) }
          have hwrites : round.Writes policy ledger answer := ⟨rfl, due, rfl, rfl⟩
          have hfaithful : round.IsFaithful config policy ledger :=
            fun hne => absurd (hwrites.handed_eq.trans hchanged) hne
          have hreached := of_writes round hwrites hfaithful heard rfl
          have hnone : (assess policy now (ledger.findIncomplete policy.maxPollSize)
              answer).changed = [] := hchanged
          rw [hnone]
          exact hwrites.ending_of_none_selected hchanged ▸ hreached
      | cons sighting rest =>
          have hsome : (assess policy now (ledger.findIncomplete policy.maxPollSize)
              answer).changed = sighting :: rest := hchanged
          have hreached : Reached policy config now ledger given
              (.inPublication policy config now ledger answer ⟨calledOff, []⟩) :=
            .publishing _ due heard (by simp [hchanged]) (Publish.Dispatch.possible_nil config _)
          rw [hsome]
          simp only [Progress.inPublication, hchanged] at hreached
          exact hreached

theorem step_published {course : Course} (due : ledger.findIncomplete policy.maxPollSize ≠ [])
    (heard : given answer) (changed : selected policy ledger answer ≠ [])
    (possible : (course.start config (selected policy ledger answer)).Possible config course.moves)
    (next : Move) :
    Reached policy config now ledger given
      ((Progress.inPublication policy config now ledger answer course).step policy config now
        (.published next)) := by
  simp only [Progress.step, Progress.inPublication]
  split
  · rename_i hallowed
    have hreached : Reached policy config now ledger given
        (.inPublication policy config now ledger answer
          ⟨course.calledOff, course.moves ++ [next]⟩) :=
      .publishing _ due heard changed
        ((Publish.Dispatch.possible_append_singleton _ _ _ _).mpr ⟨possible, hallowed⟩)
    rw [Progress.inPublication, Publish.Course.sent, Publish.Dispatch.after_append_singleton,
      Publish.Dispatch.seen_append_singleton, List.map_append, ← Option.toList_map] at hreached
    exact hreached
  · exact publishing course due heard changed possible

-- The publication returns only when all its chunks are settled.
theorem step_returned {course : Course} (due : ledger.findIncomplete policy.maxPollSize ≠ [])
    (heard : given answer) (changed : selected policy ledger answer ≠ [])
    (possible : (course.start config (selected policy ledger answer)).Possible config
      course.moves) :
    Reached policy config now ledger given
      ((Progress.inPublication policy config now ledger answer course).step policy config now
        .returned) := by
  simp only [Progress.step, Progress.inPublication]
  split
  · rename_i settlements hsettlements
    let round : Round Course :=
      { now, search := fun _ => .answered (.ok answer),
        publish := fun _ => (Publish.conclude settlements, course) }
    have hwrites : round.Writes policy ledger answer := ⟨rfl, due, rfl, rfl⟩
    have hfaithful : round.IsFaithful config policy ledger := by
      intro hne
      rw [hwrites.handed_eq]
      exact ⟨possible, settlements, Publish.Dispatch.settlements?_eq_some_iff.mp hsettlements, rfl⟩
    have hreached := of_writes round hwrites hfaithful heard rfl
    rw [hwrites.ending_of_selected changed] at hreached
    exact hreached
  · exact publishing course due heard changed possible

-- Whatever a cycle meets next.
theorem step {progress : Progress} (h : Reached policy config now ledger given progress)
    (event : Event) (hgiven : ∀ answer, event = .searched (.answered (.ok answer)) → given answer) :
    Reached policy config now ledger given (progress.step policy config now event) := by
  cases h with
  | finding =>
      cases event with
      | found failure => exact step_found failure
      | _ => exact .finding
  | asking due =>
      cases event with
      | searched search =>
          exact step_searched due search fun answer hsearch => hgiven answer (by rw [hsearch])
      | _ => exact .asking due
  | writing due heard =>
      cases event with
      | written failure calledOff => exact step_written due heard failure calledOff
      | _ => exact .writing due heard
  | publishing course due heard changed possible =>
      cases event with
      | published next => exact step_published due heard changed possible next
      | returned => exact step_returned due heard changed possible
      | _ => exact .publishing course due heard changed possible
  | ended round clock faithful heard =>
      cases event <;> exact .ended round clock faithful heard

theorem after {progress : Progress} (h : Reached policy config now ledger given progress)
    (events : List Event)
    (hgiven : ∀ answer, .searched (.answered (.ok answer)) ∈ events → given answer) :
    Reached policy config now ledger given (progress.after policy config now events) := by
  induction events generalizing progress with
  | nil => exact h
  | cons event events ih =>
      refine ih (h.step event fun answer hevent => hgiven answer (by simp [hevent])) ?_
      exact fun answer hmem => hgiven answer (List.mem_cons_of_mem _ hmem)

theorem exists_round {progress : Progress} {result : Except Failure Summary}
    (h : Reached policy config now ledger given progress)
    (hstage : progress.stage = .ended result) :
    ∃ round : Round Course, round.now = now ∧ round.IsFaithful config policy ledger ∧
      progress = round.ending config policy ledger := by
  cases h with
  | ended round clock faithful heard => exact ⟨round, clock, faithful, rfl⟩
  | _ => cases hstage

-- A cycle under way has asked at most, or it has also written all that it set out to write and may
-- have sent something since.
theorem cases {progress : Progress} (h : Reached policy config now ledger given progress) :
    (progress.ledger = ledger ∧
        ∃ requests : List (List String), progress.log = requests.map Deed.asked) ∨
      ∃ answer, given answer ∧ ledger.findIncomplete policy.maxPollSize ≠ [] ∧
        progress.ledger = (Round.smooth now answer).rewritten policy ledger answer ∧
        ∃ sent : List (List Entry), progress.log = .asked (dueIds policy ledger) ::
          .wrote ((ledger.findIncomplete policy.maxPollSize).map (revision policy now answer)) ::
            sent.map Deed.sent := by
  cases h with
  | finding => exact Or.inl ⟨rfl, [], rfl⟩
  | asking due => exact Or.inl ⟨rfl, [], rfl⟩
  | writing due heard => exact Or.inl ⟨rfl, [dueIds policy ledger], rfl⟩
  | @publishing answer course due heard changed possible =>
      exact Or.inr ⟨answer, heard, due, rfl, _, rfl⟩
  | ended round clock faithful heard =>
      subst clock
      rcases round.run_cases policy ledger round.publish with
        ⟨answer, hwrites, -⟩ | ⟨-, result, requests, hrun, -⟩
      · refine Or.inr ⟨answer, heard answer hwrites, hwrites.due, ?_⟩
        by_cases hnone : selected policy ledger answer = []
        · rw [hwrites.ending_of_none_selected hnone]
          exact ⟨rfl, [], rfl⟩
        · rw [hwrites.ending_of_selected hnone]
          exact ⟨rfl, _, rfl⟩
      · rw [Round.ending_of_not_writes hrun]
        exact Or.inl ⟨rfl, requests, rfl⟩

end Reached

section Smooth

variable {policy : Policy} {ledger : Ledger}

theorem Round.writes_smooth (now : Time.Instant) (answer : SearchAnswer)
    (hdue : ledger.findIncomplete policy.maxPollSize ≠ []) :
    (Round.smooth now answer).Writes policy ledger answer := ⟨rfl, hdue, rfl, rfl⟩

theorem Round.result_smooth (now : Time.Instant) (answer : SearchAnswer)
    (hdue : ledger.findIncomplete policy.maxPollSize ≠ []) :
    ((Round.smooth now answer).outcome policy ledger).result =
      .ok (assess policy now (ledger.findIncomplete policy.maxPollSize) answer).summary := by
  have hwrites := Round.writes_smooth now answer hdue
  rw [outcome, hwrites.run_eq, commit_of_writes hwrites]
  simp [smooth]

end Smooth

namespace Progress

variable {policy : Policy} {config : Publish.Config} {now : Time.Instant}
  {progress other : Progress} {event : Event}

@[simp] theorem after_nil : progress.after policy config now [] = progress := rfl

@[simp] theorem after_cons (events : List Event) :
    progress.after policy config now (event :: events) =
      (progress.step policy config now event).after policy config now events := rfl

theorem after_append (events more : List Event) :
    progress.after policy config now (events ++ more) =
      (progress.after policy config now events).after policy config now more := by
  simp [after, List.foldl_append]

-- The write has been made or will not be made any more.
def isLate (progress : Progress) : Bool :=
  match progress.stage with
  | .publishing _ _ | .ended _ => true
  | _ => false

theorem step_of_isLate (h : progress.isLate = true) (event : Event) :
    (progress.step policy config now event).ledger = progress.ledger ∧
      (progress.step policy config now event).isLate = true := by
  obtain ⟨ledger, stage, log⟩ := progress
  cases stage with
  | publishing summary dispatch =>
      cases event with
      | published next =>
          simp only [step]
          split <;> exact ⟨rfl, rfl⟩
      | returned =>
          simp only [step]
          split <;> exact ⟨rfl, rfl⟩
      | _ => exact ⟨rfl, rfl⟩
  | ended result => cases event <;> exact ⟨rfl, rfl⟩
  | _ => cases h

theorem step_of_isPublication (hevent : event.isPublication = true)
    (h : progress.isLate = false) : progress.step policy config now event = progress := by
  obtain ⟨ledger, stage, log⟩ := progress
  cases stage with
  | publishing summary dispatch => cases h
  | ended result => cases h
  | _ => cases event <;> first | rfl | cases hevent

-- Two cycles that differ in their publications only: they agree, or both are past the write.
theorem ledger_after_filter (events : List Event)
    (h : progress = other ∨
      progress.ledger = other.ledger ∧ progress.isLate = true ∧ other.isLate = true) :
    (progress.after policy config now events).ledger =
      (other.after policy config now (events.filter (!·.isPublication))).ledger := by
  induction events generalizing progress other with
  | nil =>
      rcases h with rfl | ⟨hsame, -⟩
      · rfl
      · exact hsame
  | cons event events ih =>
      rw [after_cons]
      cases hevent : event.isPublication with
      | true =>
          rw [List.filter_cons_of_neg (by simp [hevent])]
          refine ih ?_
          rcases h with rfl | ⟨hsame, hlate, hlate'⟩
          · cases hlate : progress.isLate with
            | false => exact Or.inl (step_of_isPublication hevent hlate)
            | true =>
                obtain ⟨hledger, hnext⟩ := step_of_isLate hlate event
                exact Or.inr ⟨hledger, hnext, rfl⟩
          · obtain ⟨hledger, hnext⟩ := step_of_isLate hlate event
            exact Or.inr ⟨hledger.trans hsame, hnext, hlate'⟩
      | false =>
          rw [List.filter_cons_of_pos (by simp [hevent]), after_cons]
          refine ih ?_
          rcases h with rfl | ⟨hsame, hlate, hlate'⟩
          · exact Or.inl rfl
          · obtain ⟨hledger, hnext⟩ := step_of_isLate hlate event
            obtain ⟨hledger', hnext'⟩ := step_of_isLate hlate' event
            exact Or.inr ⟨hledger.trans (hsame.trans hledger'.symm), hnext, hnext'⟩

-- A publication in a cycle goes the way of its course.
theorem after_published {ledger : Ledger} {summary : Summary} {dispatch : Dispatch}
    {moves : List Move} {log : List Deed} (h : dispatch.Possible config moves) :
    (Progress.mk ledger (.publishing summary dispatch) log).after policy config now
        (moves.map .published) =
      { ledger := ledger
        stage := .publishing summary (dispatch.after config moves)
        log := log ++ (dispatch.seen config Publish.Dispatch.sent? moves).map Deed.sent } := by
  induction moves generalizing dispatch log with
  | nil => simp [Publish.Dispatch.seen]
  | cons next moves ih =>
      obtain ⟨hnext, hmoves⟩ := (Publish.Dispatch.possible_cons _ _ _ _).mp h
      rw [List.map_cons, after_cons]
      simp only [step, hnext, if_true]
      rw [ih hmoves]
      simp [Publish.Dispatch.seen, ← Option.toList_map]

end Progress

section Whole

variable {policy : Policy} {config : Publish.Config} {ledger : Ledger} {round : Round Course}

open Progress (after_cons after_nil after_append after_published)

theorem step_found_none (config : Publish.Config) (now : Time.Instant)
    (hdue : ledger.findIncomplete policy.maxPollSize ≠ []) :
    (Progress.start ledger).step policy config now (.found none) =
      ⟨ledger, .asking (ledger.findIncomplete policy.maxPollSize), []⟩ := by
  cases hbatch : ledger.findIncomplete policy.maxPollSize with
  | nil => exact absurd hbatch hdue
  | cons item rest => simp only [Progress.step, Progress.start, hbatch]

-- The way of a cycle that writes.
theorem Round.Writes.exists_events {answer : SearchAnswer}
    (h : round.Writes policy ledger answer) (hfaithful : round.IsFaithful config policy ledger) :
    ∃ events, (Progress.start ledger).after policy config round.now events =
      round.ending config policy ledger := by
  have hfound := step_found_none config round.now h.due
  by_cases hnone : selected policy ledger answer = []
  · refine ⟨[.found none, .searched (.answered (.ok answer)), .written none false], ?_⟩
    have hchanged : (assess policy round.now (ledger.findIncomplete policy.maxPollSize)
        answer).changed = [] := hnone
    rw [h.ending_of_none_selected hnone, after_cons, hfound]
    simp only [after_cons, after_nil, Progress.step, hchanged]
    rfl
  · rw [IsFaithful, h.handed_eq] at hfaithful
    obtain ⟨hpossible, settlements, hsettled, hresult⟩ := hfaithful hnone
    let course := (round.publish (selected policy ledger answer)).2
    let asking : List Event := [.found none, .searched (.answered (.ok answer))]
    have hasked : (Progress.start ledger).after policy config round.now asking =
        .beforeWrite policy round.now ledger answer := by
      rw [after_cons, hfound]
      rfl
    have hwritten : (Progress.beforeWrite policy round.now ledger answer).step policy config
        round.now (.written none course.calledOff) =
          .inPublication policy config round.now ledger answer ⟨course.calledOff, []⟩ := by
      -- Something has changed, so the write does not end the cycle.
      have hchanged : (assess policy round.now (ledger.findIncomplete policy.maxPollSize)
        answer).changed ≠ [] := hnone
      simp only [Progress.step, Progress.beforeWrite]
      rfl
    have hpublished : (Progress.inPublication policy config round.now ledger answer
        ⟨course.calledOff, []⟩).after policy config round.now (course.moves.map .published) =
          .inPublication policy config round.now ledger answer course := after_published hpossible
    have hreturned : (Progress.inPublication policy config round.now ledger answer course).step
        policy config round.now .returned = round.ending config policy ledger := by
      have hsettlements := Publish.Dispatch.settlements?_eq_some_iff.mpr hsettled
      rw [h.ending_of_selected hnone, hresult]
      simp only [Progress.step, Progress.inPublication, course, hsettlements]
      rfl
    refine ⟨asking ++ .written none course.calledOff :: (course.moves.map .published ++
      [.returned]), ?_⟩
    rw [after_append, hasked, after_cons, hwritten, after_append, hpublished, after_cons, hreturned,
      after_nil]

-- A cycle as a whole comes about step by step.
theorem Round.exists_events (hfaithful : round.IsFaithful config policy ledger) :
    ∃ events, (Progress.start ledger).after policy config round.now events =
      round.ending config policy ledger := by
  cases hfind : round.outage.find with
  | some failure =>
      refine ⟨[.found (some failure)], ?_⟩
      rw [ending_of_not_writes (run_of_refused hfind _)]
      rfl
  | none =>
      by_cases hdue : ledger.findIncomplete policy.maxPollSize = []
      · refine ⟨[.found none], ?_⟩
        rw [ending_of_not_writes (run_of_none_due hfind hdue _)]
        simp [Progress.step, Progress.start, hdue]
      · have hfound := step_found_none config round.now hdue
        have hrun := run_of_due hfind hdue round.publish
        cases hsearch : round.search (dueIds policy ledger) with
        | calledOff =>
            rw [hsearch] at hrun
            refine ⟨[.found none, .searched .calledOff], ?_⟩
            rw [ending_of_not_writes hrun, after_cons, hfound]
            rfl
        | abandoned =>
            rw [hsearch] at hrun
            refine ⟨[.found none, .searched .abandoned], ?_⟩
            rw [ending_of_not_writes hrun, after_cons, hfound]
            rfl
        | answered result =>
            rw [hsearch] at hrun
            cases result with
            | error failure =>
                refine ⟨[.found none, .searched (.answered (.error failure))], ?_⟩
                rw [ending_of_not_writes hrun, after_cons, hfound]
                rfl
            | ok answer =>
                cases hwrite : round.outage.bulkUpdate with
                | some failure =>
                    refine ⟨[.found none, .searched (.answered (.ok answer)),
                      .written (some failure) false], ?_⟩
                    have houtcome := hrun.trans (commit_of_refused hwrite round.publish)
                    rw [ending_of_not_writes houtcome, after_cons, hfound]
                    rfl
                | none =>
                    have hwrites : round.Writes policy ledger answer :=
                      ⟨hfind, hdue, hsearch, hwrite⟩
                    exact hwrites.exists_events hfaithful

-- A cycle does all of its write or nothing, whatever stops it and wherever, and it is the same
-- write that a cycle makes in which nothing goes wrong. Nothing is sent before the write, and
-- nothing that the publisher does has any effect on the ledger. Tokens of jobs are not touched.
theorem all_or_nothing (policy : Policy) (config : Publish.Config) (now : Time.Instant)
    (ledger : Ledger) :
    (∀ round : Round Course, round.now = now → round.IsFaithful config policy ledger →
      ∃ events, (Progress.start ledger).after policy config now events =
        round.ending config policy ledger) ∧
    ∀ events, let progress := (Progress.start ledger).after policy config now events
      (∀ result, progress.stage = .ended result → ∃ round : Round Course, round.now = now ∧
        round.IsFaithful config policy ledger ∧
        progress = round.ending config policy ledger) ∧
      ((∀ updates, .wrote updates ∉ progress.log) → progress.ledger = ledger) ∧
      ((∃ updates, .wrote updates ∈ progress.log) →
        ∃ answer, .searched (.answered (.ok answer)) ∈ events ∧
          let smooth := (Round.smooth now answer).outcome policy ledger
          progress.ledger = smooth.ledger ∧ ∃ summary, smooth.result = .ok summary) ∧
      (∀ before entries after, progress.log = before ++ .sent entries :: after →
        ∃ updates, .wrote updates ∈ before) ∧
      (∀ others, others.filter (!·.isPublication) = events.filter (!·.isPublication) →
        ((Progress.start ledger).after policy config now others).ledger = progress.ledger) ∧
      progress.ledger.claims = ledger.claims := by
  refine ⟨?whole, fun events => ?_⟩
  case whole =>
    rintro round rfl hfaithful
    exact Round.exists_events hfaithful
  intro progress
  have hreached : Reached policy config now ledger
      (fun answer => .searched (.answered (.ok answer)) ∈ events) progress :=
    Reached.finding.after events fun _ => id
  refine ⟨?ended, ?nothing, ?all, ?sent, ?apart, ?claims⟩
  case ended =>
    intro result hstage
    exact hreached.exists_round hstage
  case nothing =>
    intro hnone
    rcases hreached.cases with ⟨hledger, -⟩ | ⟨answer, -, -, -, sent, hlog⟩
    · exact hledger
    · refine absurd ?_ (hnone ((ledger.findIncomplete policy.maxPollSize).map
        (revision policy now answer)))
      simp [hlog]
  case all =>
    rintro ⟨updates, hwrote⟩
    rcases hreached.cases with ⟨-, requests, hlog⟩ | ⟨answer, hgiven, hdue, hledger, -⟩
    · simp [hlog] at hwrote
    · refine ⟨answer, hgiven, ?_, _, Round.result_smooth now answer hdue⟩
      rw [hledger, (Round.writes_smooth now answer hdue).ledger_eq]
  case sent =>
    intro before entries after hsplit
    rcases hreached.cases with ⟨-, requests, hlog⟩ | ⟨answer, -, -, -, sent, hlog⟩
    · have hmem : Deed.sent entries ∈ requests.map Deed.asked := by
        rw [← hlog, hsplit]
        simp
      simp at hmem
    · rw [hlog] at hsplit
      cases before with
      | nil => cases hsplit
      | cons first before =>
          cases before with
          | nil => cases hsplit
          | cons second before =>
              have hsecond := (List.cons.inj (List.cons.inj hsplit).2).1
              refine ⟨(ledger.findIncomplete policy.maxPollSize).map
                (revision policy now answer), ?_⟩
              rw [hsecond]
              simp
  case apart =>
    intro others hsame
    rw [Progress.ledger_after_filter others (Or.inl rfl), hsame,
      ← Progress.ledger_after_filter events (Or.inl rfl)]
  case claims =>
    rcases hreached.cases with ⟨hledger, -⟩ | ⟨answer, -, -, hledger, -⟩
    · rw [hledger]
    · rw [hledger, Round.rewritten, Ledger.claims_bulkUpdate]

-- A cycle that is called off while its first request is under way. The write stays.
theorem all_or_nothing_calledOff :
    let item : Item := ⟨"MRN-C", [], false, ⟨0, 0⟩, ⟨5000, 0⟩, none⟩
    let ledger : Ledger := ⟨[item], [⟨"poll", ⟨0, 0⟩, ⟨0, 0⟩⟩], by decide⟩
    let answer : SearchAnswer := ⟨[⟨"MRN-C", ["G1"]⟩], [⟨"G1", "OPEN", "u1", []⟩]⟩
    let events : List Event := [.found none, .searched (.answered (.ok answer)),
      .written none false, .published (.chunk 0 .send), .published .callOff,
      .published (.chunk 0 .cancel), .returned]
    let progress := (Progress.start ledger).after {} {} ⟨1000, 0⟩ events
    progress.stage = .ended (.error (.publish .cancelled)) ∧
      (∃ entries, .sent entries ∈ progress.log) ∧
      progress.ledger = ((Round.smooth ⟨1000, 0⟩ answer).outcome {} ledger).ledger ∧
      progress.ledger.claims = ledger.claims := by
  intro item ledger answer events progress
  have hbatch : ledger.findIncomplete ({} : Policy).maxPollSize = [item] :=
    Ledger.findIncomplete_eq_singleton rfl (by decide)
  have hdispatch : Dispatch.start {} [.ofSighting ⟨"MRN-C", ⟨"G1", "OPEN", "u1", []⟩⟩] false =
      ⟨[Publish.ChunkState.start [.ofSighting ⟨"MRN-C", ⟨"G1", "OPEN", "u1", []⟩⟩]], false⟩ := by
    simp [Dispatch.start, Publish.chunks]
  have hprogress : ∃ entries updates, progress.stage = .ended (.error (.publish .cancelled)) ∧
      progress.log = [.asked ["MRN-C"], .wrote updates, .sent entries] := by
    simp only [progress, events, after_cons, Progress.step, Progress.start, hbatch]
    have hchanged : (assess {} ⟨1000, 0⟩ [item] answer).changed =
      [⟨"MRN-C", ⟨"G1", "OPEN", "u1", []⟩⟩] := rfl
    simp only [hchanged, List.map_cons, List.map_nil, hdispatch]
    exact ⟨_, _, rfl, rfl⟩
  obtain ⟨entries, updates, hstage, hlog⟩ := hprogress
  obtain ⟨-, -, hall, -, -, hclaims⟩ := (all_or_nothing {} {} ⟨1000, 0⟩ ledger).2 events
  obtain ⟨other, hmem, hledger, -⟩ := hall ⟨updates, by simp [progress, hlog]⟩
  have hsame : other = answer := by simpa [events] using hmem
  exact ⟨hstage, ⟨entries, by simp [hlog]⟩, hsame ▸ hledger, hclaims⟩

end Whole

end Cycle

end DeclarationWatch
