import DeclarationWatch.Proofs.Publish.Accounting

namespace DeclarationWatch.Publish

open ChunkState (Event)

namespace Move

-- The event of one of the chunks that a move is.
def event? (index : Nat) : Move → Option Event
  | .callOff => none
  | .chunk other event => if other = index then some event else none

-- What happens to one of the chunks.
def events (index : Nat) (moves : List Move) : List Event := moves.filterMap (event? index)

variable {index : Nat} {moves : List Move} {event : Event}

theorem event?_eq_some_iff {next : Move} :
    next.event? index = some event ↔ next = .chunk index event := by
  cases next with
  | callOff => simp [event?]
  | chunk other given =>
      by_cases hother : other = index
      · simp [event?, hother]
      · simp [event?, hother]

theorem events_append (index : Nat) (moves more : List Move) :
    events index (moves ++ more) = events index moves ++ events index more :=
  List.filterMap_append

-- An event of a chunk has its place among the moves of all.
theorem exists_split_of_events {before later : List Event}
    (h : events index moves = before ++ event :: later) :
    ∃ earlier after, moves = earlier ++ .chunk index event :: after ∧
      events index earlier = before ∧ events index after = later := by
  obtain ⟨front, back, rfl, hfront, hback⟩ := List.filterMap_eq_append_iff.mp h
  obtain ⟨skipped, next, after, rfl, hskipped, hnext, hafter⟩ := List.filterMap_eq_cons_iff.mp hback
  rw [event?_eq_some_iff] at hnext
  subst hnext
  refine ⟨front ++ skipped, after, by simp, ?_, hafter⟩
  rw [events, List.filterMap_append, hfront, List.filterMap_eq_nil_iff.mpr hskipped, List.append_nil]

end Move

namespace ChunkState

def after (config : Config) (state : ChunkState) (events : List Event) : ChunkState :=
  events.foldl (step config) state

-- What the events of a chunk show, one after the other.
def seen {α : Type} (config : Config) (look : ChunkState → Event → Option α) :
    ChunkState → List Event → List α
  | _, [] => []
  | state, event :: events =>
      (look state event).toList ++ seen config look (state.step config event) events

variable {config : Config} {state : ChunkState}

@[simp] theorem after_nil (config : Config) (state : ChunkState) :
    state.after config [] = state := rfl

@[simp] theorem after_cons (config : Config) (state : ChunkState) (event : Event)
    (events : List Event) :
    state.after config (event :: events) = (state.step config event).after config events := rfl

theorem seen_append {α : Type} (config : Config) (look : ChunkState → Event → Option α)
    (state : ChunkState) (events more : List Event) :
    state.seen config look (events ++ more) =
      state.seen config look events ++ (state.after config events).seen config look more := by
  induction events generalizing state with
  | nil => rfl
  | cons event events ih => simp [seen, ih]

@[simp] theorem after_settled (config : Config) (result : Settlement) (events : List Event) :
    (settled result).after config events = settled result := by
  induction events with
  | nil => rfl
  | cons event events ih => exact ih

theorem requests_settled (config : Config) (result : Settlement) (events : List Event) :
    (settled result).seen config request? events = [] := by
  induction events with
  | nil => rfl
  | cons event events ih => exact ih

theorem afterAttempt_cases (config : Config) (attempt : Nat) (pending : List Entry) :
    (attempt < config.attempts ∧
        afterAttempt config attempt pending = .backoff attempt pending) ∨
      (config.attempts ≤ attempt ∧
        afterAttempt config attempt pending = .settled (.exhausted pending)) := by
  unfold afterAttempt
  split
  · rename_i hmore
    exact Or.inl ⟨hmore, rfl⟩
  · rename_i hnone
    exact Or.inr ⟨Nat.le_of_not_lt hnone, rfl⟩

-- All that an answer can do to a chunk.
theorem receive_cases (config : Config) (attempt : Nat) (pending : List Entry) (answer : Answer) :
    (IsGenuine answer ∧ (receive config attempt pending answer = .settled .done ∨
      receive config attempt pending answer =
        afterAttempt config attempt (pending.filter (asksAgain answer)))) ∨
    (answer = .error .cancelled ∧ receive config attempt pending answer = .settled .cancelled) ∨
    ∃ failure, failure ≠ .cancelled ∧ answer = .error failure ∧
      receive config attempt pending answer = .settled (.failed failure) := by
  cases answer with
  | ok rejections =>
      refine Or.inl ⟨trivial, ?_⟩
      cases rejections with
      | nil => exact Or.inl rfl
      | cons rejection rest =>
          have hsame : stillPending (rejection :: rest) pending =
              pending.filter (asksAgain (.ok (rejection :: rest))) := rfl
          rw [← hsame]
          simp only [receive]
          split
          · exact Or.inl rfl
          · exact Or.inr rfl
  | error failure =>
      cases failure with
      | sink code message callerFault =>
          refine Or.inl ⟨trivial, ?_⟩
          cases callerFault with
          | true => exact Or.inl rfl
          | false =>
              have hall : pending.filter (asksAgain (.error (.sink code message false))) =
                  pending := List.filter_eq_self.mpr fun _ _ => rfl
              rw [hall]
              exact Or.inr rfl
      | cancelled => exact Or.inr (Or.inl ⟨rfl, rfl⟩)
      | retriesExhausted ids =>
          refine Or.inr (Or.inr ⟨.retriesExhausted ids, ?_, rfl, rfl⟩)
          intro heq
          cases heq
      | unencodable fault =>
          refine Or.inr (Or.inr ⟨.unencodable fault, ?_, rfl, rfl⟩)
          intro heq
          cases heq

end ChunkState

namespace Dispatch

variable {config : Config} {dispatch : Dispatch} {index : Nat} {state : ChunkState}

-- The chunks do not disturb each other: where one of them stands depends on its own events alone.
theorem getElem?_after (config : Config) (dispatch : Dispatch) (moves : List Move) (index : Nat) :
    (dispatch.after config moves).states[index]? =
      dispatch.states[index]?.map (·.after config (Move.events index moves)) := by
  induction moves generalizing dispatch with
  | nil => simp [Move.events]
  | cons next moves ih =>
      rw [after_cons, ih]
      cases next with
      | callOff => rfl
      | chunk other event =>
          by_cases hother : other = index
          · subst hother
            simp only [move, List.getElem?_modify_eq, Move.events, List.filterMap_cons,
              Move.event?, if_true, Option.map_eq_map, Option.map_map]
            rfl
          · simp [move, hother, Move.events, Move.event?]

theorem seen_eq {α : Type} (look : ChunkState → Event → Option α) (moves : List Move)
    (h : dispatch.states[index]? = some state) :
    dispatch.seen config (seen? look index) moves =
      state.seen config look (Move.events index moves) := by
  induction moves generalizing dispatch state with
  | nil => rfl
  | cons next moves ih =>
      cases next with
      | callOff => exact ih h
      | chunk other event =>
          by_cases hother : other = index
          · subst hother
            have hnext : (dispatch.move config (.chunk other event)).states[other]? =
                some (state.step config event) := by simp [move, h]
            simp [seen, seen?, h, ih hnext, Move.events, Move.event?, ChunkState.seen]
          · have hnext : (dispatch.move config (.chunk other event)).states[index]? =
                some state := by simp [move, h, hother]
            simp [seen, seen?, hother, ih hnext, Move.events, Move.event?]

end Dispatch

namespace Course

-- Nobody calls the publication off.
structure IsUndisturbed (course : Course) : Prop where
  running : course.calledOff = false
  own : ∀ move ∈ course.moves, move.isOwn = true

variable {config : Config} {sightings : List Sighting} {course : Course} {index : Nat}
  {piece : List Entry}

theorem IsUndisturbed.cancel_notMem_events (h : course.IsUndisturbed) (index : Nat) :
    .cancel ∉ Move.events index course.moves := by
  intro hmem
  obtain ⟨next, hnext, hevent⟩ := List.mem_filterMap.mp hmem
  rw [Move.event?_eq_some_iff] at hevent
  subst hevent
  cases h.own _ hnext

-- Where a chunk stands in the middle of a course.
theorem getElem?_after (course : Course) (before : List Move)
    (hpiece : (pieces config sightings)[index]? = some piece) :
    ((course.start config sightings).after config before).states[index]? =
      some ((ChunkState.start piece).after config (Move.events index before)) := by
  rw [Dispatch.getElem?_after, getElem?_start hpiece, Option.map_some]

theorem exists_piece_of_after {before : List Move} {state : ChunkState}
    (h : ((course.start config sightings).after config before).states[index]? = some state) :
    ∃ piece, (pieces config sightings)[index]? = some piece ∧
      state = (ChunkState.start piece).after config (Move.events index before) := by
  obtain ⟨hindex, -⟩ := List.getElem?_eq_some_iff.mp h
  rw [Dispatch.length_states_after, length_pieces] at hindex
  have hpiece := List.getElem?_eq_getElem hindex
  exact ⟨_, hpiece, Option.some.inj (h.symm.trans (getElem?_after course before hpiece))⟩

theorem getElem?_last (course : Course) (hpiece : (pieces config sightings)[index]? = some piece) :
    (course.last config sightings).states[index]? =
      some ((ChunkState.start piece).after config (Move.events index course.moves)) :=
  getElem?_after course course.moves hpiece

theorem requests_eq (course : Course) (hpiece : (pieces config sightings)[index]? = some piece) :
    course.requests config sightings index = (ChunkState.start piece).seen config
      ChunkState.request? (Move.events index course.moves) :=
  Dispatch.seen_eq _ _ (getElem?_start hpiece)

theorem answers_eq (course : Course) (hpiece : (pieces config sightings)[index]? = some piece) :
    course.answers config sightings index = (ChunkState.start piece).seen config
      ChunkState.answer? (Move.events index course.moves) :=
  Dispatch.seen_eq _ _ (getElem?_start hpiece)

end Course

end DeclarationWatch.Publish
