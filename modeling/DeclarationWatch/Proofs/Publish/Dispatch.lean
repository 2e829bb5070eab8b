import DeclarationWatch.Proofs.Keyed
import DeclarationWatch.Publish.Chunk
import Mathlib.Data.List.Basic

namespace DeclarationWatch.Publish

-- A publication under way: where its chunks stand, and whether it has been called off.
structure Dispatch where
  states : List ChunkState
  calledOff : Bool

inductive Move where
  | callOff
  | chunk (index : Nat) (event : ChunkState.Event)

-- A step that a chunk takes by itself: nothing is called off, and no chunk is broken off.
def Move.isOwn : Move → Bool
  | .callOff | .chunk _ .cancel => false
  | .chunk _ _ => true

theorem Move.isOwn_chunk_iff {index : Nat} {event : ChunkState.Event} :
    (Move.chunk index event).isOwn = true ↔ event ≠ .cancel := by
  cases event <;> simp [Move.isOwn]

namespace Dispatch

def start (config : Config) (entries : List Entry) (calledOff : Bool) : Dispatch :=
  ⟨(chunks config.ceiling entries).map ChunkState.start, calledOff⟩

-- No request starts after the publication is called off, and no chunk gives up before.
def Allows (dispatch : Dispatch) : Move → Prop
  | .chunk _ .send => dispatch.calledOff = false
  | .chunk _ .cancel => dispatch.calledOff = true
  | _ => True

-- The chunks move one at a time and in any order.
def move (config : Config) (dispatch : Dispatch) : Move → Dispatch
  | .callOff => { dispatch with calledOff := true }
  | .chunk index event =>
      { dispatch with states := dispatch.states.modify index fun state => state.step config event }

def after (config : Config) (dispatch : Dispatch) (moves : List Move) : Dispatch :=
  moves.foldl (move config) dispatch

-- Each of the moves is allowed where it is made.
def Possible (config : Config) (dispatch : Dispatch) (moves : List Move) : Prop :=
  ∀ before next after, moves = before ++ next :: after → (dispatch.after config before).Allows next

@[simp] theorem after_nil (config : Config) (dispatch : Dispatch) :
    dispatch.after config [] = dispatch := rfl

@[simp] theorem after_cons (config : Config) (dispatch : Dispatch) (next : Move)
    (moves : List Move) :
    dispatch.after config (next :: moves) = (dispatch.move config next).after config moves := rfl

theorem possible_nil (config : Config) (dispatch : Dispatch) : dispatch.Possible config [] := by
  simp [Possible]

theorem possible_cons (config : Config) (dispatch : Dispatch) (next : Move) (moves : List Move) :
    dispatch.Possible config (next :: moves) ↔
      dispatch.Allows next ∧ (dispatch.move config next).Possible config moves :=
  forall_split_cons

theorem possible_append_singleton (config : Config) (dispatch : Dispatch) (moves : List Move)
    (last : Move) :
    dispatch.Possible config (moves ++ [last]) ↔
      dispatch.Possible config moves ∧ (dispatch.after config moves).Allows last :=
  forall_split_append_singleton

theorem calledOff_after_iff (config : Config) (dispatch : Dispatch) (moves : List Move) :
    (dispatch.after config moves).calledOff = true ↔
      dispatch.calledOff = true ∨ .callOff ∈ moves := by
  induction moves generalizing dispatch with
  | nil => simp
  | cons next moves ih =>
      rw [after_cons, ih]
      cases next <;> simp [move]

-- Where nobody calls the publication off, nothing stands in the way of its chunks.
theorem possible_of_isOwn {config : Config} {dispatch : Dispatch} {moves : List Move}
    (hown : ∀ move ∈ moves, move.isOwn = true) (hrunning : dispatch.calledOff = false) :
    dispatch.Possible config moves := by
  rintro before next later rfl
  have hbefore : (dispatch.after config before).calledOff = false := by
    rw [← Bool.not_eq_true, calledOff_after_iff, hrunning]
    rintro (hoff | hoff)
    · cases hoff
    · cases hown .callOff (List.mem_append_left _ hoff)
  have hnext := hown next (by simp)
  cases next with
  | callOff => trivial
  | chunk other event =>
      cases event with
      | send => exact hbefore
      | cancel => cases hnext
      | _ => trivial

end Dispatch

-- How a publication went: whether it was called off before it began, and its moves.
structure Course where
  calledOff : Bool
  moves : List Move

namespace Course

variable (config : Config) (sightings : List Sighting)

def pieces : List (List Entry) := chunks config.ceiling (sightings.map Entry.ofSighting)

def start (course : Course) : Dispatch :=
  Dispatch.start config (sightings.map Entry.ofSighting) course.calledOff

-- The course is a possible one, it goes on until all chunks are settled, and it has this result.
structure Yields (course : Course) (result : Except PublishFailure Unit) : Prop where
  possible : (course.start config sightings).Possible config course.moves
  settled : ∃ settlements,
    ((course.start config sightings).after config course.moves).states =
      settlements.map ChunkState.settled ∧ result = conclude settlements

end Course

-- The receiver has taken the entry, or it has put the blame on the entry or on the request.
def Settles (id : String) : Answer → Prop
  | .ok rejections => ∀ rejection ∈ rejections, rejection.id = id → rejection.callerFault = true
  | .error (.sink _ _ true) => True
  | .error _ => False

-- The chunk ended with the entry neither taken nor blamed.
def Settlement.Drops (entry : Entry) : Settlement → Prop
  | .done => False
  | .exhausted pending => entry ∈ pending
  | .cancelled => True
  | .failed _ => True

namespace ChunkState

-- The entry is still to be settled by an answer.
def Holds (entry : Entry) : ChunkState → Prop
  | .ready _ pending => entry ∈ pending
  | .waiting _ pending => entry ∈ pending
  | .backoff _ pending => entry ∈ pending
  | .settled result => result.Drops entry

variable {config : Config} {attempt : Nat} {pending : List Entry} {entry : Entry}

theorem holds_afterAttempt (h : entry ∈ pending) :
    (afterAttempt config attempt pending).Holds entry := by
  unfold afterAttempt
  split
  · exact h
  · exact h

-- An answer settles an entry, or it stays with its chunk.
theorem holds_receive (answer : Answer) (h : entry ∈ pending) :
    (receive config attempt pending answer).Holds entry ∨ Settles entry.id answer := by
  by_cases hsettles : Settles entry.id answer
  · exact Or.inr hsettles
  · refine Or.inl ?_
    cases answer with
    | ok rejections =>
        have hstill : entry ∈ stillPending rejections pending := by
          simp only [Settles, not_forall, Bool.not_eq_true] at hsettles
          obtain ⟨rejection, hmem, hid, hfault⟩ := hsettles
          simp only [stillPending, List.mem_filter, List.any_eq_true]
          exact ⟨h, rejection, hmem, by simp [hid, hfault]⟩
        cases rejections with
        | nil => simp [Settles] at hsettles
        | cons rejection rest =>
            simp only [receive]
            split
            · rename_i hnone
              simp [hnone] at hstill
            · exact holds_afterAttempt hstill
    | error failure =>
        cases failure with
        | sink code message callerFault =>
            cases callerFault with
            | true => exact absurd trivial hsettles
            | false => exact holds_afterAttempt h
        | retriesExhausted ids => trivial
        | unencodable fault => trivial
        | cancelled => trivial

-- No other event takes an entry from its chunk.
theorem holds_step {state : ChunkState} (event : Event) (h : state.Holds entry) :
    (state.step config event).Holds entry ∨
      ∃ attempt pending answer, state = .waiting attempt pending ∧ entry ∈ pending ∧
        event = .answer answer ∧ Settles entry.id answer := by
  cases state with
  | ready attempt pending => cases event <;> first | exact Or.inl h | exact Or.inl trivial
  | waiting attempt pending =>
      cases event with
      | answer answer =>
          rcases holds_receive answer h with hholds | hsettles
          · exact Or.inl hholds
          · exact Or.inr ⟨attempt, pending, answer, rfl, h, rfl, hsettles⟩
      | send => exact Or.inl h
      | wake => exact Or.inl h
      | cancel => exact Or.inl trivial
  | backoff attempt pending => cases event <;> first | exact Or.inl h | exact Or.inl trivial
  | settled result => exact Or.inl h

end ChunkState

section Runs

variable {config : Config} {dispatch : Dispatch} {index : Nat} {state : ChunkState} {entry : Entry}

-- A move concerns one chunk at most.
theorem Dispatch.getElem?_move (next : Move) (h : dispatch.states[index]? = some state) :
    (dispatch.move config next).states[index]? = some state ∨
      ∃ event, next = .chunk index event ∧
        (dispatch.move config next).states[index]? = some (state.step config event) := by
  cases next with
  | callOff => exact Or.inl h
  | chunk other event =>
      by_cases hindex : other = index
      · subst hindex
        exact Or.inr ⟨event, rfl, by simp [Dispatch.move, h]⟩
      · exact Or.inl (by simp [Dispatch.move, h, hindex])

-- Over any moves an entry stays with its chunk, or an answer to one of its requests settles it.
theorem Dispatch.holds_after (moves : List Move) (hstate : dispatch.states[index]? = some state)
    (hholds : state.Holds entry) :
    (∃ last, (dispatch.after config moves).states[index]? = some last ∧ last.Holds entry) ∨
      ∃ before answer after attempt pending,
        moves = before ++ .chunk index (.answer answer) :: after ∧
        (dispatch.after config before).states[index]? = some (.waiting attempt pending) ∧
        entry ∈ pending ∧ Settles entry.id answer := by
  induction moves generalizing dispatch state with
  | nil => exact Or.inl ⟨state, hstate, hholds⟩
  | cons next moves ih =>
      have hnext : (∃ reached, (dispatch.move config next).states[index]? = some reached ∧
            reached.Holds entry) ∨
          ∃ answer attempt pending, next = .chunk index (.answer answer) ∧
            state = .waiting attempt pending ∧ entry ∈ pending ∧ Settles entry.id answer := by
        rcases Dispatch.getElem?_move next hstate with hsame | ⟨event, rfl, hmoved⟩
        · exact Or.inl ⟨state, hsame, hholds⟩
        · rcases ChunkState.holds_step event hholds with
            hstep | ⟨attempt, pending, answer, hwaiting, hpending, rfl, hsettles⟩
          · exact Or.inl ⟨_, hmoved, hstep⟩
          · exact Or.inr ⟨answer, attempt, pending, rfl, hwaiting, hpending, hsettles⟩
      rcases hnext with ⟨reached, hreached, hholds'⟩ |
        ⟨answer, attempt, pending, rfl, rfl, hpending, hsettles⟩
      · rcases ih hreached hholds' with
          hlast | ⟨before, answer, after, attempt, pending, rfl, hwaiting, hpending, hsettles⟩
        · exact Or.inl hlast
        · exact Or.inr ⟨next :: before, answer, after, attempt, pending, rfl, hwaiting, hpending,
            hsettles⟩
      · exact Or.inr ⟨[], answer, moves, attempt, pending, rfl, hstate, hpending, hsettles⟩

end Runs

section Conclusion

theorem heldFailure_append_singleton (results : List Settlement) (result : Settlement) :
    heldFailure (results ++ [result]) =
      match result.failure? with
      | some .cancelled => some .cancelled
      | failure => (heldFailure results).or failure := by
  unfold heldFailure
  refine List.foldl_append.trans ?_
  cases hfailure : result.failure? with
  | none => simp [hfailure]
  | some failure => cases failure <;> simp [hfailure]

theorem heldFailure_eq_none_iff (results : List Settlement) :
    heldFailure results = none ↔ ∀ result ∈ results, result.failure? = none := by
  induction results using List.reverseRecOn with
  | nil => simp [heldFailure]
  | append_singleton results result ih =>
      rw [heldFailure_append_singleton]
      cases hfailure : result.failure? with
      | none => simp [ih, or_imp, forall_and, hfailure]
      | some failure => cases failure <;> simp [or_imp, forall_and, hfailure]

-- Entries that ran out of attempts are no failure by themselves.
theorem heldFailure_ne_retriesExhausted (results : List Settlement) (ids : List String) :
    heldFailure results ≠ some (.retriesExhausted ids) := by
  induction results using List.reverseRecOn with
  | nil => simp [heldFailure]
  | append_singleton results result ih =>
      rw [heldFailure_append_singleton]
      cases result with
      | done => simpa [Settlement.failure?] using ih
      | exhausted pending => simpa [Settlement.failure?] using ih
      | cancelled => simp [Settlement.failure?]
      | failed failure =>
          cases failure with
          | retriesExhausted others => simpa [Settlement.failure?] using ih
          | cancelled => simp [Settlement.failure?]
          | sink _ _ _ | unencodable _ =>
              cases hheld : heldFailure results with
              | none => simp [Settlement.failure?]
              | some held => simpa [Settlement.failure?, hheld] using ih

-- A publication that leaves an entry behind fails, and the report of exhausted retries names the
-- entry. The exception is a receiver that reports exhausted retries itself: it may name no entry.
theorem conclude_of_drops {results : List Settlement} {result : Settlement} {entry : Entry}
    (hmem : result ∈ results) (hdrops : result.Drops entry)
    (hown : ∀ ids, result ≠ .failed (.retriesExhausted ids)) :
    ∃ failure, conclude results = .error failure ∧
      ∀ ids, failure = .retriesExhausted ids → entry.id ∈ ids := by
  unfold conclude
  cases hheld : heldFailure results with
  | some failure =>
      refine ⟨failure, rfl, ?_⟩
      rintro ids rfl
      exact absurd hheld (heldFailure_ne_retriesExhausted results ids)
  | none =>
      have hnone := (heldFailure_eq_none_iff results).mp hheld result hmem
      cases result with
      | done => exact absurd hdrops id
      | cancelled => cases hnone
      | failed failure =>
          cases failure with
          | retriesExhausted ids => exact absurd rfl (hown ids)
          | _ => cases hnone
      | exhausted pending =>
          have hid : entry.id ∈ results.flatMap Settlement.undelivered :=
            List.mem_flatMap.mpr ⟨_, hmem, List.mem_map_of_mem hdrops⟩
          cases hids : results.flatMap Settlement.undelivered with
          | nil => simp [hids] at hid
          | cons first rest =>
              refine ⟨_, rfl, ?_⟩
              rintro ids hsame
              rw [hids] at hid
              exact PublishFailure.retriesExhausted.inj hsame ▸ hid

end Conclusion

namespace Course

variable {config : Config} {sightings : List Sighting} {course : Course}

-- A request with the entry was answered, and the answer settled the entry.
def Delivers (config : Config) (sightings : List Sighting) (course : Course) (entry : Entry) :
    Prop :=
  ∃ before index answer after attempt pending,
    course.moves = before ++ .chunk index (.answer answer) :: after ∧
    ((course.start config sightings).after config before).states[index]? =
      some (.waiting attempt pending) ∧
    entry ∈ pending ∧ Settles entry.id answer

-- The chunk of the entry came to an end without it.
def Drops (config : Config) (sightings : List Sighting) (course : Course) (entry : Entry)
    (result : Settlement) : Prop :=
  ∃ (index : Nat) (piece : List Entry), (pieces config sightings)[index]? = some piece ∧
    entry ∈ piece ∧ ((course.start config sightings).after config course.moves).states[index]? =
      some (ChunkState.settled result) ∧ result.Drops entry

theorem delivers_or_drops {result : Except PublishFailure Unit}
    (h : course.Yields config sightings result) {sighting : Sighting}
    (hsighting : sighting ∈ sightings) :
    course.Delivers config sightings (.ofSighting sighting) ∨
      ∃ settlement, course.Drops config sightings (.ofSighting sighting) settlement ∧
        ((∀ ids, settlement ≠ .failed (.retriesExhausted ids)) →
          ∃ failure, result = .error failure ∧
            ∀ ids, failure = .retriesExhausted ids → sighting.identifier ∈ ids) := by
  have hentry : Entry.ofSighting sighting ∈ (pieces config sightings).flatten := by
    rw [pieces, flatten_chunks]
    exact List.mem_map_of_mem hsighting
  obtain ⟨piece, hpiece, hin⟩ := List.mem_flatten.mp hentry
  obtain ⟨index, hindex⟩ := List.mem_iff_getElem?.mp hpiece
  have hstart : (course.start config sightings).states[index]? = some (ChunkState.start piece) := by
    rw [start, Dispatch.start, List.getElem?_map, ← pieces, hindex]
    rfl
  rcases Dispatch.holds_after course.moves hstart hin with
    ⟨last, hlast, hholds⟩ | ⟨before, answer, after, attempt, pending, hdelivered⟩
  · obtain ⟨settlements, hsettled, hresult⟩ := h.settled
    rw [hsettled, List.getElem?_map, Option.map_eq_some_iff] at hlast
    obtain ⟨settlement, hsettlement, rfl⟩ := hlast
    refine Or.inr ⟨settlement, ⟨index, piece, hindex, hin, ?_, hholds⟩, fun hown => ?_⟩
    · rw [hsettled, List.getElem?_map, hsettlement]
      rfl
    · rw [hresult]
      exact conclude_of_drops (List.mem_of_getElem? hsettlement) hholds hown
  · exact Or.inl ⟨before, index, answer, after, attempt, pending, hdelivered⟩

end Course

end DeclarationWatch.Publish
