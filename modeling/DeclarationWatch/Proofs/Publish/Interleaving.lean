import DeclarationWatch.Proofs.Publish.Alone

namespace DeclarationWatch.Publish

open ChunkState (Event)

-- What a receiver answers to a chunk, by the number of requests that the chunk has made.
abbrev Replies := Nat → Answer

namespace ChunkState

-- What comes next for a chunk that has made so many requests.
def next? (replies : Replies) (made : Nat) : ChunkState → Option Event
  | .ready _ _ => some .send
  | .waiting _ _ => some (.answer (replies made))
  | .backoff _ _ => some .wake
  | .settled _ => none

-- The number of requests after an event.
def count (made : Nat) (state : ChunkState) (event : Event) : Nat :=
  made + (state.request? event).toList.length

variable {config : Config} {replies : Replies} {made : Nat} {state : ChunkState} {event : Event}

theorem remaining_of_next? (h : state.next? replies made = some event) :
    (state.step config event).remaining config < state.remaining config := by
  cases state with
  | ready attempt pending =>
      cases h
      simp [step, remaining]
  | waiting attempt pending =>
      cases h
      exact remaining_receive config attempt pending _
  | backoff attempt pending =>
      cases h
      simp only [step, remaining]
      omega
  | settled result => cases h

-- All that happens to a chunk from here on.
def turns (config : Config) (replies : Replies) (made : Nat) (state : ChunkState) : List Event :=
  match _h : state.next? replies made with
  | none => []
  | some event =>
      event :: turns config replies (count made state event) (state.step config event)
termination_by state.remaining config
decreasing_by exact remaining_of_next? _h

theorem turns_of_next? (h : state.next? replies made = some event) :
    turns config replies made state =
      event :: turns config replies (count made state event) (state.step config event) := by
  rw [turns]
  split
  · rename_i hnone
    rw [h] at hnone
    cases hnone
  · rename_i other hother
    rw [h] at hother
    cases hother
    rfl

theorem turns_of_next?_eq_none (h : state.next? replies made = none) :
    turns config replies made state = [] := by
  rw [turns]
  split
  · rfl
  · rename_i other hother
    rw [h] at hother
    cases hother

-- What a chunk is answered in these events is what its receiver answers.
def Heeds (config : Config) (replies : Replies) (made : Nat) (state : ChunkState)
    (events : List Event) : Prop :=
  ∀ before next later, events = before ++ next :: later → ∀ answer,
    (state.after config before).answer? next = some answer →
      answer = replies (made + (state.seen config request? before).length)

theorem heeds_nil : Heeds config replies made state [] := by
  simp [Heeds]

theorem heeds_cons {events : List Event} :
    Heeds config replies made state (event :: events) ↔
      (∀ answer, state.answer? event = some answer → answer = replies made) ∧
        Heeds config replies (count made state event) (state.step config event) events := by
  refine forall_split_cons.trans ?_
  simp only [Heeds, count, seen, after_nil, after_cons, List.length_nil, List.length_append,
    Nat.add_zero, Nat.add_assoc]

-- An event of a chunk is what comes next for it, or nothing happens.
theorem next?_or_still (hown : event ≠ .cancel)
    (hanswer : ∀ answer, state.answer? event = some answer → answer = replies made) :
    state.next? replies made = some event ∨
      state.step config event = state ∧ state.request? event = none := by
  cases state with
  | ready attempt pending =>
      cases event with
      | send => exact Or.inl rfl
      | cancel => exact absurd rfl hown
      | _ => exact Or.inr ⟨rfl, rfl⟩
  | waiting attempt pending =>
      cases event with
      | answer answer => exact Or.inl (by rw [hanswer answer rfl]; rfl)
      | cancel => exact absurd rfl hown
      | _ => exact Or.inr ⟨rfl, rfl⟩
  | backoff attempt pending =>
      cases event with
      | wake => exact Or.inl rfl
      | cancel => exact absurd rfl hown
      | _ => exact Or.inr ⟨rfl, rfl⟩
  | settled result => exact Or.inr ⟨rfl, rfl⟩

-- Whatever happens to a chunk in between, it takes its turns in order.
theorem exists_turns {events : List Event} (hown : .cancel ∉ events)
    (hheeds : Heeds config replies made state events) :
    ∃ taken, state.after config taken = state.after config events ∧
      state.seen config request? taken = state.seen config request? events ∧
      turns config replies made state = taken ++
        turns config replies (made + (state.seen config request? events).length)
          (state.after config events) := by
  induction events generalizing state made with
  | nil => exact ⟨[], rfl, rfl, rfl⟩
  | cons event events ih =>
      rw [heeds_cons] at hheeds
      simp only [List.mem_cons, not_or] at hown
      obtain ⟨taken, hafter, hseen, hturns⟩ := ih hown.2 hheeds.2
      rcases next?_or_still (Ne.symm hown.1) hheeds.1 with hnext | ⟨hstill, hquiet⟩
      · refine ⟨event :: taken, hafter, by rw [seen, hseen, seen], ?_⟩
        rw [turns_of_next? hnext, hturns]
        simp only [count, seen, after_cons, List.length_append, Nat.add_assoc, List.cons_append]
      · rw [count, hstill, hquiet] at hturns
        rw [hstill] at hafter hseen
        refine ⟨taken, ?_, ?_, ?_⟩
        · rw [hafter, after_cons, hstill]
        · rw [hseen, seen, hquiet, hstill, Option.toList_none, List.nil_append]
        · rw [seen, hquiet, hstill, after_cons, hstill, Option.toList_none, List.nil_append]
          exact hturns

theorem settled_after_turns (config : Config) (replies : Replies) (made : Nat)
    (state : ChunkState) : ∃ result, state.after config (turns config replies made state) =
      .settled result := by
  fun_induction turns config replies made state with
  | case1 made state hnone =>
      cases state with
      | settled result => exact ⟨result, rfl⟩
      | _ => cases hnone
  | case2 made state event hnext ih => exact ih

theorem cancel_notMem_turns (config : Config) (replies : Replies) (made : Nat)
    (state : ChunkState) : .cancel ∉ turns config replies made state := by
  fun_induction turns config replies made state with
  | case1 made state hnone => exact List.not_mem_nil
  | case2 made state event hnext ih =>
      rw [List.mem_cons, not_or]
      refine ⟨?_, ih⟩
      rintro rfl
      cases state <;> cases hnext

theorem heeds_turns (config : Config) (replies : Replies) (made : Nat) (state : ChunkState) :
    Heeds config replies made state (turns config replies made state) := by
  fun_induction turns config replies made state with
  | case1 made state hnone => exact heeds_nil
  | case2 made state event hnext ih =>
      refine heeds_cons.mpr ⟨fun answer hanswer => ?_, ih⟩
      cases state <;> cases hnext <;> cases hanswer
      rfl

end ChunkState

-- The moves of some chunks, each of which begins when the one before it has ended.
def movesInTurn (config : Config) (replies : Nat → Replies) : Nat → List (List Entry) → List Move
  | _, [] => []
  | first, piece :: pieces =>
      (ChunkState.turns config (replies first) 0 (.start piece)).map (.chunk first) ++
        movesInTurn config replies (first + 1) pieces

namespace Move

variable {config : Config} {replies : Nat → Replies} {index first : Nat}
  {pieces : List (List Entry)}

theorem events_map_chunk (index other : Nat) (given : List Event) :
    events index (given.map (.chunk other)) = if other = index then given else [] := by
  unfold events
  rw [List.filterMap_map]
  by_cases hother : other = index
  · have hall : event? index ∘ Move.chunk other = some := by
      funext event
      simp [event?, hother]
    rw [hall, if_pos hother, List.filterMap_some]
  · have hnone : event? index ∘ Move.chunk other = fun _ => none := by
      funext event
      simp [event?, hother]
    rw [hnone, if_neg hother, List.filterMap_none]

theorem events_movesInTurn_of_lt (h : index < first) :
    events index (movesInTurn config replies first pieces) = [] := by
  induction pieces generalizing first with
  | nil => rfl
  | cons piece pieces ih =>
      rw [movesInTurn, events_append, events_map_chunk, if_neg (by omega), ih (by omega),
        List.nil_append]

theorem events_movesInTurn {piece : List Entry} (h : pieces[index]? = some piece) :
    events (first + index) (movesInTurn config replies first pieces) =
      ChunkState.turns config (replies (first + index)) 0 (.start piece) := by
  induction pieces generalizing first index with
  | nil => cases h
  | cons head pieces ih =>
      rw [movesInTurn, events_append, events_map_chunk]
      cases index with
      | zero =>
          cases h
          rw [Nat.add_zero, if_pos rfl, events_movesInTurn_of_lt (by omega), List.append_nil]
      | succ index =>
          have hrest := @ih index (first + 1) h
          rw [if_neg (by omega), List.nil_append]
          rwa [Nat.add_right_comm first 1 index] at hrest

theorem isOwn_of_mem_movesInTurn {next : Move}
    (h : next ∈ movesInTurn config replies first pieces) : next.isOwn = true := by
  induction pieces generalizing first with
  | nil => cases h
  | cons piece pieces ih =>
      rcases List.mem_append.mp h with hhead | hrest
      · obtain ⟨event, hevent, rfl⟩ := List.mem_map.mp hhead
        refine isOwn_chunk_iff.mpr ?_
        rintro rfl
        exact ChunkState.cancel_notMem_turns _ _ _ _ hevent
      · exact ih hrest

end Move

namespace Course

section Answers

variable (config : Config) (sightings : List Sighting) (replies : Nat → Replies)

-- What a chunk is answered depends only on the chunk and on how many requests it has made.
def AnsweredBy (course : Course) : Prop :=
  ∀ before next later, course.moves = before ++ next :: later → ∀ index answer,
    Dispatch.seen? ChunkState.answer? index ((course.start config sightings).after config before)
      next = some answer →
    answer = replies index (Course.requests config sightings ⟨course.calledOff, before⟩ index).length

-- The chunks one after another, in order.
def inTurn : Course := ⟨false, movesInTurn config replies 0 (pieces config sightings)⟩

end Answers

variable {config : Config} {sightings : List Sighting} {course : Course} {index : Nat}
  {piece : List Entry} {replies : Nat → Replies} {result : Except PublishFailure Unit}

theorem answeredBy_iff : course.AnsweredBy config sightings replies ↔
    ∀ (index : Nat) piece, (pieces config sightings)[index]? = some piece →
      ChunkState.Heeds config (replies index) 0 (.start piece) (Move.events index course.moves) := by
  constructor
  · intro h index piece hpiece before event later hsplit answer hanswer
    obtain ⟨earlier, after, hmoves, rfl, -⟩ := Move.exists_split_of_events hsplit
    have hstate := getElem?_after course earlier hpiece
    have hseen : Dispatch.seen? ChunkState.answer? index
        ((course.start config sightings).after config earlier) (.chunk index event) =
          some answer := by
      simp only [Dispatch.seen?, if_true]
      exact (congrArg (Option.bind · _) hstate).trans hanswer
    rw [h earlier _ after hmoves index answer hseen,
      requests_eq ⟨course.calledOff, earlier⟩ hpiece, Nat.zero_add]
  · intro h before next later hmoves index answer hseen
    cases next with
    | callOff => cases hseen
    | chunk other event =>
        by_cases hother : other = index
        · subst hother
          simp only [Dispatch.seen?, if_true, Option.bind_eq_some_iff] at hseen
          obtain ⟨state, hstate, hanswer⟩ := hseen
          obtain ⟨piece, hpiece, hsame⟩ := exists_piece_of_after hstate
          have hsplit : Move.events other course.moves =
              Move.events other before ++ event :: Move.events other later := by
            rw [hmoves, Move.events_append]
            simp [Move.events, Move.event?]
          have hreply := h other piece hpiece _ _ _ hsplit answer (hsame ▸ hanswer)
          rwa [Nat.zero_add, ← requests_eq ⟨course.calledOff, before⟩ hpiece] at hreply
        · simp [Dispatch.seen?, hother] at hseen

theorem isUndisturbed_inTurn (config : Config) (sightings : List Sighting)
    (replies : Nat → Replies) : (inTurn config sightings replies).IsUndisturbed :=
  ⟨rfl, fun _ => Move.isOwn_of_mem_movesInTurn⟩

theorem events_inTurn (replies : Nat → Replies)
    (hpiece : (pieces config sightings)[index]? = some piece) :
    Move.events index (inTurn config sightings replies).moves =
      ChunkState.turns config (replies index) 0 (.start piece) := by
  have hevents := @Move.events_movesInTurn config replies index 0 _ _ hpiece
  rwa [Nat.zero_add] at hevents

theorem answeredBy_inTurn (config : Config) (sightings : List Sighting)
    (replies : Nat → Replies) :
    (inTurn config sightings replies).AnsweredBy config sightings replies := by
  refine answeredBy_iff.mpr fun index piece hpiece => ?_
  rw [events_inTurn replies hpiece]
  exact ChunkState.heeds_turns _ _ _ _

-- What a chunk has done is a part of what it does when it is taken in turn.
theorem IsUndisturbed.exists_turns (h : course.IsUndisturbed)
    (hanswered : course.AnsweredBy config sightings replies)
    (hpiece : (pieces config sightings)[index]? = some piece) :
    ∃ taken rest,
      Move.events index (inTurn config sightings replies).moves = taken ++ rest ∧
      (course.last config sightings).states[index]? =
        some ((ChunkState.start piece).after config taken) ∧
      course.requests config sightings index =
        (ChunkState.start piece).seen config ChunkState.request? taken ∧
      (∀ result, (ChunkState.start piece).after config taken = .settled result → rest = []) := by
  obtain ⟨taken, hafter, hseen, hturns⟩ := ChunkState.exists_turns
    (h.cancel_notMem_events index) (answeredBy_iff.mp hanswered index piece hpiece)
  rw [← events_inTurn replies hpiece] at hturns
  refine ⟨taken, _, hturns, ?_, ?_, ?_⟩
  · rw [getElem?_last course hpiece, hafter]
  · rw [requests_eq course hpiece, hseen]
  · intro result hsettled
    rw [← hafter, hsettled]
    exact ChunkState.turns_of_next?_eq_none rfl

theorem exists_yields_inTurn (config : Config) (sightings : List Sighting)
    (replies : Nat → Replies) :
    ∃ result, (inTurn config sightings replies).Yields config sightings result := by
  have hsettled : ∀ state ∈ ((inTurn config sightings replies).last config sightings).states,
      ∃ result, state = .settled result := by
    intro state hmem
    obtain ⟨index, hindex⟩ := List.mem_iff_getElem?.mp hmem
    obtain ⟨piece, hpiece⟩ := exists_piece hindex
    rw [getElem?_last _ hpiece, events_inTurn replies hpiece] at hindex
    obtain ⟨result, hresult⟩ := ChunkState.settled_after_turns config (replies index) 0
      (.start piece)
    exact ⟨result, (Option.some.inj hindex).symm.trans hresult⟩
  obtain ⟨settlements, hstates⟩ := Dispatch.exists_settlements hsettled
  exact ⟨conclude settlements, Dispatch.possible_of_isOwn
    (isUndisturbed_inTurn config sightings replies).own rfl, settlements, hstates, rfl⟩

theorem Yields.unique {other : Course} {second : Except PublishFailure Unit}
    (h : course.Yields config sightings result) (hother : other.Yields config sightings second)
    (hsame : (course.last config sightings).states = (other.last config sightings).states) :
    result = second := by
  obtain ⟨settlements, hsettled, rfl⟩ := h.settled
  obtain ⟨others, hothers, rfl⟩ := hother.settled
  have hmap : settlements.map ChunkState.settled = others.map ChunkState.settled :=
    hsettled.symm.trans (hsame.trans hothers)
  rw [List.map_injective_iff.mpr (fun _ _ => ChunkState.settled.inj) hmap]

-- In the end a chunk has done all that it does when it is taken in turn.
theorem Yields.eq_inTurn (hyields : course.Yields config sightings result)
    (h : course.IsUndisturbed) (hanswered : course.AnsweredBy config sightings replies) :
    (course.last config sightings).states =
        ((inTurn config sightings replies).last config sightings).states ∧
      ∀ index, course.requests config sightings index =
        (inTurn config sightings replies).requests config sightings index := by
  have hchunk : ∀ index : Nat, (course.last config sightings).states[index]? =
        ((inTurn config sightings replies).last config sightings).states[index]? ∧
      course.requests config sightings index =
        (inTurn config sightings replies).requests config sightings index := by
    intro index
    cases hpiece : (pieces config sightings)[index]? with
    | none =>
        refine ⟨?_, (requests_eq_nil hpiece).trans (requests_eq_nil hpiece).symm⟩
        rw [last, last, Dispatch.getElem?_after, Dispatch.getElem?_after]
        have hnone : ∀ other : Course, (other.start config sightings).states[index]? = none := by
          intro other
          rw [List.getElem?_eq_none_iff, length_pieces, ← List.getElem?_eq_none_iff, hpiece]
        rw [hnone, hnone]
        rfl
    | some piece =>
        obtain ⟨taken, rest, hturns, hlast, hrequests, hover⟩ := h.exists_turns hanswered hpiece
        obtain ⟨settlements, hsettled, -⟩ := hyields.settled
        have hstate := hlast
        rw [last, hsettled, List.getElem?_map, Option.map_eq_some_iff] at hstate
        obtain ⟨settlement, -, hsettlement⟩ := hstate
        rw [hover settlement hsettlement.symm, List.append_nil] at hturns
        rw [getElem?_last (inTurn config sightings replies) hpiece,
          requests_eq (inTurn config sightings replies) hpiece, hturns]
        exact ⟨hlast, hrequests⟩
  exact ⟨List.ext_getElem? fun index => (hchunk index).1, fun index => (hchunk index).2⟩

-- A publication that nobody calls off, with a receiver whose answers depend only on the chunk and on
-- how many requests it has made. In whatever order its chunks move, each of them makes the requests
-- that it makes when the chunks are taken one after another, and the result is the same.
theorem dispatch_eq_inTurn (config : Config) (sightings : List Sighting)
    (replies : Nat → Replies) :
    let reference := inTurn config sightings replies
    reference.IsUndisturbed ∧ reference.AnsweredBy config sightings replies ∧
      ∃ result, reference.Yields config sightings result ∧
        ∀ course : Course, course.IsUndisturbed → course.AnsweredBy config sightings replies →
          (∀ other, course.Yields config sightings other → other = result ∧
            ∀ index, course.requests config sightings index =
              reference.requests config sightings index) ∧
          (∀ index, course.requests config sightings index <+:
            reference.requests config sightings index) ∧
          (course.start config sightings).strides config course.moves ≤
            (pieces config sightings).length * (3 * config.attempts + 2) ∧
          ((course.last config sightings).IsOver config →
            course.Yields config sightings result) := by
  intro reference
  obtain ⟨result, hresult⟩ := exists_yields_inTurn config sightings replies
  refine ⟨isUndisturbed_inTurn config sightings replies,
    answeredBy_inTurn config sightings replies, result, hresult, fun course h hanswered => ?_⟩
  have hends : ∀ other, course.Yields config sightings other → other = result ∧
      ∀ index, course.requests config sightings index =
        reference.requests config sightings index := by
    intro other hyields
    obtain ⟨hstates, hrequests⟩ := hyields.eq_inTurn h hanswered
    exact ⟨hyields.unique hresult hstates, hrequests⟩
  refine ⟨hends, ?begun, ?bounded, ?returns⟩
  case begun =>
    intro index
    cases hpiece : (pieces config sightings)[index]? with
    | none =>
        rw [requests_eq_nil hpiece]
        exact List.nil_prefix
    | some piece =>
        obtain ⟨taken, rest, hturns, -, hrequests, -⟩ := h.exists_turns hanswered hpiece
        rw [hrequests, requests_eq _ hpiece, hturns, ChunkState.seen_append]
        exact List.prefix_append _ _
  case bounded =>
    refine (Dispatch.strides_le config _ _).trans (Nat.le_of_eq ?_)
    exact Dispatch.remaining_start config (pieces config sightings)
  case returns =>
    intro hover
    obtain ⟨settlements, hsettled⟩ := hover.exists_settlements
    have hyields : course.Yields config sightings (conclude settlements) :=
      ⟨Dispatch.possible_of_isOwn h.own h.running, settlements, hsettled, rfl⟩
    exact (hends _ hyields).1 ▸ hyields

-- Two chunks of one entry each. The second one begins first and is the first to run out of attempts.
theorem dispatch_eq_inTurn_crossed :
    let config : Config := { maxAttempts := 2, batchCeiling := 1 }
    let early : Sighting := ⟨"MRN-A", ⟨"G1", "OPEN", "v1", []⟩⟩
    let late : Sighting := ⟨"MRN-B", ⟨"G2", "OPEN", "v1", []⟩⟩
    let busy : Answer := .error (.sink "BUSY" "try later" false)
    let named : String → Answer := fun id => .ok [⟨id, false, "BUSY"⟩]
    let replies : Nat → Replies := fun index made =>
      if index = 1 then named "MRN-B-G2" else if made = 1 then busy else named "MRN-A-G1"
    let course : Course := ⟨false, [.chunk 1 .send, .chunk 0 .send,
      .chunk 1 (.answer (named "MRN-B-G2")), .chunk 1 .wake, .chunk 1 .send,
      .chunk 1 (.answer (named "MRN-B-G2")), .chunk 0 (.answer busy), .chunk 0 .wake,
      .chunk 0 .send, .chunk 0 (.answer (named "MRN-A-G1"))]⟩
    let reference := inTurn config [early, late] replies
    course.IsUndisturbed ∧ course.AnsweredBy config [early, late] replies ∧
      reference.Yields config [early, late]
        (.error (.retriesExhausted ["MRN-A-G1", "MRN-B-G2"])) ∧
      ∀ index, course.requests config [early, late] index =
        reference.requests config [early, late] index := by
  intro config early late busy named replies course reference
  have hundisturbed : course.IsUndisturbed := ⟨rfl, by simp [course, Move.isOwn]⟩
  have hpieces : pieces config [early, late] = [[.ofSighting early], [.ofSighting late]] := by
    simp [pieces, chunks, config, Config.ceiling]
  have hanswered : course.AnsweredBy config [early, late] replies := by
    refine answeredBy_iff.mpr fun index piece hpiece => ?_
    obtain ⟨hindex, -⟩ := List.getElem?_eq_some_iff.mp hpiece
    rw [hpieces] at hindex hpiece
    have hcases : index = 0 ∨ index = 1 := by
      simp only [List.length_cons, List.length_nil] at hindex
      omega
    rcases hcases with rfl | rfl <;> cases hpiece <;>
      simp [course, Move.events, Move.event?, ChunkState.heeds_cons, ChunkState.heeds_nil,
        ChunkState.start, ChunkState.count, ChunkState.request?, ChunkState.answer?,
        ChunkState.step, ChunkState.receive, ChunkState.afterAttempt, ChunkState.stillPending,
        Config.attempts, Entry.ofSighting, Sighting.identifier, config, early, late, busy, named,
        replies]
  have hyields : course.Yields config [early, late]
      (.error (.retriesExhausted ["MRN-A-G1", "MRN-B-G2"])) := by
    refine ⟨Dispatch.possible_of_isOwn hundisturbed.own hundisturbed.running,
      [.exhausted [.ofSighting early], .exhausted [.ofSighting late]], ?_, rfl⟩
    rw [start, Dispatch.start, ← pieces, hpieces]
    rfl
  obtain ⟨-, -, result, hresult, hcourse⟩ := dispatch_eq_inTurn config [early, late] replies
  obtain ⟨hends, -⟩ := hcourse course hundisturbed hanswered
  obtain ⟨rfl, hrequests⟩ := hends _ hyields
  exact ⟨hundisturbed, hanswered, hresult, hrequests⟩

end Course

end DeclarationWatch.Publish
