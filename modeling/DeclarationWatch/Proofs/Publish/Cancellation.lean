import DeclarationWatch.Proofs.Publish.Alone

namespace DeclarationWatch.Publish

open ChunkState (Event)

namespace ChunkState

variable {config : Config} {state : ChunkState} {event : Event} {attempt : Nat}
  {pending : List Entry} {answer : Answer}

theorem eq_exhausted_of_afterAttempt {result : Settlement}
    (h : afterAttempt config attempt pending = .settled result) : result = .exhausted pending := by
  rcases afterAttempt_cases config attempt pending with ⟨-, hrests⟩ | ⟨-, hspent⟩
  · cases hrests.symm.trans h
  · exact ChunkState.settled.inj (h.symm.trans hspent)

-- Something breaks the chunk off before it has settled.
def Breaks (config : Config) (state : ChunkState) (events : List Event) : Prop :=
  ∃ before later, events = before ++ .cancel :: later ∧
    ∀ result, state.after config before ≠ .settled result

theorem breaks_cons {events : List Event} :
    Breaks config state (event :: events) ↔
      (event = .cancel ∧ ∀ result, state ≠ .settled result) ∨
        Breaks config (state.step config event) events := by
  constructor
  · rintro ⟨before, later, hsplit, hopen⟩
    cases before with
    | nil =>
        cases hsplit
        exact Or.inl ⟨rfl, hopen⟩
    | cons first before =>
        cases hsplit
        exact Or.inr ⟨before, later, rfl, hopen⟩
  · rintro (⟨rfl, hopen⟩ | ⟨before, later, rfl, hopen⟩)
    · exact ⟨[], events, rfl, hopen⟩
    · exact ⟨event :: before, later, rfl, hopen⟩

theorem receive_eq_cancelled_iff :
    receive config attempt pending answer = .settled .cancelled ↔ answer = .error .cancelled := by
  constructor
  · intro h
    rcases receive_cases config attempt pending answer with
      ⟨-, hdone | hafter⟩ | ⟨hanswer, -⟩ | ⟨failure, -, -, hfailed⟩
    · rw [h] at hdone
      cases hdone
    · cases eq_exhausted_of_afterAttempt (hafter.symm.trans h)
    · exact hanswer
    · rw [h] at hfailed
      cases hfailed
  · rintro rfl
    rfl

theorem step_eq_cancelled_iff :
    state.step config event = .settled .cancelled ↔
      state = .settled .cancelled ∨ (event = .cancel ∧ ∀ result, state ≠ .settled result) ∨
        state.answer? event = some (.error .cancelled) := by
  cases state with
  | ready attempt pending => cases event <;> simp [step, answer?]
  | waiting attempt pending => cases event <;> simp [step, answer?, receive_eq_cancelled_iff]
  | backoff attempt pending => cases event <;> simp [step, answer?]
  | settled result => simp [step, answer?]

-- A chunk ends as cancelled if it is broken off, or if its receiver says so.
theorem after_eq_cancelled_iff (events : List Event) :
    state.after config events = .settled .cancelled ↔
      state = .settled .cancelled ∨ Breaks config state events ∨
        .error .cancelled ∈ state.seen config answer? events := by
  induction events generalizing state with
  | nil => simp [Breaks, seen]
  | cons event events ih =>
      rw [after_cons, ih, step_eq_cancelled_iff, breaks_cons, seen, List.mem_append,
        Option.mem_toList]
      tauto

-- The failure of a receiver is kept as it is, but a cancellation is none of them.
theorem step_ne_failed_cancelled (h : state ≠ .settled (.failed .cancelled)) :
    state.step config event ≠ .settled (.failed .cancelled) := by
  cases state with
  | waiting attempt pending =>
      cases event with
      | answer answer =>
          intro hfailed
          rcases receive_cases config attempt pending answer with
            ⟨-, hdone | hafter⟩ | ⟨-, hcancelled⟩ | ⟨failure, hne, -, hreceived⟩
          · cases hdone.symm.trans hfailed
          · cases eq_exhausted_of_afterAttempt (hafter.symm.trans hfailed)
          · cases hcancelled.symm.trans hfailed
          · cases hreceived.symm.trans hfailed
            exact hne rfl
      | _ => nofun
  | settled result => exact h
  | _ => cases event <;> nofun

theorem after_ne_failed_cancelled (h : state ≠ .settled (.failed .cancelled))
    (events : List Event) : state.after config events ≠ .settled (.failed .cancelled) := by
  induction events generalizing state with
  | nil => exact h
  | cons event events ih => exact ih (step_ne_failed_cancelled h)

-- A chunk that has made no request still stands at its beginning, unless it was broken off.
theorem after_ready_of_silent {events : List Event}
    (h : (ready attempt pending).seen config request? events = []) :
    (ready attempt pending).after config events = .ready attempt pending ∨
      (ready attempt pending).after config events = .settled .cancelled := by
  induction events with
  | nil => exact Or.inl rfl
  | cons event events ih =>
      cases event with
      | send => simp [seen, request?] at h
      | cancel => exact Or.inr (after_settled config .cancelled events)
      | answer answer => exact ih h
      | wake => exact ih h

end ChunkState

section Conclusion

-- A cancellation comes before every other failure.
theorem heldFailure_eq_cancelled_iff (results : List Settlement) :
    heldFailure results = some .cancelled ↔
      ∃ result ∈ results, result.failure? = some .cancelled := by
  induction results using List.reverseRecOn with
  | nil => simp [heldFailure]
  | append_singleton results result ih =>
      rw [heldFailure_append_singleton]
      simp only [List.mem_append, List.mem_singleton, or_and_right, exists_or, exists_eq_left, ← ih]
      cases hfailure : result.failure? with
      | none => simp
      | some failure =>
          cases failure with
          | cancelled => simp
          | _ => cases heldFailure results <;> simp

theorem conclude_eq_cancelled_iff (results : List Settlement) :
    conclude results = .error .cancelled ↔
      ∃ result ∈ results, result.failure? = some .cancelled := by
  rw [← heldFailure_eq_cancelled_iff]
  unfold conclude
  cases hheld : heldFailure results with
  | some failure => simp
  | none => cases results.flatMap Settlement.undelivered <;> simp

end Conclusion

namespace Dispatch

variable {config : Config} {dispatch other : Dispatch} {moves : List Move}

-- Nothing is seen of a publication that has been called off where only requests would show.
theorem seen_eq_nil_of_calledOff {α : Type} {look : Dispatch → Move → Option α}
    (hlook : ∀ dispatch next, (∀ index, next ≠ .chunk index .send) → look dispatch next = none)
    (hpossible : dispatch.Possible config moves) (hoff : dispatch.calledOff = true) :
    dispatch.seen config look moves = [] := by
  induction moves generalizing dispatch with
  | nil => rfl
  | cons next moves ih =>
      obtain ⟨hallowed, hrest⟩ := (possible_cons config dispatch next moves).mp hpossible
      have hnext : look dispatch next = none := by
        refine hlook dispatch next ?_
        rintro index rfl
        exact absurd (hoff.symm.trans hallowed) (by decide)
      have hstill : (dispatch.move config next).calledOff = true := by
        cases next with
        | callOff => rfl
        | chunk index event => exact hoff
      rw [seen, hnext, ih hrest hstill]
      rfl

theorem Possible.of_append {before later : List Move}
    (h : dispatch.Possible config (before ++ later)) :
    (dispatch.after config before).Possible config later := by
  rintro earlier next rest rfl
  have hnext := h (before ++ earlier) next rest (by simp)
  rwa [after, List.foldl_append] at hnext

theorem sent?_eq_none {next : Move} (h : ∀ index, next ≠ .chunk index .send) :
    dispatch.sent? next = none := by
  cases next with
  | callOff => rfl
  | chunk index event =>
      cases event with
      | send => exact absurd rfl (h index)
      | _ =>
          simp only [sent?]
          cases dispatch.states[index]? with
          | none => rfl
          | some state => cases state <;> rfl

theorem seen?_eq_none {next : Move} {index : Nat} (h : ∀ index, next ≠ .chunk index .send) :
    seen? ChunkState.request? index dispatch next = none := by
  cases next with
  | callOff => rfl
  | chunk other event =>
      have hsent : dispatch.sent? (.chunk other event) = none := sent?_eq_none h
      by_cases hother : other = index
      · subst hother
        simpa [seen?, sent?] using hsent
      · simp [seen?, hother]

-- The moves that are not a chunk's own change nothing about any chunk.
def OthersIdle (config : Config) (dispatch : Dispatch) (moves : List Move) : Prop :=
  ∀ before next later, moves = before ++ next :: later → next.isOwn = false →
    ((dispatch.after config before).move config next).states =
      (dispatch.after config before).states

theorem states_move_congr (hstates : other.states = dispatch.states) (next : Move) :
    (other.move config next).states = (dispatch.move config next).states := by
  cases next with
  | callOff => exact hstates
  | chunk index event => simp only [move, hstates]

-- Such moves can be left out.
theorem after_filter_isOwn (hothers : dispatch.OthersIdle config moves)
    (hstates : other.states = dispatch.states) :
    (other.after config (moves.filter Move.isOwn)).states =
      (dispatch.after config moves).states := by
  induction moves generalizing dispatch other with
  | nil => exact hstates
  | cons next moves ih =>
      obtain ⟨hfirst, hrest⟩ := forall_split_cons.mp hothers
      cases hown : next.isOwn with
      | true =>
          rw [List.filter_cons_of_pos hown]
          exact ih hrest (states_move_congr hstates next)
      | false =>
          rw [List.filter_cons_of_neg (by simp [hown])]
          exact ih hrest (hstates.trans (hfirst hown).symm)

theorem seen_filter_isOwn {α : Type} {look : Dispatch → Move → Option α}
    (hcongr : ∀ first second : Dispatch, first.states = second.states → look first = look second)
    (hlook : ∀ dispatch next, next.isOwn = false → look dispatch next = none)
    (hothers : dispatch.OthersIdle config moves) (hstates : other.states = dispatch.states) :
    other.seen config look (moves.filter Move.isOwn) = dispatch.seen config look moves := by
  induction moves generalizing dispatch other with
  | nil => rfl
  | cons next moves ih =>
      obtain ⟨hfirst, hrest⟩ := forall_split_cons.mp hothers
      cases hown : next.isOwn with
      | true =>
          rw [List.filter_cons_of_pos hown, seen, seen, hcongr other dispatch hstates,
            ih hrest (states_move_congr hstates next)]
      | false =>
          rw [List.filter_cons_of_neg (by simp [hown]), seen, hlook dispatch next hown,
            Option.toList_none, List.nil_append]
          exact ih hrest (hstates.trans (hfirst hown).symm)

-- No move that is allowed changes anything about any chunk.
def AtRest (config : Config) (dispatch : Dispatch) : Prop :=
  ∀ next, dispatch.Allows next → (dispatch.move config next).states = dispatch.states

-- A publication that cannot go on has come to its end, called off or not.
theorem AtRest.exists_settlements (h : dispatch.AtRest config) :
    ∃ settlements : List Settlement, dispatch.states = settlements.map ChunkState.settled := by
  refine Dispatch.exists_settlements fun state hmem => ?_
  obtain ⟨index, hindex⟩ := List.mem_iff_getElem?.mp hmem
  have hstill : ∀ event, dispatch.Allows (.chunk index event) →
      state.step config event = state := by
    intro event hallowed
    have hsame := congrArg (·[index]?) (h _ hallowed)
    simpa [move, hindex] using hsame
  cases hoff : dispatch.calledOff with
  | true =>
      have hcancel := hstill .cancel hoff
      cases state with
      | settled result => exact ⟨result, rfl⟩
      | _ => cases hcancel
  | false =>
      cases state with
      | ready attempt pending => cases hstill .send hoff
      | waiting attempt pending => cases hstill (.answer (.ok [])) trivial
      | backoff attempt pending => cases hstill .wake trivial
      | settled result => exact ⟨result, rfl⟩

end Dispatch

namespace Course

section Breaking

variable (config : Config) (sightings : List Sighting) (course : Course) (index : Nat)

-- The chunk is stopped before an attempt, while it waits for an answer, or in a rest.
def BreaksOff : Prop :=
  ∃ before later state, course.moves = before ++ .chunk index .cancel :: later ∧
    ((course.start config sightings).after config before).states[index]? = some state ∧
    ∀ result, state ≠ .settled result

-- The same course with a publication that nobody calls off.
def undisturbed : Course := ⟨false, course.moves.filter Move.isOwn⟩

end Breaking

variable {config : Config} {sightings : List Sighting} {course : Course} {index : Nat}
  {piece : List Entry} {result : Except PublishFailure Unit}

theorem breaksOff_iff (hpiece : (pieces config sightings)[index]? = some piece) :
    course.BreaksOff config sightings index ↔
      ChunkState.Breaks config (.start piece) (Move.events index course.moves) := by
  constructor
  · rintro ⟨before, later, state, hmoves, hstate, hopen⟩
    have hbefore := getElem?_after course before hpiece
    refine ⟨Move.events index before, Move.events index later, ?_, ?_⟩
    · rw [hmoves, Move.events_append]
      simp [Move.events, Move.event?]
    · rwa [← Option.some.inj (hstate.symm.trans hbefore)]
  · rintro ⟨before, later, hevents, hopen⟩
    obtain ⟨earlier, after, hmoves, rfl, -⟩ := Move.exists_split_of_events hevents
    exact ⟨earlier, after, _, hmoves,
      getElem?_after course earlier hpiece, hopen⟩

-- What else is called off finds its chunk settled.
theorem othersIdle (h : ∀ index, ¬course.BreaksOff config sightings index) :
    (course.start config sightings).OthersIdle config course.moves := by
  intro before next later hmoves hother
  cases next with
  | callOff => rfl
  | chunk index event =>
      have hcancel : event = .cancel := by
        by_contra hne
        rw [Move.isOwn_chunk_iff.mpr hne] at hother
        cases hother
      subst hcancel
      refine List.ext_getElem? fun place => ?_
      by_cases hplace : index = place
      · subst hplace
        simp only [Dispatch.move, List.getElem?_modify_eq]
        cases hstate : ((course.start config sightings).after config before).states[index]? with
        | none => rfl
        | some state =>
            have hsettled : ∃ result, state = .settled result := by
              by_contra hopen
              exact h index ⟨before, later, state, hmoves, hstate, not_exists.mp hopen⟩
            obtain ⟨result, rfl⟩ := hsettled
            rfl
      · simp [Dispatch.move, hplace]

-- A chunk ends as cancelled if it is broken off, or if its receiver says so.
theorem exists_cancelled_iff :
    (∃ index : Nat, (course.last config sightings).states[index]? = some (.settled .cancelled)) ↔
      ∃ index, course.BreaksOff config sightings index ∨
        .error .cancelled ∈ course.answers config sightings index := by
  refine exists_congr fun index => ?_
  cases hpiece : (pieces config sightings)[index]? with
  | none =>
      have hanswers : course.answers config sightings index = [] := by
        refine Dispatch.seen_eq_nil _ _ _ ?_
        rw [length_pieces]
        exact List.getElem?_eq_none_iff.mp hpiece
      constructor
      · intro hlast
        obtain ⟨piece, hsome⟩ := exists_piece hlast
        cases hpiece.symm.trans hsome
      · rintro (⟨before, later, state, -, hstate, -⟩ | hanswer)
        · obtain ⟨piece, hsome, -⟩ := exists_piece_of_after hstate
          cases hpiece.symm.trans hsome
        · rw [hanswers] at hanswer
          cases hanswer
  | some piece =>
      rw [getElem?_last course hpiece, Option.some_inj, ChunkState.after_eq_cancelled_iff,
        ← breaksOff_iff hpiece, ← answers_eq course hpiece]
      simp [ChunkState.start]

theorem Yields.eq_cancelled_iff (h : course.Yields config sightings result) :
    result = .error .cancelled ↔
      ∃ index : Nat, (course.last config sightings).states[index]? =
        some (.settled .cancelled) := by
  obtain ⟨settlements, hsettled, rfl⟩ := h.settled
  have hlast : ∀ index : Nat, (course.last config sightings).states[index]? =
      settlements[index]?.map ChunkState.settled := by
    intro index
    rw [last, hsettled, List.getElem?_map]
  rw [conclude_eq_cancelled_iff]
  constructor
  · rintro ⟨settlement, hmem, hfailure⟩
    obtain ⟨index, hindex⟩ := List.mem_iff_getElem?.mp hmem
    have hstate := hlast index
    rw [hindex, Option.map_some] at hstate
    refine ⟨index, ?_⟩
    cases settlement with
    | cancelled => exact hstate
    | failed failure =>
        obtain ⟨piece, hpiece⟩ := exists_piece hstate
        rw [getElem?_last course hpiece] at hstate
        have hstart : ChunkState.start piece ≠ .settled (.failed .cancelled) := by
          intro hfailed
          cases hfailed
        have hne := @ChunkState.after_ne_failed_cancelled config _ hstart
          (Move.events index course.moves)
        cases failure with
        | cancelled => exact absurd (Option.some.inj hstate) hne
        | _ => cases hfailure
    | _ => cases hfailure
  · rintro ⟨index, hindex⟩
    rw [hlast, Option.map_eq_some_iff] at hindex
    obtain ⟨settlement, hsettlement, hcancelled⟩ := hindex
    cases hcancelled
    exact ⟨.cancelled, List.mem_of_getElem? hsettlement, rfl⟩

-- A publication that breaks no chunk off is the one that nobody has called off.
theorem undisturbed_of_not_breaksOff (h : ∀ index, ¬course.BreaksOff config sightings index) :
    course.undisturbed.IsUndisturbed ∧
      (course.undisturbed.last config sightings).states =
        (course.last config sightings).states ∧
      course.undisturbed.sent config sightings = course.sent config sightings ∧
      ∀ index, course.undisturbed.answers config sightings index =
        course.answers config sightings index := by
  have hidle := othersIdle h
  refine ⟨⟨rfl, fun next hnext => (List.mem_filter.mp hnext).2⟩,
    Dispatch.after_filter_isOwn hidle rfl, ?sent, fun index => ?answers⟩
  case sent =>
    refine Dispatch.seen_filter_isOwn (fun first second hsame => ?_) (fun dispatch next hother => ?_)
      hidle rfl
    · funext next
      cases next with
      | callOff => rfl
      | chunk index event => simp only [Dispatch.sent?, hsame]
    · refine Dispatch.sent?_eq_none ?_
      rintro index rfl
      cases hother
  case answers =>
    refine Dispatch.seen_filter_isOwn (fun first second hsame => ?_) (fun dispatch next hother => ?_)
      hidle rfl
    · funext next
      cases next with
      | callOff => rfl
      | chunk other event => simp only [Dispatch.seen?, hsame]
    · cases next with
      | callOff => rfl
      | chunk other event =>
          cases event with
          | cancel =>
              simp only [Dispatch.seen?]
              split
              · cases dispatch.states[index]? with
                | none => rfl
                | some state => cases state <;> rfl
              · rfl
          | _ => cases hother

-- What has been called off before it begins has no chunk that begins.
theorem Yields.eq_cancelled_of_calledOff (h : course.Yields config sightings result)
    (hoff : course.calledOff = true) (hne : sightings ≠ []) : result = .error .cancelled := by
  have hpieces : pieces config sightings ≠ [] := by
    intro hnone
    have hflat := flatten_chunks config.ceiling (sightings.map Entry.ofSighting)
    rw [← pieces, hnone] at hflat
    exact hne (List.map_eq_nil_iff.mp hflat.symm)
  obtain ⟨piece, hpiece⟩ : ∃ piece, (pieces config sightings)[0]? = some piece :=
    ⟨_, List.getElem?_eq_getElem (List.length_pos_iff.mpr hpieces)⟩
  have hsilent : course.requests config sightings 0 = [] :=
    Dispatch.seen_eq_nil_of_calledOff (fun _ _ => Dispatch.seen?_eq_none) h.possible hoff
  rw [requests_eq course hpiece] at hsilent
  refine h.eq_cancelled_iff.mpr ⟨0, ?_⟩
  rw [getElem?_last course hpiece]
  rcases ChunkState.after_ready_of_silent hsilent with hready | hcancelled
  · obtain ⟨settlements, hsettled, -⟩ := h.settled
    have hlast := getElem?_last course hpiece
    rw [last, hsettled, List.getElem?_map, Option.map_eq_some_iff] at hlast
    obtain ⟨settlement, -, hsettlement⟩ := hlast
    cases hsettlement.trans hready
  · exact congrArg some hcancelled

-- A publication that is called off at some moment, or before it begins, in whatever order its chunks
-- move and whatever its receiver answers. No request starts from that moment on. It returns in the
-- end, and as cancelled if one of its chunks is broken off or the receiver itself answers so, and in
-- no other case. If no chunk is broken off it might as well not have been called off.
theorem publication_called_off (config : Config) (sightings : List Sighting) (course : Course)
    (hpossible : (course.start config sightings).Possible config course.moves) :
    (∀ before later, course.moves = before ++ later →
      course.calledOff = true ∨ .callOff ∈ before →
      ((course.start config sightings).after config before).seen config Dispatch.sent? later =
        []) ∧
    (∀ result, course.Yields config sightings result →
      (result = .error .cancelled ↔ ∃ index, course.BreaksOff config sightings index ∨
        .error .cancelled ∈ course.answers config sightings index)) ∧
    ((∀ index, ¬course.BreaksOff config sightings index) →
      course.undisturbed.IsUndisturbed ∧
      course.undisturbed.sent config sightings = course.sent config sightings ∧
      (∀ index, course.undisturbed.answers config sightings index =
        course.answers config sightings index) ∧
      ∀ result, course.Yields config sightings result →
        course.undisturbed.Yields config sightings result) ∧
    (course.calledOff = true → sightings ≠ [] → course.sent config sightings = [] ∧
      ∀ result, course.Yields config sightings result → result = .error .cancelled) ∧
    (course.start config sightings).strides config course.moves ≤
      (pieces config sightings).length * (3 * config.attempts + 2) ∧
    ((course.last config sightings).AtRest config →
      ∃ result, course.Yields config sightings result) := by
  have hquiet : ∀ before later, course.moves = before ++ later →
      course.calledOff = true ∨ .callOff ∈ before →
      ((course.start config sightings).after config before).seen config Dispatch.sent? later =
        [] := by
    intro before later hmoves hoff
    rw [hmoves] at hpossible
    exact Dispatch.seen_eq_nil_of_calledOff (fun _ _ => Dispatch.sent?_eq_none)
      hpossible.of_append ((Dispatch.calledOff_after_iff config _ before).mpr hoff)
  refine ⟨hquiet, fun result hyields => hyields.eq_cancelled_iff.trans exists_cancelled_iff,
    fun hnone => ?undisturbed, fun hoff hne => ⟨hquiet [] course.moves rfl (Or.inl hoff),
      fun result hyields => hyields.eq_cancelled_of_calledOff hoff hne⟩, ?strides,
    fun hrest => ?returns⟩
  case undisturbed =>
    obtain ⟨hundisturbed, hstates, hsent, hanswers⟩ := undisturbed_of_not_breaksOff hnone
    refine ⟨hundisturbed, hsent, hanswers, fun result hyields => ?_⟩
    obtain ⟨settlements, hsettled, hresult⟩ := hyields.settled
    exact ⟨Dispatch.possible_of_isOwn hundisturbed.own hundisturbed.running, settlements,
      hstates.trans hsettled, hresult⟩
  case strides =>
    refine (Dispatch.strides_le config _ _).trans (Nat.le_of_eq ?_)
    exact Dispatch.remaining_start config (pieces config sightings)
  case returns =>
    obtain ⟨settlements, hsettled⟩ := hrest.exists_settlements
    exact ⟨conclude settlements, hpossible, settlements, hsettled, rfl⟩

-- Two chunks of one entry each. The second one runs out of attempts, the first one is in its rest
-- when the publication is called off.
theorem publication_called_off_in_rest :
    let config : Config := { maxAttempts := 2, batchCeiling := 1 }
    let resting : Sighting := ⟨"MRN-A", ⟨"G1", "OPEN", "v1", []⟩⟩
    let lost : Sighting := ⟨"MRN-B", ⟨"G2", "OPEN", "v1", []⟩⟩
    let busy : Answer := .error (.sink "BUSY" "try later" false)
    let moves : List Move := [.chunk 1 .send, .chunk 1 (.answer busy), .chunk 0 .send, .chunk 1 .wake,
      .chunk 1 .send, .chunk 0 (.answer busy), .chunk 1 (.answer busy)]
    let course : Course := ⟨false, moves ++ [.callOff, .chunk 0 .cancel]⟩
    (course.start config [resting, lost]).Possible config course.moves ∧
      course.sent config [resting, lost] =
        [[.ofSighting lost], [.ofSighting resting], [.ofSighting lost]] ∧
      course.BreaksOff config [resting, lost] 0 ∧
      course.Yields config [resting, lost] (.error .cancelled) := by
  intro config resting lost busy moves course
  have hstart : course.start config [resting, lost] =
      ⟨[ChunkState.start [.ofSighting resting], ChunkState.start [.ofSighting lost]], false⟩ := by
    simp [start, Dispatch.start, config, Config.ceiling, chunks, course]
  have hpossible : (course.start config [resting, lost]).Possible config course.moves := by
    refine (Dispatch.possible_append_singleton config _ (moves ++ [.callOff]) _).mpr ⟨?_, ?_⟩
    · refine (Dispatch.possible_append_singleton config _ moves _).mpr ⟨?_, trivial⟩
      exact Dispatch.possible_of_isOwn (by simp [moves, Move.isOwn]) rfl
    · exact (Dispatch.calledOff_after_iff config _ _).mpr (Or.inr (by simp))
  have hbroken : course.BreaksOff config [resting, lost] 0 := by
    refine ⟨moves ++ [.callOff], [], .backoff 1 [.ofSighting resting], by simp [course], ?_, ?_⟩
    · rw [hstart]
      rfl
    · intro result hsettled
      cases hsettled
  have hsettled : (course.last config [resting, lost]).states =
      [Settlement.cancelled, .exhausted [.ofSighting lost]].map ChunkState.settled := by
    rw [last, hstart]
    rfl
  obtain ⟨-, hcancelled, -⟩ := publication_called_off config [resting, lost] course hpossible
  have hyields : course.Yields config [resting, lost]
      (conclude [.cancelled, .exhausted [.ofSighting lost]]) :=
    ⟨hpossible, _, hsettled, rfl⟩
  refine ⟨hpossible, ?_, hbroken, ?_⟩
  · rw [sent, hstart]
    rfl
  · exact (hcancelled _ hyields).mpr ⟨0, Or.inl hbroken⟩ ▸ hyields

-- A receiver can answer that it was cancelled itself, and then nobody has broken a chunk off.
theorem not_forall_cancelled_iff_breaksOff :
    ¬∀ (config : Config) (sightings : List Sighting) (course : Course) result,
      course.Yields config sightings result →
      (result = .error .cancelled ↔ ∃ index, course.BreaksOff config sightings index) := by
  intro h
  let sighting : Sighting := ⟨"MRN-A", ⟨"G1", "OPEN", "v1", []⟩⟩
  let course : Course := ⟨false, [.chunk 0 .send, .chunk 0 (.answer (.error .cancelled))]⟩
  have hyields : course.Yields {} [sighting] (.error .cancelled) := by
    refine ⟨Dispatch.possible_of_isOwn (by simp [course, Move.isOwn]) rfl, [.cancelled], ?_, rfl⟩
    simp [start, Dispatch.start, Config.ceiling, chunks, course, Dispatch.move, ChunkState.start,
      ChunkState.step, ChunkState.receive]
  obtain ⟨index, before, later, state, hmoves, -, -⟩ := (h {} [sighting] course _ hyields).mp rfl
  have hmem : .chunk index .cancel ∈ course.moves := by simp [hmoves]
  simp [course] at hmem

end Course

end DeclarationWatch.Publish
