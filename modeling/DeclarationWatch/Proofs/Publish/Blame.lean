import DeclarationWatch.Proofs.Publish.Alone

namespace DeclarationWatch.Publish

open ChunkState (Event)

-- The receiver names the entry and blames it, whatever else it says.
def Accuses : Answer → Entry → Prop
  | .ok rejections, entry =>
      ∃ rejection ∈ rejections, rejection.id = entry.id ∧ rejection.callerFault = true
  | .error _, _ => False

-- The receiver names the entry both with blame and without.
def IsContradictory : Answer → Entry → Prop
  | .ok rejections, entry =>
      (∃ rejection ∈ rejections, rejection.id = entry.id ∧ rejection.callerFault = true) ∧
        ∃ rejection ∈ rejections, rejection.id = entry.id ∧ rejection.callerFault = false
  | .error _, _ => False

theorem asksAgain_congr {answer : Answer} {entry same : Entry} (hid : same.id = entry.id) :
    asksAgain answer same = asksAgain answer entry := by
  cases answer with
  | ok rejections => simp only [asksAgain, hid]
  | error failure => cases failure <;> rfl

theorem Accuses.asksAgain_iff {answer : Answer} {entry : Entry} (h : Accuses answer entry) :
    asksAgain answer entry = true ↔ IsContradictory answer entry := by
  cases answer with
  | ok rejections =>
      simp only [asksAgain, List.any_eq_true, Bool.and_eq_true, Bool.not_eq_true', beq_iff_eq]
      constructor
      · rintro ⟨rejection, hmem, hfault, hid⟩
        exact ⟨h, rejection, hmem, hid, hfault⟩
      · rintro ⟨-, rejection, hmem, hid, hfault⟩
        exact ⟨rejection, hmem, hfault, hid⟩
  | error failure => exact absurd h id

namespace ChunkState

-- The entries that a chunk may still send.
def outstanding : ChunkState → List Entry
  | .ready _ pending => pending
  | .waiting _ pending => pending
  | .backoff _ pending => pending
  | .settled _ => []

-- The number of answers that come before the next request.
def due : ChunkState → Nat
  | .waiting _ _ => 1
  | _ => 0

-- The chunk goes on with these entries once its time has come.
def Rests (entries : List Entry) : ChunkState → Prop
  | .ready _ pending => pending = entries
  | .backoff _ pending => pending = entries
  | _ => False

variable {config : Config} {state : ChunkState} {event : Event} {attempt : Nat}
  {pending : List Entry} {answer : Answer} {entry : Entry} {request : List Entry}

theorem outstanding_of_request? (h : state.request? event = some request) :
    state.outstanding = request := by
  cases state with
  | ready attempt pending =>
      cases event with
      | send => exact Option.some.inj h
      | _ => cases h
  | _ => cases h

-- What an answer does not ask for again is gone.
theorem outstanding_receive_sublist (config : Config) (attempt : Nat) (pending : List Entry)
    (answer : Answer) : (receive config attempt pending answer).outstanding.Sublist
      (pending.filter (asksAgain answer)) := by
  rcases receive_cases config attempt pending answer with
    ⟨-, hdone | hafter⟩ | ⟨-, hcancelled⟩ | ⟨failure, -, -, hfailed⟩
  · rw [hdone]
    exact List.nil_sublist _
  · rcases afterAttempt_cases config attempt (pending.filter (asksAgain answer)) with
      ⟨-, hrests⟩ | ⟨-, hspent⟩
    · rw [hafter, hrests]
      exact List.Sublist.refl _
    · rw [hafter, hspent]
      exact List.nil_sublist _
  · rw [hcancelled]
    exact List.nil_sublist _
  · rw [hfailed]
    exact List.nil_sublist _

theorem outstanding_step_sublist (config : Config) (state : ChunkState) (event : Event) :
    (state.step config event).outstanding.Sublist state.outstanding := by
  cases state with
  | waiting attempt pending =>
      cases event with
      | answer answer =>
          exact (outstanding_receive_sublist config attempt pending answer).trans
            List.filter_sublist
      | cancel => exact List.nil_sublist _
      | _ => exact List.Sublist.refl _
  | settled result => exact List.Sublist.refl _
  | _ =>
      cases event with
      | cancel => exact List.nil_sublist _
      | _ => exact List.Sublist.refl _

-- A chunk sends nothing that it has lost.
theorem sublist_of_mem_requests {events : List Event}
    (h : request ∈ state.seen config request? events) : request.Sublist state.outstanding := by
  induction events generalizing state with
  | nil => cases h
  | cons event events ih =>
      rcases List.mem_append.mp h with hfirst | hrest
      · rw [outstanding_of_request? (Option.mem_toList.mp hfirst)]
      · exact (ih hrest).trans (outstanding_step_sublist config state event)

theorem left_cons (piece : List Entry) (answer : Answer) (answers : List Answer) :
    left piece (answer :: answers) = left (piece.filter (asksAgain answer)) answers := by
  simp [left, List.filter_filter, Bool.and_comm]

-- A request is made of what the answers of the chunk so far have all asked for again, and nothing
-- else has a say in it.
theorem request_eq_left {events : List Event} {k : Nat}
    (h : (state.seen config request? events)[k]? = some request) :
    request = left state.outstanding ((state.seen config answer? events).take (k + state.due)) := by
  induction events generalizing state k with
  | nil => cases h
  | cons event events ih =>
      have hover : ∀ result, ((settled result).seen config request? events)[k]? ≠ some request := by
        simp [requests_settled]
      cases state with
      | ready attempt pending =>
          cases event with
          | send =>
              cases k with
              | zero =>
                  cases h
                  exact (left_nil _).symm
              | succ k => exact ih h
          | cancel => exact absurd h (hover _)
          | _ => exact ih h
      | waiting attempt pending =>
          cases event with
          | answer answer =>
              change ((receive config attempt pending answer).seen config request? events)[k]? =
                some request at h
              have hreceived := ih h
              rcases receive_cases config attempt pending answer with
                ⟨-, hdone | hafter⟩ | ⟨-, hcancelled⟩ | ⟨failure, -, -, hfailed⟩
              · exact absurd (hdone ▸ h) (hover _)
              · rcases afterAttempt_cases config attempt (pending.filter (asksAgain answer)) with
                  ⟨-, hrests⟩ | ⟨-, hspent⟩
                · rw [hafter, hrests] at hreceived
                  refine hreceived.trans ?_
                  change _ = left pending (answer :: List.take k
                    ((receive config attempt pending answer).seen config answer? events))
                  rw [left_cons, hafter, hrests]
                  rfl
                · exact absurd ((hafter.trans hspent) ▸ h) (hover _)
              · exact absurd (hcancelled ▸ h) (hover _)
              · exact absurd (hfailed ▸ h) (hover _)
          | cancel => exact absurd h (hover _)
          | _ => exact ih h
      | backoff attempt pending =>
          cases event with
          | cancel => exact absurd h (hover _)
          | _ => exact ih h
      | settled result => exact ih h

theorem outstanding_after_sublist (config : Config) (state : ChunkState) (events : List Event) :
    (state.after config events).outstanding.Sublist state.outstanding := by
  induction events generalizing state with
  | nil => exact List.Sublist.refl _
  | cons event events ih => exact (ih _).trans (outstanding_step_sublist config state event)

-- What an answer asks for again stays, unless there is no attempt left.
theorem receive_of_asksAgain (hentry : entry ∈ pending) (hagain : asksAgain answer entry = true) :
    receive config attempt pending answer =
      afterAttempt config attempt (pending.filter (asksAgain answer)) := by
  have hgenuine : IsGenuine answer := by
    cases answer with
    | ok rejections => trivial
    | error failure =>
        cases failure with
        | sink code message callerFault => trivial
        | _ => cases hagain
  have hleft : entry ∈ pending.filter (asksAgain answer) :=
    List.mem_filter.mpr ⟨hentry, hagain⟩
  rw [receive_of_isGenuine hgenuine (List.ne_nil_of_mem hentry), if_neg (List.ne_nil_of_mem hleft)]

theorem rests_step {entries : List Entry} (h : state.Rests entries) (hown : event ≠ .cancel) :
    state.request? event = some entries ∨
      state.request? event = none ∧ (state.step config event).Rests entries := by
  cases state with
  | ready attempt pending =>
      cases event with
      | send => exact Or.inl (congrArg some h)
      | cancel => exact absurd rfl hown
      | _ => exact Or.inr ⟨rfl, h⟩
  | backoff attempt pending =>
      cases event with
      | cancel => exact absurd rfl hown
      | _ => exact Or.inr ⟨rfl, h⟩
  | _ => exact absurd h id

-- A chunk at rest sends what it has before anything else, if it sends anything at all. It does if it
-- is not broken off and comes to an end.
theorem requests_of_rests (config : Config) {entries : List Entry} (h : state.Rests entries)
    (events : List Event) :
    (∃ later, state.seen config request? events = entries :: later) ∨
      state.seen config request? events = [] ∧
        (.cancel ∉ events → (state.after config events).Rests entries) := by
  induction events generalizing state with
  | nil => exact Or.inr ⟨rfl, fun _ => h⟩
  | cons event events ih =>
      by_cases hown : event = .cancel
      · subst hown
        have hover : state.step config .cancel = .settled .cancelled := by
          cases state <;> first | rfl | exact absurd h id
        have hquiet : state.request? .cancel = none := by cases state <;> rfl
        refine Or.inr ⟨?_, fun hcancel => absurd (List.mem_cons_self) hcancel⟩
        rw [seen, hquiet, hover, requests_settled, Option.toList_none, List.nil_append]
      · rcases @rests_step config _ _ _ h hown with hsent | ⟨hquiet, hrests⟩
        · exact Or.inl ⟨_, by rw [seen, hsent, Option.toList_some, List.singleton_append]⟩
        · rw [seen, hquiet, Option.toList_none, List.nil_append]
          rcases ih hrests with hsome | ⟨hnone, hstill⟩
          · exact Or.inl hsome
          · exact Or.inr ⟨hnone, fun hcancel => hstill (mt (List.mem_cons_of_mem _) hcancel)⟩

end ChunkState

namespace Dispatch

variable {config : Config} {dispatch : Dispatch} {moves : List Move} {request : List Entry}

-- Each request is one of some chunk.
theorem mem_sent_iff : request ∈ dispatch.seen config sent? moves ↔
    ∃ index, request ∈ dispatch.seen config (seen? ChunkState.request? index) moves := by
  induction moves generalizing dispatch with
  | nil => simp [seen]
  | cons next moves ih =>
      have hfirst : dispatch.sent? next = some request ↔
          ∃ index, seen? ChunkState.request? index dispatch next = some request := by
        cases next with
        | callOff => simp [sent?, seen?]
        | chunk other event => simp [sent?, seen?]
      simp only [seen, List.mem_append, Option.mem_toList, ih, hfirst, exists_or]

end Dispatch

namespace Course

variable {config : Config} {sightings : List Sighting} {course : Course}

-- Entries of different chunks have different ids.
theorem index_eq_of_distinct (hdistinct : (sightings.map Sighting.identifier).Nodup)
    {first second : Nat} {piece other : List Entry} {entry same : Entry}
    (hpiece : (pieces config sightings)[first]? = some piece) (hentry : entry ∈ piece)
    (hother : (pieces config sightings)[second]? = some other) (hsame : same ∈ other)
    (hid : entry.id = same.id) : first = second := by
  have hids : (pieces config sightings).flatten.Pairwise fun entry same => entry.id ≠ same.id := by
    rw [pieces, flatten_chunks, List.pairwise_map]
    exact List.pairwise_map.mp hdistinct
  have hapart := List.pairwise_iff_getElem.mp (List.pairwise_flatten.mp hids).2
  obtain ⟨hfirst, rfl⟩ := List.getElem?_eq_some_iff.mp hpiece
  obtain ⟨hsecond, rfl⟩ := List.getElem?_eq_some_iff.mp hother
  rcases Nat.lt_trichotomy first second with hlt | heq | hgt
  · exact absurd hid (hapart _ _ hfirst hsecond hlt entry hentry same hsame)
  · exact heq
  · exact absurd hid.symm (hapart _ _ hsecond hfirst hgt same hsame entry hentry)

end Course

-- An answer that comes back to a request, with all that happens before and after it.
structure Verdict where
  before : List Move
  index : Nat
  attempt : Nat
  request : List Entry
  answer : Answer
  later : List Move

namespace Verdict

section Sending

variable (config : Config) (sightings : List Sighting) (course : Course) (verdict : Verdict)

structure IsOf : Prop where
  moves : course.moves =
    verdict.before ++ .chunk verdict.index (.answer verdict.answer) :: verdict.later
  waiting : ((course.start config sightings).after config verdict.before).states[verdict.index]? =
    some (.waiting verdict.attempt verdict.request)

-- Where the publication stands once the answer is there.
def reached : Dispatch :=
  ((course.start config sightings).after config verdict.before).move config
    (.chunk verdict.index (.answer verdict.answer))

-- The entry is sent once more, with whatever request.
def Resends (entry : Entry) : Prop :=
  ∃ request ∈ (verdict.reached config sightings course).seen config Dispatch.sent? verdict.later,
    ∃ same ∈ request, same.id = entry.id

-- The chunk that has got the answer makes another request.
def GoesOn : Prop :=
  (verdict.reached config sightings course).seen config
    (Dispatch.seen? ChunkState.request? verdict.index) verdict.later ≠ []

end Sending

variable {config : Config} {sightings : List Sighting} {course : Course} {verdict : Verdict}
  {entry : Entry}

theorem getElem?_reached (h : verdict.IsOf config sightings course) :
    (verdict.reached config sightings course).states[verdict.index]? =
      some (ChunkState.receive config verdict.attempt verdict.request verdict.answer) := by
  simp [reached, Dispatch.move, h.waiting, ChunkState.step]

theorem IsOf.exists_piece (h : verdict.IsOf config sightings course) :
    ∃ piece, (Course.pieces config sightings)[verdict.index]? = some piece ∧
      verdict.request.Sublist piece := by
  obtain ⟨piece, hpiece, hstate⟩ := Course.exists_piece_of_after h.waiting
  have hsub := ChunkState.outstanding_after_sublist config (.start piece)
    (Move.events verdict.index verdict.before)
  rw [← hstate] at hsub
  exact ⟨piece, hpiece, hsub⟩

-- What a chunk sends from then on was given to it.
theorem exists_piece_of_sent {index : Nat} {request : List Entry}
    (h : request ∈ (verdict.reached config sightings course).seen config
      (Dispatch.seen? ChunkState.request? index) verdict.later) :
    ∃ piece, (Course.pieces config sightings)[index]? = some piece ∧ request.Sublist piece := by
  let begun : Course := ⟨course.calledOff,
    verdict.before ++ [.chunk verdict.index (.answer verdict.answer)]⟩
  have hreached : verdict.reached config sightings course = begun.last config sightings :=
    (Dispatch.after_append_singleton config _ verdict.before _).symm
  rw [hreached] at h
  cases hpiece : (Course.pieces config sightings)[index]? with
  | none =>
      have hnone : (begun.last config sightings).states.length ≤ index := by
        rw [Course.last, Dispatch.length_states_after, Course.length_pieces]
        exact List.getElem?_eq_none_iff.mp hpiece
      rw [Dispatch.seen_eq_nil _ _ _ hnone] at h
      cases h
  | some piece =>
      rw [Dispatch.seen_eq _ _ (Course.getElem?_last begun hpiece)] at h
      exact ⟨piece, rfl, (ChunkState.sublist_of_mem_requests h).trans
        (ChunkState.outstanding_after_sublist config _ _)⟩

theorem IsOf.requests_eq (h : verdict.IsOf config sightings course) :
    (verdict.reached config sightings course).seen config
        (Dispatch.seen? ChunkState.request? verdict.index) verdict.later =
      (ChunkState.receive config verdict.attempt verdict.request verdict.answer).seen config
        ChunkState.request? (Move.events verdict.index verdict.later) :=
  Dispatch.seen_eq _ _ (getElem?_reached h)

-- An entry is sent again if it is asked for again, and in no other case.
theorem IsOf.resends_iff (h : verdict.IsOf config sightings course)
    (hdistinct : (sightings.map Sighting.identifier).Nodup) (hentry : entry ∈ verdict.request) :
    verdict.Resends config sightings course entry ↔
      asksAgain verdict.answer entry = true ∧ verdict.GoesOn config sightings course := by
  have hseen := h.requests_eq
  rw [GoesOn, hseen]
  constructor
  · rintro ⟨request, hsent, same, hsame, hid⟩
    obtain ⟨index, hindex⟩ := Dispatch.mem_sent_iff.mp hsent
    obtain ⟨other, hother, hrequest⟩ := exists_piece_of_sent hindex
    obtain ⟨piece, hpiece, hsub⟩ := h.exists_piece
    have heq : index = verdict.index := Course.index_eq_of_distinct hdistinct hother
      (hrequest.subset hsame) hpiece (hsub.subset hentry) hid
    subst heq
    rw [hseen] at hindex
    have hleft := (ChunkState.sublist_of_mem_requests hindex).trans
      (ChunkState.outstanding_receive_sublist config _ _ _)
    obtain ⟨-, hagain⟩ := List.mem_filter.mp (hleft.subset hsame)
    exact ⟨asksAgain_congr hid ▸ hagain, List.ne_nil_of_mem hindex⟩
  · rintro ⟨hagain, hon⟩
    have hleft : entry ∈ verdict.request.filter (asksAgain verdict.answer) :=
      List.mem_filter.mpr ⟨hentry, hagain⟩
    rw [ChunkState.receive_of_asksAgain hentry hagain] at hon hseen
    refine ⟨_, Dispatch.mem_sent_iff.mpr ⟨verdict.index, ?_⟩, entry, hleft, rfl⟩
    rw [hseen]
    rcases ChunkState.afterAttempt_cases config verdict.attempt
      (verdict.request.filter (asksAgain verdict.answer)) with ⟨-, hrests⟩ | ⟨-, hspent⟩
    · rw [hrests] at hon ⊢
      have hpending : (ChunkState.backoff verdict.attempt
          (verdict.request.filter (asksAgain verdict.answer))).Rests _ := rfl
      rcases ChunkState.requests_of_rests config hpending
        (Move.events verdict.index verdict.later) with ⟨later, hsome⟩ | ⟨hnone, -⟩
      · rw [hsome]
        exact List.mem_cons_self
      · exact absurd hnone hon
    · rw [hspent] at hon
      exact absurd (ChunkState.requests_settled config _ _) hon

theorem IsOf.getElem?_last (h : verdict.IsOf config sightings course) :
    (course.last config sightings).states[verdict.index]? =
      some ((ChunkState.receive config verdict.attempt verdict.request verdict.answer).after config
        (Move.events verdict.index verdict.later)) := by
  have hlast := Dispatch.getElem?_after config (verdict.reached config sightings course)
    verdict.later verdict.index
  rw [getElem?_reached h, Option.map_some] at hlast
  rw [Course.last, h.moves, Dispatch.after, List.foldl_append]
  exact hlast

theorem IsOf.cancel_notMem_events (h : verdict.IsOf config sightings course)
    (hundisturbed : course.IsUndisturbed) :
    .cancel ∉ Move.events verdict.index verdict.later := by
  intro hmem
  refine hundisturbed.cancel_notMem_events verdict.index ?_
  rw [h.moves, Move.events_append]
  refine List.mem_append_right _ ?_
  simpa [Move.events, Move.event?] using hmem

-- What is asked for again is sent again while there are attempts left.
theorem IsOf.goesOn_iff_of_yields (h : verdict.IsOf config sightings course)
    (hundisturbed : course.IsUndisturbed) {result : Except PublishFailure Unit}
    (hyields : course.Yields config sightings result) (hentry : entry ∈ verdict.request)
    (hagain : asksAgain verdict.answer entry = true) :
    verdict.GoesOn config sightings course ↔ verdict.attempt < config.attempts := by
  have hlast := h.getElem?_last
  obtain ⟨settlements, hsettled, -⟩ := hyields.settled
  rw [Course.last, hsettled, List.getElem?_map, Option.map_eq_some_iff] at hlast
  obtain ⟨settlement, -, hsettlement⟩ := hlast
  rw [GoesOn, h.requests_eq]
  rw [ChunkState.receive_of_asksAgain hentry hagain] at hsettlement ⊢
  rcases ChunkState.afterAttempt_cases config verdict.attempt
    (verdict.request.filter (asksAgain verdict.answer)) with ⟨hmore, hrests⟩ | ⟨hnone, hspent⟩
  · rw [hrests] at hsettlement ⊢
    refine iff_of_true (fun hnone => ?_) hmore
    have hpending : (ChunkState.backoff verdict.attempt
        (verdict.request.filter (asksAgain verdict.answer))).Rests _ := rfl
    rcases ChunkState.requests_of_rests config hpending
      (Move.events verdict.index verdict.later) with ⟨later, hsome⟩ | ⟨-, hstill⟩
    · cases hnone.symm.trans hsome
    · have hresting := hstill (h.cancel_notMem_events hundisturbed)
      rw [← hsettlement] at hresting
      exact hresting
  · rw [hspent]
    exact iff_of_false (fun hsome => hsome (ChunkState.requests_settled config _ _))
      (Nat.not_lt_of_le hnone)

-- The entries of a publication have different ids, and an answer blames one of them. In whatever
-- order the chunks move, and whether or not the publication is called off, the entry is sent again
-- only if the same answer also names it without blame and its chunk goes on. The chunk does that for
-- as long as it has attempts left. An answer to another chunk has no say in it.
theorem accused_resent_iff (config : Config) (sightings : List Sighting)
    (hdistinct : (sightings.map Sighting.identifier).Nodup) (course : Course) :
    (∀ index piece, (Course.pieces config sightings)[index]? = some piece →
      ∀ (k : Nat) request, (course.requests config sightings index)[k]? = some request →
      request = left piece ((course.answers config sightings index).take k)) ∧
    ∀ verdict : Verdict, verdict.IsOf config sightings course → ∀ entry ∈ verdict.request,
      Accuses verdict.answer entry →
      (verdict.Resends config sightings course entry ↔
        IsContradictory verdict.answer entry ∧ verdict.GoesOn config sightings course) ∧
      ∀ result, course.IsUndisturbed → course.Yields config sightings result →
        (verdict.Resends config sightings course entry ↔
          IsContradictory verdict.answer entry ∧ verdict.attempt < config.attempts) := by
  constructor
  · intro index piece hpiece k request hrequest
    rw [Course.requests_eq course hpiece] at hrequest
    rw [Course.answers_eq course hpiece]
    exact ChunkState.request_eq_left hrequest
  · intro verdict h entry hentry haccuses
    have hresends := h.resends_iff hdistinct hentry
    refine ⟨by rw [hresends, haccuses.asksAgain_iff], fun result hundisturbed hyields => ?_⟩
    rw [hresends, ← haccuses.asksAgain_iff]
    exact and_congr_right (h.goesOn_iff_of_yields hundisturbed hyields hentry)

-- Three entries and one answer: the first is named with and without blame, the second only with
-- blame, the third only without.
theorem accused_resent_once_of_two :
    let sightings : List Sighting := [⟨"MRN-A", ⟨"G1", "OPEN", "v1", []⟩⟩,
      ⟨"MRN-A", ⟨"G2", "OPEN", "v1", []⟩⟩, ⟨"MRN-B", ⟨"G1", "OPEN", "v1", []⟩⟩]
    let entries := sightings.map Entry.ofSighting
    let answer : Answer := .ok [⟨"MRN-A-G1", true, "INVALID"⟩, ⟨"MRN-A-G2", true, "INVALID"⟩,
      ⟨"MRN-B-G1", false, "BUSY"⟩, ⟨"MRN-A-G1", false, "BUSY"⟩]
    let later : List Move := [.chunk 0 .wake, .chunk 0 .send, .chunk 0 (.answer (.ok []))]
    let course : Course := ⟨false, .chunk 0 .send :: .chunk 0 (.answer answer) :: later⟩
    let verdict : Verdict := ⟨[.chunk 0 .send], 0, 1, entries, answer, later⟩
    course.Yields {} sightings (.ok ()) ∧ verdict.IsOf {} sightings course ∧
      verdict.Resends {} sightings course (.ofSighting sightings[0]) ∧
      ¬verdict.Resends {} sightings course (.ofSighting sightings[1]) := by
  intro sightings entries answer later course verdict
  have hdistinct : (sightings.map Sighting.identifier).Nodup := by decide
  have hstart : course.start {} sightings = ⟨[ChunkState.start entries], false⟩ := by
    simp [Course.start, Dispatch.start, Config.ceiling, chunks, course, entries, sightings]
  have hundisturbed : course.IsUndisturbed := ⟨rfl, by simp [course, later, Move.isOwn]⟩
  have hyields : course.Yields {} sightings (.ok ()) := by
    refine ⟨Dispatch.possible_of_isOwn hundisturbed.own rfl, [.done], ?_, rfl⟩
    rw [hstart]
    rfl
  have hverdict : verdict.IsOf {} sightings course := ⟨rfl, by rw [hstart]; rfl⟩
  have hresent : ∀ entry ∈ entries, Accuses answer entry →
      (verdict.Resends {} sightings course entry ↔ IsContradictory answer entry ∧ 1 < 4) :=
    fun entry hentry haccuses => ((accused_resent_iff {} sightings hdistinct course).2 verdict
      hverdict entry hentry haccuses).2 _ hundisturbed hyields
  refine ⟨hyields, hverdict, (hresent _ ?_ ?_).mpr ?_, fun hagain => ?_⟩
  · exact List.mem_cons_self
  · exact ⟨_, List.mem_cons_self, rfl, rfl⟩
  · exact ⟨⟨⟨_, List.mem_cons_self, rfl, rfl⟩, ⟨"MRN-A-G1", false, "BUSY"⟩, by simp, rfl, rfl⟩,
      by decide⟩
  · have hcontradictory := ((hresent (.ofSighting sightings[1]) (by simp [entries, sightings])
      ⟨⟨"MRN-A-G2", true, "INVALID"⟩, by simp, rfl, rfl⟩).mp hagain).1
    revert hcontradictory
    simp [IsContradictory, answer, sightings, Entry.ofSighting, Sighting.identifier]

-- An entry can be named twice in one answer, and then the blame does not count.
theorem not_forall_accused_not_resent :
    ¬∀ (config : Config) (sightings : List Sighting),
      (sightings.map Sighting.identifier).Nodup → ∀ (course : Course) (verdict : Verdict),
      (course.start config sightings).Possible config course.moves →
      verdict.IsOf config sightings course → ∀ entry ∈ verdict.request,
      Accuses verdict.answer entry → ¬verdict.Resends config sightings course entry := by
  intro h
  let sighting : Sighting := ⟨"MRN-A", ⟨"G1", "OPEN", "v1", []⟩⟩
  let answer : Answer := .ok [⟨"MRN-A-G1", true, "INVALID"⟩, ⟨"MRN-A-G1", false, "BUSY"⟩]
  let later : List Move := [.chunk 0 .wake, .chunk 0 .send]
  let course : Course := ⟨false, .chunk 0 .send :: .chunk 0 (.answer answer) :: later⟩
  let verdict : Verdict := ⟨[.chunk 0 .send], 0, 1, [.ofSighting sighting], answer, later⟩
  have hstart : course.start {} [sighting] =
      ⟨[ChunkState.start [.ofSighting sighting]], false⟩ := by
    simp [Course.start, Dispatch.start, Config.ceiling, chunks, course]
  have hverdict : verdict.IsOf {} [sighting] course := ⟨rfl, by rw [hstart]; rfl⟩
  refine h {} [sighting] (by simp) course verdict ?_ hverdict _ List.mem_cons_self
    ⟨_, List.mem_cons_self, rfl, rfl⟩ ⟨[.ofSighting sighting], ?_, _, List.mem_cons_self, rfl⟩
  · exact Dispatch.possible_of_isOwn (by simp [course, later, Move.isOwn]) rfl
  · rw [reached, hstart]
    exact List.mem_cons_self

end Verdict

end DeclarationWatch.Publish
