import DeclarationWatch.Proofs.Publish.Dispatch
import Mathlib.Data.Set.List

namespace DeclarationWatch.Publish

open ChunkState (Event)

-- The receiver wants the entry once more: it names the entry without blaming it, or it failed over
-- the whole request.
def asksAgain : Answer → Entry → Bool
  | .ok rejections, entry =>
      rejections.any fun rejection => !rejection.callerFault && rejection.id == entry.id
  | .error (.sink _ _ callerFault), _ => !callerFault
  | .error _, _ => false

-- The receiver takes the entry: the request succeeds, and the entry is not named.
def Takes : Answer → Entry → Prop
  | .ok rejections, entry => ∀ rejection ∈ rejections, rejection.id ≠ entry.id
  | .error _, _ => False

-- The receiver names the entry only to blame it, or it blames the whole request.
def Blames : Answer → Entry → Prop
  | .ok rejections, entry =>
      (∃ rejection ∈ rejections, rejection.id = entry.id) ∧
        ∀ rejection ∈ rejections, rejection.id = entry.id → rejection.callerFault = true
  | .error (.sink _ _ callerFault), _ => callerFault = true
  | .error _, _ => False

-- An answer that comes from a receiver.
def IsGenuine : Answer → Prop
  | .ok _ => True
  | .error (.sink _ _ _) => True
  | .error _ => False

section Answers

variable {answer : Answer} {entry : Entry}

theorem not_blames_of_takes (h : Takes answer entry) : ¬Blames answer entry := by
  cases answer with
  | ok rejections =>
      rintro ⟨⟨rejection, hmem, hid⟩, -⟩
      exact h rejection hmem hid
  | error failure => exact absurd h id

theorem takes_or_blames_iff (hgenuine : IsGenuine answer) :
    Takes answer entry ∨ Blames answer entry ↔ asksAgain answer entry = false := by
  cases answer with
  | ok rejections =>
      rw [asksAgain, ← Bool.not_eq_true, List.any_eq_true]
      constructor
      · rintro htakes ⟨rejection, hmem, hagain⟩
        simp only [Bool.and_eq_true, Bool.not_eq_true', beq_iff_eq] at hagain
        rcases htakes with htakes | ⟨-, hblames⟩
        · exact htakes rejection hmem hagain.2
        · rw [hblames rejection hmem hagain.2] at hagain
          cases hagain.1
      · intro hagain
        by_cases hnamed : ∃ rejection ∈ rejections, rejection.id = entry.id
        · refine Or.inr ⟨hnamed, fun rejection hmem hid => ?_⟩
          by_contra hfault
          exact hagain ⟨rejection, hmem, by simp [hid, hfault]⟩
        · exact Or.inl fun rejection hmem hid => hnamed ⟨rejection, hmem, hid⟩
  | error failure =>
      cases failure with
      | sink code message callerFault => simp [Takes, Blames, asksAgain]
      | _ => exact absurd hgenuine id

end Answers

-- The entries that all answers so far ask for again.
def left (piece : List Entry) (answers : List Answer) : List Entry :=
  piece.filter fun entry => answers.all (asksAgain · entry)

@[simp] theorem left_nil (piece : List Entry) : left piece [] = piece := by
  simp [left]

theorem left_append_singleton (piece : List Entry) (answers : List Answer) (answer : Answer) :
    left piece (answers ++ [answer]) = (left piece answers).filter (asksAgain answer) := by
  simp [left, List.filter_filter, Bool.and_comm]

theorem mem_left_iff {piece : List Entry} {answers : List Answer} {entry : Entry} :
    entry ∈ left piece answers ↔
      entry ∈ piece ∧ ∀ answer ∈ answers, asksAgain answer entry = true := by
  simp only [left, List.mem_filter, List.all_eq_true]

theorem left_sublist (piece : List Entry) (answers : List Answer) :
    (left piece answers).Sublist piece := List.filter_sublist

namespace ChunkState

def request? : ChunkState → Event → Option (List Entry)
  | .ready _ pending, .send => some pending
  | _, _ => none

def answer? : ChunkState → Event → Option Answer
  | .waiting _ _, .answer answer => some answer
  | _, _ => none

-- The chunk is not broken off, and what comes as an answer comes from a receiver.
def Event.IsPlain : Event → Prop
  | .cancel => False
  | .answer received => IsGenuine received
  | _ => True

-- What has been requested and answered before a chunk stands where it does.
structure Accounts (config : Config) (piece : List Entry) (requests : List (List Entry))
    (answers : List Answer) : Prop where
  requested : requests = (List.range requests.length).map fun k => left piece (answers.take k)
  answered : answers.length ≤ requests.length
  outstanding : requests.length ≤ answers.length + 1
  genuine : ∀ answer ∈ answers, IsGenuine answer
  nonempty : ∀ request ∈ requests, request ≠ []
  bounded : requests.length ≤ config.attempts

-- Where a chunk stands after these requests and answers.
def Stands (config : Config) (piece : List Entry) (requests : List (List Entry))
    (answers : List Answer) : ChunkState → Prop
  | .ready attempt pending =>
      pending = left piece answers ∧ pending ≠ [] ∧ requests.length = answers.length ∧
        attempt = answers.length + 1 ∧ attempt ≤ config.attempts
  | .waiting attempt pending =>
      pending = left piece answers ∧ pending ≠ [] ∧ requests.length = answers.length + 1 ∧
        attempt = answers.length + 1
  | .backoff attempt pending =>
      pending = left piece answers ∧ pending ≠ [] ∧ requests.length = answers.length ∧
        attempt = answers.length ∧ attempt < config.attempts
  | .settled .done =>
      left piece answers = [] ∧ requests.length = answers.length ∧ answers ≠ []
  | .settled (.exhausted pending) =>
      pending = left piece answers ∧ pending ≠ [] ∧ requests.length = answers.length ∧
        config.attempts ≤ answers.length
  | .settled _ => False

variable {config : Config} {piece pending : List Entry} {requests : List (List Entry)}
  {answers : List Answer} {answer : Answer} {attempt : Nat} {state : ChunkState} {event : Event}

-- What becomes of a request depends only on the entries that the receiver asks for again.
theorem receive_of_isGenuine (hgenuine : IsGenuine answer) (hpending : pending ≠ []) :
    receive config attempt pending answer =
      if pending.filter (asksAgain answer) = [] then .settled .done
      else afterAttempt config attempt (pending.filter (asksAgain answer)) := by
  cases answer with
  | ok rejections =>
      have hsame : stillPending rejections pending =
          pending.filter (asksAgain (.ok rejections)) := rfl
      cases rejections with
      | nil => simp [receive, asksAgain]
      | cons rejection rest =>
          rw [← hsame]
          simp only [receive]
          split
          · rename_i hnone
            rw [if_pos hnone]
          · rename_i hsome
            rw [if_neg hsome]
  | error failure =>
      cases failure with
      | sink code message callerFault =>
          cases callerFault with
          | true => simp [receive, asksAgain]
          | false =>
              have hall : pending.filter (asksAgain (.error (.sink code message false))) =
                  pending := List.filter_eq_self.mpr fun _ _ => rfl
              rw [hall, if_neg hpending]
              rfl
      | _ => exact absurd hgenuine id

theorem stands_start (hpiece : piece ≠ []) : (start piece).Stands config piece [] [] :=
  ⟨(left_nil piece).symm, hpiece, rfl, rfl, Nat.le_max_left _ _⟩

theorem stands_receive (h : (waiting attempt pending).Stands config piece requests answers)
    (hgenuine : IsGenuine answer) :
    (receive config attempt pending answer).Stands config piece requests (answers ++ [answer]) := by
  obtain ⟨hleft, hpending, hlength, rfl⟩ := h
  have hleft' : pending.filter (asksAgain answer) = left piece (answers ++ [answer]) := by
    rw [left_append_singleton, hleft]
  have hlength' : requests.length = (answers ++ [answer]).length := by simpa using hlength
  rw [receive_of_isGenuine hgenuine hpending, hleft']
  split
  · rename_i hnone
    exact ⟨hnone, hlength', by simp⟩
  · rename_i hsome
    unfold afterAttempt
    split
    · rename_i hmore
      exact ⟨rfl, hsome, hlength', by simp, hmore⟩
    · rename_i hnone
      exact ⟨rfl, hsome, hlength', by simpa using hnone⟩

-- One event of a chunk, with the request or the answer that goes with it.
theorem stands_step (hplain : event.IsPlain) (h : state.Stands config piece requests answers) :
    (state.step config event).Stands config piece
      (requests ++ (state.request? event).toList) (answers ++ (state.answer? event).toList) := by
  cases state with
  | ready attempt pending =>
      cases event with
      | send =>
          obtain ⟨hleft, hpending, hlength, hattempt, -⟩ := h
          simp only [request?, answer?, Option.toList_none, List.append_nil]
          exact ⟨hleft, hpending, by simpa using hlength, hattempt⟩
      | cancel => exact absurd hplain id
      | _ => simpa [request?, answer?, step] using h
  | waiting attempt pending =>
      cases event with
      | answer answer =>
          simpa [request?, answer?, step] using stands_receive h hplain
      | cancel => exact absurd hplain id
      | _ => simpa [request?, answer?, step] using h
  | backoff attempt pending =>
      cases event with
      | wake =>
          obtain ⟨hleft, hpending, hlength, rfl, hmore⟩ := h
          simp only [request?, answer?, Option.toList_none, List.append_nil]
          exact ⟨hleft, hpending, hlength, rfl, hmore⟩
      | cancel => exact absurd hplain id
      | _ => simpa [request?, answer?, step] using h
  | settled result => cases event <;> simpa [request?, answer?, step] using h

theorem accounts_nil : Accounts config piece [] [] where
  requested := rfl
  answered := Nat.le_refl _
  outstanding := Nat.zero_le _
  genuine := by simp
  nonempty := by simp
  bounded := Nat.zero_le _

-- A request is made of what is left.
theorem Accounts.append_request (h : Accounts config piece requests answers)
    (hstands : (ready attempt pending).Stands config piece requests answers) :
    Accounts config piece (requests ++ [pending]) answers := by
  obtain ⟨hleft, hpending, hlength, hattempt, hbound⟩ := hstands
  have hmore : (requests ++ [pending]).length = answers.length + 1 := by simp [hlength]
  constructor
  case requested =>
    rw [hmore, List.range_succ, List.map_append, List.map_singleton, List.take_length, ← hleft,
      ← hlength, ← h.requested]
  case answered => omega
  case outstanding => omega
  case genuine => exact h.genuine
  case nonempty =>
    intro request hmem
    rcases List.mem_append.mp hmem with hold | hnew
    · exact h.nonempty request hold
    · rwa [List.mem_singleton.mp hnew]
  case bounded => omega

-- An answer changes nothing about the requests made before it.
theorem Accounts.append_answer (h : Accounts config piece requests answers)
    (hstands : (waiting attempt pending).Stands config piece requests answers)
    (hgenuine : IsGenuine answer) : Accounts config piece requests (answers ++ [answer]) := by
  obtain ⟨-, -, hlength, -⟩ := hstands
  have hmore : (answers ++ [answer]).length = requests.length := by simp [hlength]
  constructor
  case requested =>
    refine h.requested.trans (List.map_congr_left fun k hk => ?_)
    rw [List.mem_range, hlength] at hk
    rw [List.take_append_of_le_length (by omega)]
  case answered => omega
  case outstanding => omega
  case genuine =>
    intro earlier hmem
    rcases List.mem_append.mp hmem with hold | hnew
    · exact h.genuine earlier hold
    · rwa [List.mem_singleton.mp hnew]
  case nonempty => exact h.nonempty
  case bounded => exact h.bounded

theorem accounts_step (hplain : event.IsPlain)
    (hstands : state.Stands config piece requests answers)
    (h : Accounts config piece requests answers) :
    Accounts config piece
      (requests ++ (state.request? event).toList) (answers ++ (state.answer? event).toList) := by
  cases state with
  | ready attempt pending =>
      cases event with
      | send => simpa [request?, answer?] using h.append_request hstands
      | _ => simpa [request?, answer?] using h
  | waiting attempt pending =>
      cases event with
      | answer answer => simpa [request?, answer?] using h.append_answer hstands hplain
      | _ => simpa [request?, answer?] using h
  | _ => simpa [request?, answer?] using h

section Books

variable (h : Accounts config piece requests answers)

include h

theorem Accounts.getElem?_requests {k : Nat} {request : List Entry}
    (hrequest : requests[k]? = some request) :
    k < requests.length ∧ request = left piece (answers.take k) := by
  obtain ⟨hk, -⟩ := List.getElem?_eq_some_iff.mp hrequest
  rw [h.requested, List.getElem?_map, List.getElem?_range hk] at hrequest
  exact ⟨hk, (Option.some.inj hrequest).symm⟩

theorem Accounts.head?_requests (hne : answers ≠ []) : requests.head? = some piece := by
  have hlength := h.answered
  have hpos := List.length_pos_iff.mpr hne
  have hsome : requests[0]? = some requests[0] := List.getElem?_eq_getElem (by omega)
  rw [List.head?_eq_getElem?, hsome, (h.getElem?_requests hsome).2, List.take_zero, left_nil]

theorem Accounts.sublist_of_mem {request : List Entry} (hmem : request ∈ requests) :
    request.Sublist piece := by
  obtain ⟨k, hk⟩ := List.mem_iff_getElem?.mp hmem
  rw [(h.getElem?_requests hk).2]
  exact left_sublist piece _

-- Each request after the first one has an answer to go by.
theorem Accounts.retry {k : Nat} {first second : List Entry} (hfirst : requests[k]? = some first)
    (hsecond : requests[k + 1]? = some second) :
    ∃ answer, answers[k]? = some answer ∧ second = first.filter (asksAgain answer) := by
  obtain ⟨-, rfl⟩ := h.getElem?_requests hfirst
  obtain ⟨hlast, rfl⟩ := h.getElem?_requests hsecond
  have hk : k < answers.length := by
    have houtstanding := h.outstanding
    omega
  refine ⟨answers[k], List.getElem?_eq_getElem hk, ?_⟩
  rw [List.take_add_one, List.getElem?_eq_getElem hk, Option.toList_some, left_append_singleton]

theorem Accounts.mem_zip_iff {request : List Entry} :
    (request, answer) ∈ requests.zip answers ↔
      ∃ before after, answers = before ++ answer :: after ∧ request = left piece before := by
  rw [List.mem_iff_getElem?]
  constructor
  · rintro ⟨k, hk⟩
    obtain ⟨hrequest, hanswer⟩ := List.getElem?_zip_eq_some.mp hk
    obtain ⟨hlength, rfl⟩ := List.getElem?_eq_some_iff.mp hanswer
    exact ⟨answers.take k, answers.drop (k + 1), by simp, (h.getElem?_requests hrequest).2⟩
  · rintro ⟨before, after, rfl, rfl⟩
    have hlength : before.length < requests.length := by
      have hanswered := h.answered
      simp only [List.length_append, List.length_cons] at hanswered
      omega
    refine ⟨before.length, List.getElem?_zip_eq_some.mpr ⟨?_, by simp⟩⟩
    have hrequest := List.getElem?_eq_getElem hlength
    rw [hrequest, (h.getElem?_requests hrequest).2, List.take_left]

-- An entry is asked for until the first answer that does not want it again.
theorem Accounts.exists_exchange_iff {entry : Entry} :
    (∃ request, (request, answer) ∈ requests.zip answers ∧ entry ∈ request ∧
        asksAgain answer entry = false) ↔
      entry ∈ piece ∧ (answers.find? fun answer => !asksAgain answer entry) = some answer := by
  simp only [h.mem_zip_iff, List.find?_eq_some_iff_append, Bool.not_not, Bool.not_eq_true']
  constructor
  · rintro ⟨_, ⟨before, after, rfl, rfl⟩, hentry, hlast⟩
    obtain ⟨hpiece, hbefore⟩ := mem_left_iff.mp hentry
    exact ⟨hpiece, hlast, before, after, rfl, hbefore⟩
  · rintro ⟨hpiece, hlast, before, after, rfl, hbefore⟩
    exact ⟨_, ⟨before, after, rfl, rfl⟩, mem_left_iff.mpr ⟨hpiece, hbefore⟩, hlast⟩

end Books

-- The entries that a chunk gives up.
def unsent : ChunkState → List Entry
  | .settled (.exhausted pending) => pending
  | _ => []

theorem length_requests_of_stands {result : Settlement}
    (h : (settled result).Stands config piece requests answers) :
    requests.length = answers.length := by
  cases result with
  | done => exact h.2.1
  | exhausted pending => exact h.2.2.1
  | _ => exact absurd h id

theorem unsent_of_stands {result : Settlement}
    (h : (settled result).Stands config piece requests answers) :
    (settled result).unsent = left piece answers ∧ answers ≠ [] ∧
      (left piece answers ≠ [] → config.attempts ≤ requests.length) := by
  cases result with
  | done =>
      obtain ⟨hnone, -, hanswers⟩ := h
      exact ⟨hnone.symm, hanswers, fun hsome => absurd hnone hsome⟩
  | exhausted pending =>
      obtain ⟨hleft, -, hlength, hattempts⟩ := h
      refine ⟨hleft, ?_, fun _ => hlength ▸ hattempts⟩
      have hpos : 1 ≤ config.attempts := Nat.le_max_left _ _
      exact List.ne_nil_of_length_pos (by omega)
  | _ => exact absurd h id

-- A chunk that is not broken off gives its entries up, if any, without a failure.
theorem undelivered_of_stands {result : Settlement}
    (h : (settled result).Stands config piece requests answers) :
    result.failure? = none ∧ result.undelivered = (settled result).unsent.map (·.id) := by
  cases result with
  | done => exact ⟨rfl, rfl⟩
  | exhausted pending => exact ⟨rfl, rfl⟩
  | _ => exact absurd h id

-- How many events a chunk can still go through.
def remaining (config : Config) : ChunkState → Nat
  | .ready attempt _ => 3 * (config.attempts + 1 - attempt) + 2
  | .waiting attempt _ => 3 * (config.attempts + 1 - attempt) + 1
  | .backoff attempt _ => 3 * (config.attempts - attempt) + 3
  | .settled _ => 0

theorem remaining_afterAttempt (config : Config) (attempt : Nat) (pending : List Entry) :
    (afterAttempt config attempt pending).remaining config <
      3 * (config.attempts + 1 - attempt) + 1 := by
  unfold afterAttempt
  split
  · simp only [remaining]
    omega
  · simp [remaining]

theorem remaining_receive (config : Config) (attempt : Nat) (pending : List Entry)
    (answer : Answer) :
    (receive config attempt pending answer).remaining config <
      3 * (config.attempts + 1 - attempt) + 1 := by
  cases answer with
  | ok rejections =>
      cases rejections with
      | nil => simp [receive, remaining]
      | cons rejection rest =>
          simp only [receive]
          split
          · simp [remaining]
          · exact remaining_afterAttempt config attempt _
  | error failure =>
      cases failure with
      | sink code message callerFault =>
          cases callerFault with
          | true => simp [receive, remaining]
          | false => exact remaining_afterAttempt config attempt pending
      | _ => simp [receive, remaining]

theorem remaining_step (config : Config) (state : ChunkState) (event : Event) :
    state.step config event = state ∨
      (state.step config event).remaining config < state.remaining config := by
  cases state with
  | ready attempt pending =>
      cases event with
      | send => exact Or.inr (by simp [step, remaining])
      | cancel => exact Or.inr (by simp [step, remaining])
      | _ => exact Or.inl rfl
  | waiting attempt pending =>
      cases event with
      | answer answer => exact Or.inr (remaining_receive config attempt pending answer)
      | cancel => exact Or.inr (by simp [step, remaining])
      | _ => exact Or.inl rfl
  | backoff attempt pending =>
      cases event with
      | wake =>
          refine Or.inr ?_
          simp only [step, remaining]
          omega
      | cancel => exact Or.inr (by simp [step, remaining])
      | _ => exact Or.inl rfl
  | settled result => exact Or.inl rfl

-- Only a settled chunk has nothing more to do.
theorem exists_settled_of_still
    (h : ∀ event : Event, event.IsPlain → state.step config event = state) :
    ∃ result, state = .settled result := by
  cases state with
  | ready attempt pending => cases h .send trivial
  | waiting attempt pending => cases h (.answer (.ok [])) trivial
  | backoff attempt pending => cases h .wake trivial
  | settled result => exact ⟨result, rfl⟩

end ChunkState

namespace Move

def IsPlain : Move → Prop
  | .callOff => False
  | .chunk _ event => event.IsPlain

theorem IsPlain.isOwn {next : Move} (h : next.IsPlain) : next.isOwn = true := by
  cases next with
  | callOff => exact absurd h id
  | chunk index event =>
      refine isOwn_chunk_iff.mpr ?_
      rintro rfl
      exact h

end Move

namespace Dispatch

-- What a move shows of one of the chunks.
def seen? {α : Type} (look : ChunkState → Event → Option α) (index : Nat) (dispatch : Dispatch) :
    Move → Option α
  | .callOff => none
  | .chunk other event =>
      if other = index then dispatch.states[index]?.bind fun state => look state event else none

-- The request that a move sends.
def sent? (dispatch : Dispatch) : Move → Option (List Entry)
  | .callOff => none
  | .chunk index event => dispatch.states[index]?.bind (·.request? event)

-- What the moves of a publication show, one after the other.
def seen {α : Type} (config : Config) (look : Dispatch → Move → Option α) :
    Dispatch → List Move → List α
  | _, [] => []
  | dispatch, next :: moves =>
      (look dispatch next).toList ++ seen config look (dispatch.move config next) moves

variable {config : Config} {dispatch : Dispatch} {moves : List Move} {index : Nat}
  {piece : List Entry}

theorem after_append_singleton (config : Config) (dispatch : Dispatch) (moves : List Move)
    (last : Move) :
    dispatch.after config (moves ++ [last]) = (dispatch.after config moves).move config last := by
  simp [after]

theorem seen_append_singleton {α : Type} (look : Dispatch → Move → Option α)
    (dispatch : Dispatch) (moves : List Move) (last : Move) :
    dispatch.seen config look (moves ++ [last]) =
      dispatch.seen config look moves ++ (look (dispatch.after config moves) last).toList := by
  induction moves generalizing dispatch with
  | nil => simp [seen]
  | cons next moves ih => simp [seen, ih]

-- The books of a chunk are kept through all moves, those of other chunks among them.
theorem stands_after (hplain : ∀ move ∈ moves, move.IsPlain) (hpiece : piece ≠ [])
    (hstart : dispatch.states[index]? = some (ChunkState.start piece)) :
    let requests := dispatch.seen config (seen? ChunkState.request? index) moves
    let answers := dispatch.seen config (seen? ChunkState.answer? index) moves
    ∃ state, (dispatch.after config moves).states[index]? = some state ∧
      state.Stands config piece requests answers ∧
      ChunkState.Accounts config piece requests answers := by
  induction moves using List.reverseRecOn with
  | nil => exact ⟨_, hstart, ChunkState.stands_start hpiece, ChunkState.accounts_nil⟩
  | append_singleton moves last ih =>
      obtain ⟨state, hstate, hstands, haccounts⟩ :=
        ih fun move hmem => hplain move (List.mem_append_left _ hmem)
      have hlast := hplain last (by simp)
      simp only [seen_append_singleton, after_append_singleton]
      cases last with
      | callOff => exact absurd hlast id
      | chunk other event =>
          by_cases hother : other = index
          · subst hother
            refine ⟨state.step config event, by simp [move, hstate], ?_, ?_⟩
            · simpa [seen?, hstate] using ChunkState.stands_step hlast hstands
            · simpa [seen?, hstate] using ChunkState.accounts_step hlast hstands haccounts
          · exact ⟨state, by simp [move, hstate, hother], by simpa [seen?, hother] using hstands,
              by simpa [seen?, hother] using haccounts⟩

theorem length_states_after (config : Config) (dispatch : Dispatch) (moves : List Move) :
    (dispatch.after config moves).states.length = dispatch.states.length := by
  induction moves generalizing dispatch with
  | nil => rfl
  | cons next moves ih =>
      rw [after_cons, ih]
      cases next <;> simp [move]

theorem seen_eq_nil {α : Type} (look : ChunkState → Event → Option α) (dispatch : Dispatch)
    (moves : List Move) (h : dispatch.states.length ≤ index) :
    dispatch.seen config (seen? look index) moves = [] := by
  induction moves using List.reverseRecOn with
  | nil => rfl
  | append_singleton moves last ih =>
      have hnone : (dispatch.after config moves).states[index]? = none := by
        rw [List.getElem?_eq_none_iff, length_states_after]
        exact h
      rw [seen_append_singleton, ih]
      cases last <;> simp [seen?, hnone]

theorem possible_of_isPlain (hplain : ∀ move ∈ moves, move.IsPlain)
    (hrunning : dispatch.calledOff = false) : dispatch.Possible config moves :=
  possible_of_isOwn (fun move hmem => (hplain move hmem).isOwn) hrunning

-- The moves that get a publication on.
def strides (config : Config) : Dispatch → List Move → Nat
  | _, [] => 0
  | dispatch, next :: moves =>
      (if (dispatch.move config next).states = dispatch.states then 0 else 1) +
        strides config (dispatch.move config next) moves

-- How many of them there can still be, over all chunks.
def remaining (config : Config) (states : List ChunkState) : Nat :=
  states.foldr (fun state rest => state.remaining config + rest) 0

theorem remaining_start (config : Config) (pieces : List (List Entry)) :
    remaining config (pieces.map ChunkState.start) =
      pieces.length * (3 * config.attempts + 2) := by
  induction pieces with
  | nil => simp [remaining]
  | cons piece pieces ih =>
      have hpiece : (ChunkState.start piece).remaining config = 3 * config.attempts + 2 := by
        simp [ChunkState.start, ChunkState.remaining]
      simp only [remaining, List.map_cons, List.foldr_cons, List.length_cons] at ih ⊢
      rw [ih, hpiece, Nat.succ_mul pieces.length]
      exact Nat.add_comm _ _

theorem remaining_modify (config : Config) (states : List ChunkState) (index : Nat)
    (event : Event) :
    states.modify index (·.step config event) = states ∨
      remaining config (states.modify index (·.step config event)) < remaining config states := by
  induction states generalizing index with
  | nil => exact Or.inl (by cases index <;> rfl)
  | cons state states ih =>
      cases index with
      | zero =>
          simp only [remaining, List.modify_zero_cons, List.foldr_cons]
          rcases ChunkState.remaining_step config state event with hsame | hless
          · exact Or.inl (by rw [hsame])
          · exact Or.inr (by omega)
      | succ index =>
          rcases ih index with hsame | hless
          · exact Or.inl (by rw [List.modify_succ_cons, hsame])
          · exact Or.inr (by simpa [remaining] using hless)

theorem remaining_move (config : Config) (dispatch : Dispatch) (next : Move) :
    (dispatch.move config next).states = dispatch.states ∨
      remaining config (dispatch.move config next).states < remaining config dispatch.states := by
  cases next with
  | callOff => exact Or.inl rfl
  | chunk other event => exact remaining_modify config dispatch.states other event

-- A publication cannot go on for ever.
theorem strides_le (config : Config) (dispatch : Dispatch) (moves : List Move) :
    dispatch.strides config moves ≤ remaining config dispatch.states := by
  induction moves generalizing dispatch with
  | nil => exact Nat.zero_le _
  | cons next moves ih =>
      have hrest := ih (dispatch.move config next)
      simp only [strides]
      rcases remaining_move config dispatch next with hsame | hless
      · rw [if_pos hsame, Nat.zero_add]
        exact hsame ▸ hrest
      · split <;> omega

-- No chunk has anything more to do, whatever an answer would be.
def IsOver (config : Config) (dispatch : Dispatch) : Prop :=
  ∀ (index : Nat) (event : Event), event.IsPlain →
    (dispatch.move config (.chunk index event)).states = dispatch.states

theorem exists_settlements {states : List ChunkState}
    (h : ∀ state ∈ states, ∃ result, state = .settled result) :
    ∃ settlements : List Settlement, states = settlements.map ChunkState.settled := by
  have hrange : ∀ state ∈ states, state ∈ Set.range ChunkState.settled := by
    intro state hmem
    obtain ⟨result, rfl⟩ := h state hmem
    exact ⟨result, rfl⟩
  obtain ⟨settlements, hsame⟩ : states ∈ Set.range (List.map ChunkState.settled) :=
    Set.range_list_map _ ▸ hrange
  exact ⟨settlements, hsame.symm⟩

theorem IsOver.exists_settlements (h : dispatch.IsOver config) :
    ∃ settlements : List Settlement, dispatch.states = settlements.map ChunkState.settled := by
  refine Dispatch.exists_settlements fun state hmem => ?_
  obtain ⟨index, hindex⟩ := List.mem_iff_getElem?.mp hmem
  have hstill : ∀ event : Event, event.IsPlain → state.step config event = state := by
    intro event hplain
    have hsame := congrArg (·[index]?) (h index event hplain)
    simpa [move, hindex] using hsame
  exact ChunkState.exists_settled_of_still hstill

end Dispatch

namespace Course

-- The publication is not called off, and all its answers come from a receiver.
structure IsPlain (course : Course) : Prop where
  running : course.calledOff = false
  moves : ∀ move ∈ course.moves, move.IsPlain

section Books

variable (config : Config) (sightings : List Sighting) (course : Course) (index : Nat)

-- The requests that a chunk makes, in order.
def requests : List (List Entry) :=
  (course.start config sightings).seen config (Dispatch.seen? ChunkState.request? index)
    course.moves

-- The answers that a chunk gets, in order.
def answers : List Answer :=
  (course.start config sightings).seen config (Dispatch.seen? ChunkState.answer? index)
    course.moves

-- All requests, in the order in which they are sent.
def sent : List (List Entry) :=
  (course.start config sightings).seen config Dispatch.sent? course.moves

def exchanges : List (List Entry × Answer) :=
  (course.requests config sightings index).zip (course.answers config sightings index)

def last : Dispatch := (course.start config sightings).after config course.moves

-- What each chunk has given up.
def unsent : List (List Entry) := (course.last config sightings).states.map ChunkState.unsent

variable (entry : Entry)

def Delivered : Prop :=
  ∃ request answer, (request, answer) ∈ course.exchanges config sightings index ∧
    entry ∈ request ∧ Takes answer entry

def Rejected : Prop :=
  ∃ request answer, (request, answer) ∈ course.exchanges config sightings index ∧
    entry ∈ request ∧ Blames answer entry

def Undelivered : Prop :=
  ∃ given, (course.unsent config sightings)[index]? = some given ∧ entry ∈ given

-- The entry comes to one of its three ends and to no other.
def EndsOnce : Prop :=
  let delivered := course.Delivered config sightings index entry
  let rejected := course.Rejected config sightings index entry
  let undelivered := course.Undelivered config sightings index entry
  (delivered ∧ ¬rejected ∧ ¬undelivered) ∨ (¬delivered ∧ rejected ∧ ¬undelivered) ∨
    (¬delivered ∧ ¬rejected ∧ undelivered)

end Books

variable {config : Config} {sightings : List Sighting} {course : Course} {index : Nat}
  {piece : List Entry} {entry : Entry} {result : Except PublishFailure Unit}

theorem length_pieces : (course.start config sightings).states.length =
    (pieces config sightings).length := by
  simp [start, Dispatch.start, pieces]

theorem getElem?_start (hpiece : (pieces config sightings)[index]? = some piece) :
    (course.start config sightings).states[index]? = some (ChunkState.start piece) := by
  rw [start, Dispatch.start, List.getElem?_map, ← pieces, hpiece]
  rfl

theorem requests_eq_nil (hnone : (pieces config sightings)[index]? = none) :
    course.requests config sightings index = [] := by
  refine Dispatch.seen_eq_nil _ _ _ ?_
  rw [length_pieces]
  exact List.getElem?_eq_none_iff.mp hnone

theorem exists_piece {state : ChunkState}
    (hstate : (course.last config sightings).states[index]? = some state) :
    ∃ piece, (pieces config sightings)[index]? = some piece := by
  obtain ⟨hindex, -⟩ := List.getElem?_eq_some_iff.mp hstate
  rw [last, Dispatch.length_states_after, length_pieces] at hindex
  exact ⟨_, List.getElem?_eq_getElem hindex⟩

theorem books (h : course.IsPlain) (hpiece : (pieces config sightings)[index]? = some piece) :
    ∃ state, (course.last config sightings).states[index]? = some state ∧
      state.Stands config piece (course.requests config sightings index)
        (course.answers config sightings index) ∧
      ChunkState.Accounts config piece (course.requests config sightings index)
        (course.answers config sightings index) :=
  Dispatch.stands_after h.moves (ne_nil_of_mem_chunks (List.mem_of_getElem? hpiece))
    (getElem?_start hpiece)

-- In the end every chunk is settled.
theorem settled_of_yields (h : course.IsPlain) (hyields : course.Yields config sightings result)
    (hpiece : (pieces config sightings)[index]? = some piece) :
    ∃ settlement, (course.last config sightings).states[index]? = some (.settled settlement) ∧
      (ChunkState.settled settlement).Stands config piece (course.requests config sightings index)
        (course.answers config sightings index) := by
  obtain ⟨state, hstate, hstands, -⟩ := books h hpiece
  obtain ⟨settlements, hsettled, -⟩ := hyields.settled
  have hlast := hstate
  rw [last, hsettled, List.getElem?_map, Option.map_eq_some_iff] at hlast
  obtain ⟨settlement, -, rfl⟩ := hlast
  exact ⟨settlement, hstate, hstands⟩

-- In the end a chunk has been answered, and it gives up what is left.
theorem books_of_yields (h : course.IsPlain) (hyields : course.Yields config sightings result)
    (hpiece : (pieces config sightings)[index]? = some piece) :
    ChunkState.Accounts config piece (course.requests config sightings index)
        (course.answers config sightings index) ∧
      course.answers config sightings index ≠ [] ∧
      (course.unsent config sightings)[index]? =
        some (left piece (course.answers config sightings index)) ∧
      (left piece (course.answers config sightings index) ≠ [] →
        config.attempts ≤ (course.requests config sightings index).length) := by
  obtain ⟨-, -, -, haccounts⟩ := books h hpiece
  obtain ⟨settlement, hstate, hstands⟩ := settled_of_yields h hyields hpiece
  obtain ⟨hunsent, hanswers, hattempts⟩ := ChunkState.unsent_of_stands hstands
  refine ⟨haccounts, hanswers, ?_, hattempts⟩
  rw [unsent, List.getElem?_map, hstate]
  exact congrArg some hunsent

-- What the books of a publication say once it has returned.
structure Balanced (config : Config) (sightings : List Sighting) (course : Course)
    (result : Except PublishFailure Unit) : Prop where
  -- The first requests together are the entries, in order.
  firsts : (List.range (pieces config sightings).length).flatMap
      (fun index => (course.requests config sightings index).head?.getD []) =
    sightings.map Entry.ofSighting
  ends : ∀ index piece, (pieces config sightings)[index]? = some piece → ∀ entry ∈ piece,
    course.EndsOnce config sightings index entry
  -- What is given up is given up in its place and as often as it was given.
  given : ∀ index piece, (pieces config sightings)[index]? = some piece → ∃ keeps : Entry → Bool,
    (course.unsent config sightings)[index]? = some (piece.filter keeps) ∧
      ∀ entry ∈ piece, keeps entry = true ↔ course.Undelivered config sightings index entry
  -- Nothing is given up before the attempts have run out.
  exhausted : ∀ index entry, course.Undelivered config sightings index entry →
    (course.requests config sightings index).length = config.attempts
  succeeds : result = .ok () ↔ ∀ index entry, ¬course.Undelivered config sightings index entry
  fails : ∀ failure, result = .error failure →
    failure = .retriesExhausted ((course.unsent config sightings).flatten.map (·.id))

section Ends

variable (h : course.IsPlain) (hyields : course.Yields config sightings result)
  (hpiece : (pieces config sightings)[index]? = some piece)

include h hyields hpiece

theorem undelivered_iff : course.Undelivered config sightings index entry ↔
    entry ∈ left piece (course.answers config sightings index) := by
  obtain ⟨-, -, hunsent, -⟩ := books_of_yields h hyields hpiece
  simp [Undelivered, hunsent]

-- The first answer that does not want the entry again decides over it.
theorem exists_exchange_iff (verdict : Answer → Prop)
    (hverdict : ∀ answer, IsGenuine answer → verdict answer → asksAgain answer entry = false) :
    (∃ request answer, (request, answer) ∈ course.exchanges config sightings index ∧
        entry ∈ request ∧ verdict answer) ↔
      entry ∈ piece ∧ ∃ answer, verdict answer ∧ ((course.answers config sightings index).find?
        fun answer => !asksAgain answer entry) = some answer := by
  obtain ⟨haccounts, -⟩ := books_of_yields h hyields hpiece
  constructor
  · rintro ⟨request, answer, hexchange, hentry, hanswer⟩
    have hgenuine := haccounts.genuine answer (List.of_mem_zip hexchange).2
    obtain ⟨hmem, hfind⟩ := haccounts.exists_exchange_iff.mp
      ⟨request, hexchange, hentry, hverdict answer hgenuine hanswer⟩
    exact ⟨hmem, answer, hanswer, hfind⟩
  · rintro ⟨hmem, answer, hanswer, hfind⟩
    obtain ⟨request, hexchange, hentry, -⟩ := haccounts.exists_exchange_iff.mpr ⟨hmem, hfind⟩
    exact ⟨request, answer, hexchange, hentry, hanswer⟩

theorem ends_of_yields (hentry : entry ∈ piece) :
    course.EndsOnce config sightings index entry := by
  unfold EndsOnce
  intro delivered rejected undelivered
  obtain ⟨haccounts, -⟩ := books_of_yields h hyields hpiece
  have hdelivered : delivered ↔ entry ∈ piece ∧ ∃ answer, Takes answer entry ∧ _ = some answer :=
    exists_exchange_iff h hyields hpiece (Takes · entry) fun answer hgenuine htakes =>
      (takes_or_blames_iff hgenuine).mp (Or.inl htakes)
  have hrejected : rejected ↔ entry ∈ piece ∧ ∃ answer, Blames answer entry ∧ _ = some answer :=
    exists_exchange_iff h hyields hpiece (Blames · entry) fun answer hgenuine hblames =>
      (takes_or_blames_iff hgenuine).mp (Or.inr hblames)
  have hundelivered : undelivered ↔ _ := undelivered_iff h hyields hpiece
  rw [mem_left_iff] at hundelivered
  cases hfind : (course.answers config sightings index).find?
      fun answer => !asksAgain answer entry with
  | none =>
      have hall : undelivered := by
        refine hundelivered.mpr ⟨hentry, fun answer hmem => ?_⟩
        simpa using List.find?_eq_none.mp hfind answer hmem
      simp [hdelivered, hrejected, hfind, hall]
  | some answer =>
      have hagain : asksAgain answer entry = false := by simpa using List.find?_some hfind
      have hmem := List.mem_of_find?_eq_some hfind
      have hnone : ¬undelivered := by
        intro hundelivers
        have hwanted := (hundelivered.mp hundelivers).2 answer hmem
        rw [hagain] at hwanted
        cases hwanted
      rcases (takes_or_blames_iff (haccounts.genuine answer hmem)).mpr hagain with htakes | hblames
      · have hblameless := not_blames_of_takes htakes
        simp [hdelivered, hrejected, hfind, hentry, htakes, hblameless, hnone]
      · have huntaken : ¬Takes answer entry := fun htakes => not_blames_of_takes htakes hblames
        simp [hdelivered, hrejected, hfind, hentry, hblames, huntaken, hnone]

end Ends

theorem firsts_of_yields (h : course.IsPlain) (hyields : course.Yields config sightings result) :
    (List.range (pieces config sightings).length).flatMap
        (fun index => (course.requests config sightings index).head?.getD []) =
      sightings.map Entry.ofSighting := by
  have hfirsts : (List.range (pieces config sightings).length).map
      (fun index => (course.requests config sightings index).head?.getD []) =
        pieces config sightings := by
    refine List.ext_getElem (by simp) fun index hindex _ => ?_
    have hlength : index < (pieces config sightings).length := by simpa using hindex
    obtain ⟨haccounts, hanswers, -, -⟩ :=
      books_of_yields h hyields (List.getElem?_eq_getElem hlength)
    simp [haccounts.head?_requests hanswers]
  rw [List.flatMap, hfirsts, pieces, flatten_chunks]

-- Entries that were given up are the only failure.
theorem result_of_yields (h : course.IsPlain) (hyields : course.Yields config sightings result) :
    let ids := (course.unsent config sightings).flatten.map (·.id)
    result = if ids = [] then .ok () else .error (.retriesExhausted ids) := by
  obtain ⟨settlements, hsettled, rfl⟩ := hyields.settled
  have hstands : ∀ settlement ∈ settlements, settlement.failure? = none ∧
      settlement.undelivered = (ChunkState.settled settlement).unsent.map (·.id) := by
    intro settlement hmem
    obtain ⟨index, hindex⟩ := List.mem_iff_getElem?.mp hmem
    have hlast : (course.last config sightings).states[index]? = some (.settled settlement) := by
      rw [last, hsettled, List.getElem?_map, hindex]
      rfl
    obtain ⟨piece, hpiece⟩ := exists_piece hlast
    obtain ⟨state, hstate, hstands, -⟩ := books h hpiece
    rw [hlast] at hstate
    exact ChunkState.undelivered_of_stands (Option.some.inj hstate ▸ hstands)
  have hnone : heldFailure settlements = none :=
    (heldFailure_eq_none_iff settlements).mpr fun settlement hmem => (hstands settlement hmem).1
  have hids : settlements.flatMap Settlement.undelivered =
      (course.unsent config sightings).flatten.map (·.id) := by
    rw [unsent, last, hsettled, List.map_map, List.map_flatten, List.map_map, List.flatMap]
    exact congrArg List.flatten
      (List.map_congr_left fun settlement hmem => (hstands settlement hmem).2)
  unfold conclude
  rw [hnone, hids]
  cases (course.unsent config sightings).flatten.map (·.id) <;> rfl

theorem balanced_of_yields (h : course.IsPlain) (hyields : course.Yields config sightings result) :
    course.Balanced config sightings result where
  firsts := firsts_of_yields h hyields
  ends := fun _ _ hpiece _ hentry => ends_of_yields h hyields hpiece hentry
  given := by
    intro index piece hpiece
    obtain ⟨-, -, hunsent, -⟩ := books_of_yields h hyields hpiece
    refine ⟨_, hunsent, fun entry hentry => ?_⟩
    rw [undelivered_iff h hyields hpiece, left, List.mem_filter]
    exact ⟨fun hkept => ⟨hentry, hkept⟩, And.right⟩
  exhausted := by
    intro index entry hundelivered
    have ⟨given, hgiven, _⟩ := hundelivered
    rw [unsent, List.getElem?_map, Option.map_eq_some_iff] at hgiven
    obtain ⟨state, hstate, -⟩ := hgiven
    obtain ⟨piece, hpiece⟩ := exists_piece hstate
    obtain ⟨haccounts, -, -, hattempts⟩ := books_of_yields h hyields hpiece
    have hleft := (undelivered_iff h hyields hpiece).mp hundelivered
    exact Nat.le_antisymm haccounts.bounded (hattempts (List.ne_nil_of_mem hleft))
  succeeds := by
    rw [result_of_yields h hyields]
    have hempty : (course.unsent config sightings).flatten.map (·.id) = [] ↔
        ∀ index entry, ¬course.Undelivered config sightings index entry := by
      rw [List.map_eq_nil_iff, List.flatten_eq_nil_iff]
      constructor
      · rintro hnone index entry ⟨given, hgiven, hentry⟩
        rw [hnone given (List.mem_of_getElem? hgiven)] at hentry
        cases hentry
      · intro hnone given hmem
        obtain ⟨index, hindex⟩ := List.mem_iff_getElem?.mp hmem
        exact List.eq_nil_iff_forall_not_mem.mpr fun entry hentry =>
          hnone index entry ⟨given, hindex, hentry⟩
    rw [← hempty]
    cases (course.unsent config sightings).flatten.map (·.id) <;> simp
  fails := by
    intro failure hfailure
    rw [result_of_yields h hyields] at hfailure
    split at hfailure
    · cases hfailure
    · rw [← Except.error.inj hfailure]

-- The accounts of a publication that is not called off, whatever its receiver answers and in
-- whatever order its chunks move: the size and the number of the requests, and that a request is
-- made again for the entries that are asked for again and for no others. It returns in the end, and
-- then its books are balanced.
theorem publication_accounts (config : Config) (sightings : List Sighting) (course : Course)
    (h : course.IsPlain) :
    (∀ index, ∀ request ∈ course.requests config sightings index,
      request ≠ [] ∧ request.length ≤ config.ceiling) ∧
    (∀ index, (course.requests config sightings index).length ≤ config.attempts) ∧
    (∀ index (k : Nat) first second, (course.requests config sightings index)[k]? = some first →
      (course.requests config sightings index)[k + 1]? = some second →
      ∃ answer, (course.answers config sightings index)[k]? = some answer ∧
        second = first.filter (asksAgain answer)) ∧
    (course.start config sightings).strides config course.moves ≤
      (pieces config sightings).length * (3 * config.attempts + 2) ∧
    ((course.last config sightings).IsOver config →
      ∃ result, course.Yields config sightings result) ∧
    ∀ result, course.Yields config sightings result → course.Balanced config sightings result := by
  have hbooks : ∀ index, course.requests config sightings index = [] ∨
      ∃ piece ∈ pieces config sightings, ChunkState.Accounts config piece
        (course.requests config sightings index) (course.answers config sightings index) := by
    intro index
    cases hpiece : (pieces config sightings)[index]? with
    | none => exact Or.inl (requests_eq_nil hpiece)
    | some piece =>
        obtain ⟨-, -, -, haccounts⟩ := books h hpiece
        exact Or.inr ⟨piece, List.mem_of_getElem? hpiece, haccounts⟩
  refine ⟨?sized, ?bounded, ?retried, ?strides, ?returns, fun result => balanced_of_yields h⟩
  case sized =>
    intro index request hmem
    rcases hbooks index with hnone | ⟨piece, hpiece, haccounts⟩
    · rw [hnone] at hmem
      cases hmem
    · refine ⟨haccounts.nonempty request hmem, ?_⟩
      calc request.length
        _ ≤ piece.length := (haccounts.sublist_of_mem hmem).length_le
        _ ≤ config.ceiling := length_le_of_mem_chunks (by simp [Config.ceiling]) hpiece
  case bounded =>
    intro index
    rcases hbooks index with hnone | ⟨piece, -, haccounts⟩
    · simp [hnone]
    · exact haccounts.bounded
  case retried =>
    intro index k first second hfirst hsecond
    rcases hbooks index with hnone | ⟨piece, -, haccounts⟩
    · rw [hnone] at hfirst
      cases hfirst
    · exact haccounts.retry hfirst hsecond
  case strides =>
    refine (Dispatch.strides_le config _ _).trans (Nat.le_of_eq ?_)
    exact Dispatch.remaining_start config (pieces config sightings)
  case returns =>
    intro hover
    obtain ⟨settlements, hsettled⟩ := hover.exists_settlements
    exact ⟨conclude settlements, Dispatch.possible_of_isPlain h.moves h.running,
      settlements, hsettled, rfl⟩

-- Two chunks of one entry each. The first entry is taken, the second one runs out of attempts.
theorem publication_accounts_two_chunks :
    let config : Config := { maxAttempts := 2, batchCeiling := 1 }
    let taken : Sighting := ⟨"MRN-A", ⟨"G1", "OPEN", "v1", []⟩⟩
    let lost : Sighting := ⟨"MRN-B", ⟨"G2", "OPEN", "v1", []⟩⟩
    let course : Course := ⟨false, [.chunk 1 .send, .chunk 0 .send,
      .chunk 1 (.answer (.error (.sink "BUSY" "try later" false))), .chunk 0 (.answer (.ok [])),
      .chunk 1 .wake, .chunk 1 .send, .chunk 1 (.answer (.ok [⟨"MRN-B-G2", false, "BUSY"⟩]))]⟩
    course.IsPlain ∧
      course.requests config [taken, lost] 1 = [[.ofSighting lost], [.ofSighting lost]] ∧
      course.Yields config [taken, lost] (.error (.retriesExhausted ["MRN-B-G2"])) ∧
      course.Balanced config [taken, lost] (.error (.retriesExhausted ["MRN-B-G2"])) := by
  intro config taken lost course
  have hplain : course.IsPlain := ⟨rfl, by
    simp [course, Move.IsPlain, ChunkState.Event.IsPlain, IsGenuine]⟩
  have hstart : course.start config [taken, lost] =
      ⟨[ChunkState.start [.ofSighting taken], ChunkState.start [.ofSighting lost]], false⟩ := by
    simp [start, Dispatch.start, config, Config.ceiling, chunks, course]
  have hyields : course.Yields config [taken, lost]
      (.error (.retriesExhausted ["MRN-B-G2"])) := by
    refine ⟨Dispatch.possible_of_isPlain hplain.moves hplain.running,
      [.done, .exhausted [.ofSighting lost]], ?_, rfl⟩
    rw [hstart]
    rfl
  obtain ⟨-, -, -, -, -, hbalanced⟩ := publication_accounts config [taken, lost] course hplain
  refine ⟨hplain, ?_, hyields, hbalanced _ hyields⟩
  rw [requests, hstart]
  rfl

end Course

end DeclarationWatch.Publish
