import DeclarationWatch.Movement.TokenCache
import DeclarationWatch.Proofs.Keyed

namespace DeclarationWatch.Movement

namespace Asking

-- The caller waits for the refresh or is at it.
def isInLine : Asking → Bool
  | .queued | .exchanging | .storing _ => true
  | _ => false

-- The caller has begun its refresh and not ended it.
def isRefreshing : Asking → Bool
  | .exchanging | .storing _ => true
  | _ => false

def isOver : Asking → Bool
  | .served _ | .refreshed _ | .failed _ | .gone => true
  | _ => false

theorem isInLine_of_isRefreshing {state : Asking} (h : state.isRefreshing = true) :
    state.isInLine = true := by
  cases state <;> first | rfl | cases h

theorem not_isRefreshing_of_isOver {state : Asking} (h : state.isOver = true) :
    state.isRefreshing = false := by
  cases state <;> first | rfl | cases h

theorem eq_queued_of_isInLine {state : Asking} (hline : state.isInLine = true)
    (hwaits : state.isRefreshing = false) : state = .queued := by
  cases state <;> simp_all [isInLine, isRefreshing]

end Asking

namespace StoredToken

theorem usable?_eq_some_iff (stored : Option StoredToken) (now : Time.Instant) (secret : String) :
    usable? stored now = some secret ↔
      ∃ token, stored = some token ∧ now.before token.expires = true ∧ token.secret = secret := by
  cases stored with
  | none => simp [usable?]
  | some token => by_cases hfresh : now.before token.expires = true <;>
      simp [usable?, Option.filter, isFresh, hfresh]

theorem usable?_eq_none_iff (stored : Option StoredToken) (now : Time.Instant) :
    usable? stored now = none ↔
      ∀ token, stored = some token → now.before token.expires = false := by
  cases stored with
  | none => simp [usable?]
  | some token => by_cases hfresh : now.before token.expires = true <;>
      simp [usable?, Option.filter, isFresh, hfresh]

end StoredToken

namespace TokenCache

variable {cache after : TokenCache} {event : CacheEvent} {caller other : Nat}

@[simp] theorem run_nil (cache : TokenCache) : cache.run [] = cache := rfl

@[simp] theorem run_cons (cache : TokenCache) (event : CacheEvent) (events : List CacheEvent) :
    cache.run (event :: events) = (cache.step event).run events := rfl

theorem run_append (cache : TokenCache) (events more : List CacheEvent) :
    cache.run (events ++ more) = (cache.run events).run more := by
  simp [run, List.foldl_append]

-- All that one event can do to a cache.
inductive Effect (cache : TokenCache) : CacheEvent → TokenCache → Prop where
  | nothing {event : CacheEvent} : Effect cache event cache
  | invalidated : Effect cache .invalidate { cache with stored := none }
  | found {caller : Nat} {now : Time.Instant} {token : StoredToken}
      (arriving : cache.callers caller = .arriving) (stored : cache.stored = some token)
      (fresh : now.before token.expires = true) :
      Effect cache (.look caller now) (cache.setCaller caller (.served token.secret))
  | missed {caller : Nat} {now : Time.Instant} (arriving : cache.callers caller = .arriving) :
      Effect cache (.look caller now) (cache.setCaller caller .missed)
  | enqueued {caller : Nat} (missed : cache.callers caller = .missed) :
      Effect cache (.enqueue caller)
        { cache.setCaller caller .queued with queue := cache.queue ++ [caller] }
  | foundInTurn {caller : Nat} {now : Time.Instant} {token : StoredToken}
      (queued : cache.callers caller = .queued) (stored : cache.stored = some token)
      (fresh : now.before token.expires = true) :
      Effect cache (.turn caller now) (cache.leave caller (.served token.secret))
  | began {caller : Nat} {now : Time.Instant} (queued : cache.callers caller = .queued)
      (first : cache.queue.head? = some caller)
      (unusable : StoredToken.usable? cache.stored now = none) :
      Effect cache (.turn caller now)
        { cache.setCaller caller .exchanging with exchanges := cache.exchanges + 1 }
  | succeeded {caller : Nat} {now : Time.Instant} {result : Except MovementFailure AccessToken}
      {token : StoredToken} (exchanging : cache.callers caller = .exchanging)
      (outcome : outcomeOf now result = .ok token) :
      Effect cache (.exchanged caller now result) (cache.setCaller caller (.storing token))
  | failed {caller : Nat} {now : Time.Instant} {result : Except MovementFailure AccessToken}
      {failure : Failure} (exchanging : cache.callers caller = .exchanging)
      (outcome : outcomeOf now result = .error failure) :
      Effect cache (.exchanged caller now result) (cache.leave caller (.failed failure))
  | stored {caller : Nat} {token : StoredToken} (storing : cache.callers caller = .storing token) :
      Effect cache (.store caller)
        { cache.leave caller (.refreshed token.secret) with stored := some token }
  | dropped {caller : Nat} (underway : (cache.callers caller).isOver = false) :
      Effect cache (.drop caller) (cache.leave caller .gone)

theorem effect_step (cache : TokenCache) (event : CacheEvent) :
    cache.Effect event (cache.step event) := by
  cases event with
  | invalidate => exact .invalidated
  | look caller now =>
      simp only [step]
      split
      · rename_i harriving
        split
        · rename_i secret hsecret
          obtain ⟨token, hstored, hfresh, rfl⟩ :=
            (StoredToken.usable?_eq_some_iff _ _ _).mp hsecret
          exact .found harriving hstored hfresh
        · exact .missed harriving
      · exact .nothing
  | enqueue caller =>
      simp only [step]
      split
      · rename_i hmissed
        exact .enqueued hmissed
      · exact .nothing
  | turn caller now =>
      simp only [step]
      split
      · rename_i hqueued hturn
        split
        · rename_i secret hsecret
          obtain ⟨token, hstored, hfresh, rfl⟩ :=
            (StoredToken.usable?_eq_some_iff _ _ _).mp hsecret
          exact .foundInTurn hqueued hstored hfresh
        · rename_i hunusable
          exact .began hqueued (by simpa [holdsTurn] using hturn) hunusable
      · exact .nothing
  | exchanged caller now result =>
      simp only [step]
      split
      · rename_i hexchanging
        split
        · rename_i houtcome
          exact .succeeded hexchanging houtcome
        · rename_i houtcome
          exact .failed hexchanging houtcome
      · exact .nothing
  | store caller =>
      simp only [step]
      split
      · rename_i hstoring
        exact .stored hstoring
      · exact .nothing
  | drop caller =>
      simp only [step]
      split
      all_goals first | exact .nothing | skip
      rename_i hserved hrefreshed hfailed hgone
      refine .dropped ?_
      cases hstate : cache.callers caller <;> simp_all [Asking.isOver]

section Line

theorem callers_setCaller (cache : TokenCache) (caller other : Nat) (state : Asking) :
    (cache.setCaller caller state).callers other =
      if other = caller then state else cache.callers other := rfl

theorem callers_leave (cache : TokenCache) (caller other : Nat) (state : Asking) :
    (cache.leave caller state).callers other =
      if other = caller then state else cache.callers other := rfl

-- Who is in the queue, and that only its head refreshes.
structure Orderly (cache : TokenCache) : Prop where
  line : ∀ caller, caller ∈ cache.queue ↔ (cache.callers caller).isInLine = true
  first : ∀ caller, (cache.callers caller).isRefreshing = true → cache.queue.head? = some caller

theorem orderly_empty : empty.Orderly where
  line := by simp [empty, Asking.isInLine]
  first := by simp [empty, Asking.isRefreshing]

theorem Orderly.setCaller (h : cache.Orderly) {state : Asking}
    (hline : state.isInLine = (cache.callers caller).isInLine)
    (hfirst : state.isRefreshing = true → cache.queue.head? = some caller) :
    (cache.setCaller caller state).Orderly where
  line := by
    intro other
    rw [callers_setCaller]
    by_cases hother : other = caller
    · rw [if_pos hother, hline, hother]
      exact h.line caller
    · rw [if_neg hother]
      exact h.line other
  first := by
    intro other
    rw [callers_setCaller]
    by_cases hother : other = caller
    · rw [if_pos hother, hother]
      exact hfirst
    · rw [if_neg hother]
      exact h.first other

theorem Orderly.leave (h : cache.Orderly) {state : Asking} (hover : state.isInLine = false) :
    (cache.leave caller state).Orderly where
  line := by
    intro other
    rw [callers_leave, TokenCache.leave, List.mem_filter, bne_iff_ne]
    by_cases hother : other = caller
    · simp [hother, hover]
    · rw [if_neg hother, ← h.line other]
      simp [hother]
  first := by
    intro other
    rw [callers_leave]
    by_cases hother : other = caller
    · rw [if_pos hother]
      intro hrefreshing
      rw [Asking.isInLine_of_isRefreshing hrefreshing] at hover
      cases hover
    · rw [if_neg hother]
      intro hrefreshing
      obtain ⟨rest, hqueue⟩ := List.head?_eq_some_iff.mp (h.first other hrefreshing)
      simp [TokenCache.leave, hqueue, hother]

theorem Orderly.enqueue (h : cache.Orderly) :
    { cache.setCaller caller .queued with queue := cache.queue ++ [caller] }.Orderly where
  line := by
    intro other
    simp only [callers_setCaller, List.mem_append, List.mem_singleton]
    by_cases hother : other = caller
    · simp [hother, Asking.isInLine]
    · simp [hother, h.line other]
  first := by
    intro other
    simp only [callers_setCaller]
    by_cases hother : other = caller
    · simp [hother, Asking.isRefreshing]
    · rw [if_neg hother]
      intro hrefreshing
      rw [List.head?_append, h.first other hrefreshing, Option.some_or]

theorem Effect.orderly (heffect : cache.Effect event after) (h : cache.Orderly) :
    after.Orderly := by
  cases heffect with
  | nothing => exact h
  | invalidated => exact ⟨h.line, h.first⟩
  | found arriving => exact h.setCaller (by rw [arriving]; rfl) (by simp [Asking.isRefreshing])
  | missed arriving => exact h.setCaller (by rw [arriving]; rfl) (by simp [Asking.isRefreshing])
  | enqueued missed => exact h.enqueue
  | foundInTurn queued => exact h.leave rfl
  | began queued first =>
      have hset : (cache.setCaller _ .exchanging).Orderly :=
        h.setCaller (by rw [queued]; rfl) (fun _ => first)
      exact ⟨hset.line, hset.first⟩
  | succeeded exchanging =>
      exact h.setCaller (by rw [exchanging]; rfl) (fun _ => h.first _ (by rw [exchanging]; rfl))
  | failed exchanging => exact h.leave rfl
  | @stored caller token storing =>
      have hleft : (cache.leave caller (.refreshed token.secret)).Orderly := h.leave rfl
      exact ⟨hleft.line, hleft.first⟩
  | dropped underway => exact h.leave rfl

theorem orderly_run (events : List CacheEvent) : (empty.run events).Orderly := by
  induction events using List.reverseRecOn with
  | nil => exact orderly_empty
  | append_singleton events event ih =>
      rw [run_append]
      exact (effect_step _ event).orderly ih

theorem Orderly.eq_of_isRefreshing (h : cache.Orderly)
    (hcaller : (cache.callers caller).isRefreshing = true)
    (hother : (cache.callers other).isRefreshing = true) : other = caller := by
  have hheads := (h.first other hother).symm.trans (h.first caller hcaller)
  exact Option.some.inj hheads

end Line

-- The event begins an exchange of the caller.
def Begins (cache : TokenCache) (event : CacheEvent) (caller : Nat) : Prop :=
  cache.callers caller ≠ .exchanging ∧ (cache.step event).callers caller = .exchanging

-- The event changes what is stored.
def Writes (cache : TokenCache) (event : CacheEvent) : Prop :=
  event = .invalidate ∨
    ∃ caller token, event = .store caller ∧ cache.callers caller = .storing token

-- The refresh of the caller comes to nothing: the caller is dropped, or its exchange fails.
def Miscarries (cache : TokenCache) (event : CacheEvent) (caller : Nat) : Prop :=
  (cache.callers caller).isRefreshing = true ∧
    (event = .drop caller ∨ cache.callers caller = .exchanging ∧ ∃ now result failure,
      event = .exchanged caller now result ∧ outcomeOf now result = .error failure)

-- Nobody is at a refresh.
def Idle (cache : TokenCache) : Prop := ∀ caller, (cache.callers caller).isRefreshing = false

-- Something is true of each event of a run, with the cache as it finds it.
def Throughout (property : TokenCache → CacheEvent → Prop) (cache : TokenCache)
    (events : List CacheEvent) : Prop :=
  ∀ before event after, events = before ++ event :: after → property (cache.run before) event

section Steps

-- What an event can make of one caller.
inductive Fate (cache : TokenCache) (caller : Nat) : CacheEvent → Asking → Prop where
  | same {event : CacheEvent} : Fate cache caller event (cache.callers caller)
  | found {now : Time.Instant} {token : StoredToken} (arriving : cache.callers caller = .arriving)
      (stored : cache.stored = some token) (fresh : now.before token.expires = true) :
      Fate cache caller (.look caller now) (.served token.secret)
  | missed {now : Time.Instant} (arriving : cache.callers caller = .arriving) :
      Fate cache caller (.look caller now) .missed
  | enqueued (missed : cache.callers caller = .missed) : Fate cache caller (.enqueue caller) .queued
  | foundInTurn {now : Time.Instant} {token : StoredToken}
      (queued : cache.callers caller = .queued)
      (stored : cache.stored = some token) (fresh : now.before token.expires = true) :
      Fate cache caller (.turn caller now) (.served token.secret)
  | began {now : Time.Instant} (queued : cache.callers caller = .queued)
      (first : cache.queue.head? = some caller)
      (unusable : StoredToken.usable? cache.stored now = none) :
      Fate cache caller (.turn caller now) .exchanging
  | succeeded {now : Time.Instant} {result : Except MovementFailure AccessToken}
      {token : StoredToken} (exchanging : cache.callers caller = .exchanging) :
      Fate cache caller (.exchanged caller now result) (.storing token)
  | failed {now : Time.Instant} {result : Except MovementFailure AccessToken} {failure : Failure}
      (exchanging : cache.callers caller = .exchanging) :
      Fate cache caller (.exchanged caller now result) (.failed failure)
  | stored {token : StoredToken} (storing : cache.callers caller = .storing token) :
      Fate cache caller (.store caller) (.refreshed token.secret)
  | dropped (underway : (cache.callers caller).isOver = false) :
      Fate cache caller (.drop caller) .gone

theorem Effect.fate (heffect : cache.Effect event after) (caller : Nat) :
    cache.Fate caller event (after.callers caller) := by
  have hother : ∀ {other : Nat} {state : Asking}, (caller = other → cache.Fate caller event state) →
      cache.Fate caller event (if caller = other then state else cache.callers caller) := by
    intro other state hown
    split
    · exact hown ‹_›
    · exact .same
  cases heffect with
  | nothing => exact .same
  | invalidated => exact .same
  | found arriving stored fresh => exact hother (by rintro rfl; exact .found arriving stored fresh)
  | missed arriving => exact hother (by rintro rfl; exact .missed arriving)
  | enqueued missed => exact hother (by rintro rfl; exact .enqueued missed)
  | foundInTurn queued stored fresh =>
      exact hother (by rintro rfl; exact .foundInTurn queued stored fresh)
  | began queued first unusable => exact hother (by rintro rfl; exact .began queued first unusable)
  | succeeded exchanging => exact hother (by rintro rfl; exact .succeeded exchanging)
  | failed exchanging => exact hother (by rintro rfl; exact .failed exchanging)
  | stored storing => exact hother (by rintro rfl; exact .stored storing)
  | dropped underway => exact hother (by rintro rfl; exact .dropped underway)

theorem fate_step (cache : TokenCache) (event : CacheEvent) (caller : Nat) :
    cache.Fate caller event ((cache.step event).callers caller) :=
  (effect_step cache event).fate caller

-- A caller that has its result, or has gone, is not heard of again.
theorem callers_step_of_isOver (event : CacheEvent)
    (hover : (cache.callers caller).isOver = true) :
    (cache.step event).callers caller = cache.callers caller := by
  have hfate := fate_step cache event caller
  generalize (cache.step event).callers caller = state at hfate ⊢
  cases hfate with
  | same => rfl
  | found h | missed h | enqueued h | foundInTurn h | began h | succeeded h | failed h | stored h =>
      rw [h] at hover
      cases hover
  | dropped underway =>
      rw [underway] at hover
      cases hover

theorem callers_run_of_isOver (events : List CacheEvent)
    (hover : (cache.callers caller).isOver = true) :
    (cache.run events).callers caller = cache.callers caller := by
  induction events generalizing cache with
  | nil => rfl
  | cons event events ih =>
      have hstep := callers_step_of_isOver event hover
      rw [run_cons, ih (by rw [hstep]; exact hover), hstep]

theorem begins_iff : cache.Begins event caller ↔ ∃ now, event = .turn caller now ∧
    cache.callers caller = .queued ∧ cache.queue.head? = some caller ∧
    StoredToken.usable? cache.stored now = none := by
  constructor
  · rintro ⟨hbefore, hafter⟩
    have hfate := fate_step cache event caller
    rw [hafter] at hfate
    generalize hstate : Asking.exchanging = state at hfate
    cases hfate with
    | same => exact absurd hstate.symm hbefore
    | began queued first unusable => exact ⟨_, rfl, queued, first, unusable⟩
    | _ => cases hstate
  · rintro ⟨now, rfl, hqueued, hfirst, hunusable⟩
    simp [Begins, step, hqueued, holdsTurn, hfirst, hunusable]

-- Only its own beginning brings a caller to a refresh.
theorem isRefreshing_step (h : ((cache.step event).callers caller).isRefreshing = true) :
    (cache.callers caller).isRefreshing = true ∨ cache.Begins event caller := by
  rw [begins_iff]
  have hfate := fate_step cache event caller
  generalize (cache.step event).callers caller = state at hfate h
  cases hfate with
  | same => exact Or.inl h
  | began queued first unusable => exact Or.inr ⟨_, rfl, queued, first, unusable⟩
  | succeeded exchanging =>
      rw [exchanging]
      exact Or.inl rfl
  | _ => cases h

-- A caller at its refresh goes on with it or is done.
theorem isOver_step (h : (cache.callers caller).isRefreshing = true)
    (hends : ((cache.step event).callers caller).isRefreshing = false) :
    ((cache.step event).callers caller).isOver = true := by
  have hfate := fate_step cache event caller
  generalize (cache.step event).callers caller = state at hfate hends ⊢
  cases hfate with
  | same =>
      rw [h] at hends
      cases hends
  | missed state | enqueued state =>
      rw [state] at h
      cases h
  | began => cases hends
  | succeeded => cases hends
  | found | foundInTurn | failed | stored | dropped => rfl

theorem exchanges_of_begins (h : cache.Begins event caller) :
    (cache.step event).exchanges = cache.exchanges + 1 := by
  obtain ⟨now, rfl, hqueued, hfirst, hunusable⟩ := begins_iff.mp h
  simp [step, hqueued, holdsTurn, hfirst, hunusable]

theorem exchanges_of_not_begins (h : ∀ caller, ¬cache.Begins event caller) :
    (cache.step event).exchanges = cache.exchanges := by
  simp only [begins_iff] at h
  have heffect := effect_step cache event
  generalize cache.step event = after at heffect ⊢
  cases heffect with
  | began queued first unusable => exact absurd ⟨_, rfl, queued, first, unusable⟩ (h _)
  | _ => rfl

theorem stored_step_of_not_writes (h : ¬cache.Writes event) :
    (cache.step event).stored = cache.stored := by
  have heffect := effect_step cache event
  generalize cache.step event = after at heffect ⊢
  cases heffect with
  | invalidated => exact absurd (Or.inl rfl) h
  | stored storing => exact absurd (Or.inr ⟨_, _, rfl, storing⟩) h
  | _ => rfl

theorem step_store {token : StoredToken} (h : cache.callers caller = .storing token) :
    cache.step (.store caller) =
      { cache.leave caller (.refreshed token.secret) with stored := some token } := by
  simp [step, h]

end Steps

section Runs

variable {property : TokenCache → CacheEvent → Prop} {events : List CacheEvent}
  {token : StoredToken}

theorem throughout_nil (property : TokenCache → CacheEvent → Prop) (cache : TokenCache) :
    Throughout property cache [] := by
  simp [Throughout]

theorem throughout_cons : Throughout property cache (event :: events) ↔
    property cache event ∧ Throughout property (cache.step event) events :=
  forall_split_cons

theorem throughout_append_singleton : Throughout property cache (events ++ [event]) ↔
    Throughout property cache events ∧ property (cache.run events) event :=
  forall_split_append_singleton

-- The last thing that was done to what is stored is that this token was put there.
def LastStored (events : List CacheEvent) (token : StoredToken) : Prop :=
  ∃ before caller after, events = before ++ .store caller :: after ∧
    (empty.run before).callers caller = .storing token ∧
    Throughout (fun cache event => ¬cache.Writes event)
      (empty.run (before ++ [.store caller])) after

-- What is stored has been put there, and nothing was done to it since.
theorem lastStored_of_stored (h : (empty.run events).stored = some token) :
    LastStored events token := by
  induction events using List.reverseRecOn with
  | nil => cases h
  | append_singleton events event ih =>
      rw [run_append, run_cons, run_nil] at h
      by_cases hwrites : (empty.run events).Writes event
      · rcases hwrites with rfl | ⟨caller, stored, rfl, hstoring⟩
        · cases h
        · rw [step_store hstoring] at h
          cases h
          exact ⟨events, caller, [], rfl, hstoring, throughout_nil _ _⟩
      · rw [stored_step_of_not_writes hwrites] at h
        obtain ⟨before, caller, after, rfl, hstoring, hkept⟩ := ih h
        refine ⟨before, caller, after ++ [event], by simp, hstoring, ?_⟩
        rw [throughout_append_singleton, ← run_append, List.append_assoc]
        exact ⟨hkept, hwrites⟩

-- Where a caller has its secret from that did not exchange anything itself.
theorem exists_read_of_served {secret : String}
    (h : (empty.run events).callers caller = .served secret) :
    ∃ before read now after token, events = before ++ read :: after ∧
      (read = .look caller now ∨ read = .turn caller now) ∧
      (empty.run before).stored = some token ∧ token.secret = secret ∧
      now.before token.expires = true := by
  induction events using List.reverseRecOn with
  | nil => cases h
  | append_singleton events event ih =>
      rw [run_append, run_cons, run_nil] at h
      have hfate := fate_step (empty.run events) event caller
      rw [h] at hfate
      generalize hstate : Asking.served secret = state at hfate
      cases hfate with
      | same =>
          obtain ⟨before, read, now, after, token, rfl, hread⟩ := ih hstate.symm
          exact ⟨before, read, now, after ++ [event], token, by simp, hread⟩
      | @found now token arriving stored fresh =>
          cases hstate
          exact ⟨events, _, now, [], token, rfl, Or.inl rfl, stored, rfl, fresh⟩
      | @foundInTurn now token queued stored fresh =>
          cases hstate
          exact ⟨events, _, now, [], token, rfl, Or.inr rfl, stored, rfl, fresh⟩
      | _ => cases hstate

-- A refresh that comes to nothing leaves what is stored alone and gives its turn away.
theorem step_of_miscarries (h : cache.Miscarries event caller) :
    ∃ state : Asking, state.isOver = true ∧ cache.step event = cache.leave caller state := by
  obtain ⟨hrefreshing, rfl | ⟨hexchanging, now, result, failure, rfl, houtcome⟩⟩ := h
  · refine ⟨.gone, rfl, ?_⟩
    cases hstate : cache.callers caller with
    | exchanging => simp [step, hstate]
    | storing token => simp [step, hstate]
    | _ =>
        rw [hstate] at hrefreshing
        cases hrefreshing
  · exact ⟨.failed failure, rfl, by simp [step, hexchanging, houtcome]⟩

theorem idle_leave (h : cache.Orderly) (hrefreshing : (cache.callers caller).isRefreshing = true)
    {state : Asking} (hover : state.isOver = true) : (cache.leave caller state).Idle := by
  intro other
  rw [callers_leave]
  split
  · exact Asking.not_isRefreshing_of_isOver hover
  · rename_i hother
    by_contra hrefreshes
    rw [Bool.not_eq_false] at hrefreshes
    exact hother (h.eq_of_isRefreshing hrefreshing hrefreshes)

-- Where nobody is at a refresh, the first in the queue can go ahead.
theorem Idle.step_turn (hidle : cache.Idle) (h : cache.Orderly)
    (hfirst : cache.queue.head? = some caller) (now : Time.Instant) :
    (cache.step (.turn caller now)).callers caller ≠ .queued := by
  have hline := (h.line caller).mp (List.mem_of_head? hfirst)
  have hqueued := Asking.eq_queued_of_isInLine hline (hidle caller)
  cases husable : StoredToken.usable? cache.stored now <;>
    simp [step, hqueued, holdsTurn, hfirst, husable, callers_leave]

-- Until somebody begins an exchange, nobody is at a refresh, and only an invalidation changes what
-- is stored.
theorem Idle.run (hidle : cache.Idle)
    (hnone : Throughout (fun cache event => ∀ caller, ¬cache.Begins event caller) cache events) :
    (cache.run events).Idle ∧
      (.invalidate ∈ events ∨ (cache.run events).stored = cache.stored) := by
  induction events generalizing cache with
  | nil => exact ⟨hidle, Or.inr rfl⟩
  | cons event events ih =>
      obtain ⟨hevent, hevents⟩ := throughout_cons.mp hnone
      have hnext : (cache.step event).Idle := by
        intro caller
        by_contra hrefreshing
        rw [Bool.not_eq_false] at hrefreshing
        rcases isRefreshing_step hrefreshing with hbefore | hbegins
        · simp [hidle caller] at hbefore
        · exact hevent caller hbegins
      obtain ⟨hlast, hstored⟩ := ih hnext hevents
      refine ⟨hlast, ?_⟩
      rcases hstored with hinvalidated | hkept
      · exact Or.inl (List.mem_cons_of_mem _ hinvalidated)
      · by_cases hwrites : cache.Writes event
        · rcases hwrites with rfl | ⟨caller, token, -, hstoring⟩
          · exact Or.inl List.mem_cons_self
          · have hrefreshing := hidle caller
            rw [hstoring] at hrefreshing
            cases hrefreshing
        · exact Or.inr (hkept.trans (stored_step_of_not_writes hwrites))

-- While one caller is at its refresh, no other begins.
theorem exchanges_of_isRefreshing (h : cache.Orderly)
    (hfirst : (cache.callers caller).isRefreshing = true)
    (hlast : ((cache.run events).callers caller).isRefreshing = true) :
    (cache.run events).exchanges = cache.exchanges := by
  induction events generalizing cache with
  | nil => rfl
  | cons event events ih =>
      rw [run_cons] at hlast ⊢
      cases hnext : ((cache.step event).callers caller).isRefreshing with
      | false =>
          -- Its refresh has ended, and it never comes back to one.
          have hover := isOver_step hfirst hnext
          rw [callers_run_of_isOver events hover, hnext] at hlast
          cases hlast
      | true =>
          rw [ih ((effect_step cache event).orderly h) hnext hlast]
          refine exchanges_of_not_begins fun other hbegins => ?_
          obtain ⟨now, -, hqueued, hhead, -⟩ := begins_iff.mp hbegins
          rw [h.first caller hfirst] at hhead
          rw [Option.some.inj hhead, hqueued] at hfirst
          cases hfirst

-- A token that outlives all later readings makes further exchanges unnecessary.
theorem Idle.exchanges_run (hidle : cache.Idle) (hstored : cache.stored = some token)
    (hkept : .invalidate ∉ events)
    (hfresh : ∀ caller now, .turn caller now ∈ events → now.before token.expires = true) :
    (cache.run events).exchanges = cache.exchanges := by
  induction events generalizing cache with
  | nil => rfl
  | cons event events ih =>
      have hnone : ∀ caller, ¬cache.Begins event caller := by
        intro caller hbegins
        obtain ⟨now, rfl, -, -, hunusable⟩ := begins_iff.mp hbegins
        have hexpired := (StoredToken.usable?_eq_none_iff _ _).mp hunusable token hstored
        rw [hfresh caller now List.mem_cons_self] at hexpired
        cases hexpired
      have hevent : Throughout (fun cache event => ∀ caller, ¬cache.Begins event caller) cache
          [event] := throughout_cons.mpr ⟨hnone, throughout_nil _ _⟩
      obtain ⟨hnext, hsame⟩ := hidle.run hevent
      have hsame := hsame.resolve_left fun hmem =>
        hkept (List.mem_cons.mpr (Or.inl (List.mem_singleton.mp hmem)))
      rw [run_cons, run_nil] at hnext hsame
      rw [run_cons, ih hnext (hsame.trans hstored) (fun h => hkept (List.mem_cons_of_mem _ h))
        (fun caller now h => hfresh caller now (List.mem_cons_of_mem _ h))]
      exact exchanges_of_not_begins hnone

-- After a store the refresh is over, and the token is there.
theorem idle_store (h : cache.Orderly) (hstoring : cache.callers caller = .storing token) :
    (cache.step (.store caller)).Idle ∧ (cache.step (.store caller)).stored = some token := by
  rw [step_store hstoring]
  have hleft : (cache.leave caller (.refreshed token.secret)).Idle :=
    idle_leave h (by rw [hstoring]; rfl) rfl
  exact ⟨hleft, rfl⟩

end Runs

-- All callers of a cache together, in any order of events. Exchanges are made one at a time. What a
-- caller gets without one of its own was stored last and was fresh when it looked. A refresh that
-- comes to nothing changes nothing and holds nobody up. And nobody exchanges anything as long as
-- what was stored can be used.
theorem refresh_single_flight (events : List CacheEvent) :
    let cache := empty.run events
    (∀ caller other, cache.callers caller = .exchanging → cache.callers other = .exchanging →
      other = caller) ∧
    (∀ caller secret, cache.callers caller = .served secret →
      ∃ before read now after token, events = before ++ read :: after ∧
        (read = .look caller now ∨ read = .turn caller now) ∧ LastStored before token ∧
        token.secret = secret ∧ now.before token.expires = true) ∧
    (∀ event caller, cache.Miscarries event caller →
      let next := cache.step event
      next.stored = cache.stored ∧ caller ∉ next.queue ∧ next.Idle ∧
        (∀ first now, next.queue.head? = some first →
          (next.step (.turn first now)).callers first ≠ .queued) ∧
        ∀ later token, (next.run later).callers caller ≠ .storing token) ∧
    (∀ before storer token between event starter,
      events = before ++ .store storer :: between →
      (empty.run before).callers storer = .storing token →
      Throughout (fun cache event => ∀ caller, ¬cache.Begins event caller)
        (empty.run (before ++ [.store storer])) between →
      cache.Begins event starter →
      .invalidate ∈ between ∨
        ∃ now, event = .turn starter now ∧ now.before token.expires = false) ∧
    (∀ before starter now during token after,
      events = before ++ .turn starter now :: (during ++ .store starter :: after) →
      (empty.run before).Begins (.turn starter now) starter →
      (empty.run (before ++ .turn starter now :: during)).callers starter = .storing token →
      .invalidate ∉ after →
      (∀ caller reading, .turn caller reading ∈ after → reading.before token.expires = true) →
      cache.exchanges = (empty.run before).exchanges + 1) := by
  intro cache
  have horderly : cache.Orderly := orderly_run events
  refine ⟨?single, ?served, ?miscarries, ?next, ?once⟩
  case single =>
    intro caller other hcaller hother
    exact horderly.eq_of_isRefreshing (by rw [hcaller]; rfl) (by rw [hother]; rfl)
  case served =>
    intro caller secret hserved
    obtain ⟨before, read, now, after, token, hsplit, hread, hstored, hrest⟩ :=
      exists_read_of_served hserved
    exact ⟨before, read, now, after, token, hsplit, hread, lastStored_of_stored hstored, hrest⟩
  case miscarries =>
    intro event caller hmiscarries next
    obtain ⟨state, hover, hnext⟩ := step_of_miscarries hmiscarries
    have hidle : next.Idle := by
      simp only [next, hnext]
      exact idle_leave horderly hmiscarries.1 hover
    have hcaller : next.callers caller = state := by simp [next, hnext, callers_leave]
    refine ⟨by simp only [next, hnext]; rfl, by simp [next, hnext, leave], hidle, ?_, ?_⟩
    · intro first now hfirst
      exact hidle.step_turn ((effect_step cache event).orderly horderly) hfirst now
    · intro later token hstoring
      rw [callers_run_of_isOver later (by rw [hcaller]; exact hover), hcaller] at hstoring
      rw [hstoring] at hover
      cases hover
  case next =>
    rintro before storer token between event starter rfl hstoring hnone hbegins
    obtain ⟨hidle, hstored⟩ := idle_store (orderly_run before) hstoring
    obtain ⟨now, rfl, -, -, hunusable⟩ := begins_iff.mp hbegins
    rw [run_append, run_cons, run_nil] at hnone
    rcases (hidle.run hnone).2 with hinvalidated | hkept
    · exact Or.inl hinvalidated
    · have hsame : cache.stored = some token := by
        simp only [cache, run_append, run_cons]
        rw [hkept, hstored]
      exact Or.inr ⟨now, rfl, (StoredToken.usable?_eq_none_iff _ _).mp hunusable token hsame⟩
  case once =>
    rintro before starter now during token after rfl hbegins hstoring hkept hfresh
    let started := (empty.run before).step (.turn starter now)
    have hstarted : started.Orderly := (effect_step _ _).orderly (orderly_run before)
    have hrefreshing : (started.callers starter).isRefreshing = true := by
      rw [hbegins.2]
      rfl
    obtain ⟨hidle, hstored⟩ :=
      idle_store (orderly_run (before ++ .turn starter now :: during)) hstoring
    rw [run_append, run_cons] at hstoring hidle hstored
    calc cache.exchanges
      _ = (((started.run during).step (.store starter)).run after).exchanges := by
        simp only [cache, started, run_append, run_cons]
      _ = ((started.run during).step (.store starter)).exchanges :=
        hidle.exchanges_run hstored hkept hfresh
      _ = (started.run during).exchanges := by
        rw [step_store hstoring]
        rfl
      _ = started.exchanges :=
        exchanges_of_isRefreshing hstarted hrefreshing (by rw [hstoring]; rfl)
      _ = (empty.run before).exchanges + 1 := exchanges_of_begins hbegins

-- Two callers at a cold cache, and a third one when the token of the first has run out.
theorem refresh_single_flight_three :
    let result : Except MovementFailure AccessToken := .ok ⟨"one", "bearer", 3600⟩
    let token : StoredToken := ⟨"one", ⟨3540, 0⟩⟩
    let before : List CacheEvent := [.look 0 ⟨0, 0⟩, .look 1 ⟨0, 0⟩, .enqueue 0, .enqueue 1]
    let during : List CacheEvent := [.exchanged 0 ⟨0, 0⟩ result]
    let after : List CacheEvent := [.turn 1 ⟨1, 0⟩, .look 2 ⟨3540, 0⟩, .enqueue 2]
    let events := before ++ .turn 0 ⟨0, 0⟩ :: (during ++ .store 0 :: after)
    let cache := empty.run events
    cache.exchanges = 1 ∧ cache.callers 1 = .served "one" ∧
      (∃ before token, LastStored before token ∧ token.secret = "one") ∧
      cache.Begins (.turn 2 ⟨3540, 0⟩) 2 ∧ Time.Instant.before ⟨3540, 0⟩ token.expires = false ∧
      (empty.run (events ++ [.turn 2 ⟨3540, 0⟩])).Miscarries (.drop 2) 2 ∧
      ((empty.run (events ++ [.turn 2 ⟨3540, 0⟩])).step (.drop 2)).stored = some token := by
  intro result token before during after events cache
  have hstoring : (empty.run (before ++ .turn 0 ⟨0, 0⟩ :: during)).callers 0 = .storing token := rfl
  have hfirst : (empty.run before).Begins (.turn 0 ⟨0, 0⟩) 0 := ⟨by decide, rfl⟩
  have hthird : cache.Begins (.turn 2 ⟨3540, 0⟩) 2 := ⟨by decide, rfl⟩
  have hdropped : (empty.run (events ++ [.turn 2 ⟨3540, 0⟩])).Miscarries (.drop 2) 2 :=
    ⟨rfl, Or.inl rfl⟩
  have hnone : Throughout (fun cache event => ∀ caller, ¬cache.Begins event caller)
      (empty.run ((before ++ .turn 0 ⟨0, 0⟩ :: during) ++ [.store 0])) after := by
    simp only [after, throughout_cons, throughout_nil, begins_iff, and_true]
    refine ⟨?_, by simp, by simp⟩
    rintro caller ⟨now, hturn, -, -, hunusable⟩
    cases hturn
    cases hunusable
  obtain ⟨-, hserved, -, hnext, honce⟩ := refresh_single_flight events
  obtain ⟨_, _, _, _, stored, -, -, hstored, hsecret, -⟩ := hserved 1 "one" rfl
  obtain ⟨-, -, hmiscarries, -, -⟩ := refresh_single_flight (events ++ [.turn 2 ⟨3540, 0⟩])
  have hexpired := hnext (before ++ .turn 0 ⟨0, 0⟩ :: during) 0 token after _ 2 rfl hstoring hnone
    hthird
  refine ⟨?_, rfl, ⟨_, stored, hstored, hsecret⟩, hthird, ?_, hdropped,
    (hmiscarries _ _ hdropped).1.trans rfl⟩
  · refine honce before 0 ⟨0, 0⟩ during token after rfl hfirst hstoring (by simp [after]) ?_
    intro caller reading hturn
    simp only [after, List.mem_cons, CacheEvent.turn.injEq, reduceCtorEq, List.not_mem_nil,
      or_false] at hturn
    rw [hturn.2]
    rfl
  · rcases hexpired with hinvalidated | ⟨now, hturn, hlate⟩
    · simp [after] at hinvalidated
    · cases hturn
      exact hlate

end TokenCache

end DeclarationWatch.Movement
