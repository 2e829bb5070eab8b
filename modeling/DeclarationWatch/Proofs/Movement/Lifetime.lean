import DeclarationWatch.Proofs.Json.Bounds
import DeclarationWatch.Proofs.Movement.Credentials
import DeclarationWatch.Proofs.Movement.SingleFlight
import DeclarationWatch.Proofs.Time.Reading

namespace DeclarationWatch.Movement

open Json (Decoder)
open Time (Instant)

namespace AccessToken

theorem fits_expiresIn {body : String} {token : AccessToken} (h : ofText body = .ok token) :
    Width.fitsSigned64 token.expiresIn = true := by
  have hdecode := Json.decode_of_decodeText h
  simp only [decode, Decoder.bind_eq_ok] at hdecode
  obtain ⟨draft, hdraft, htoken⟩ := hdecode
  have hfits : ∀ n, draft.expiresIn = some n → Width.fitsSigned64 n = true := by
    refine Decoder.record_preserves (fun draft : Draft => ∀ n, draft.expiresIn = some n →
      Width.fitsSigned64 n = true) ?_ (fun n hn => by cases hn) hdraft
    intro field hfield part hpart last next hlast hstore
    simp only [fields, List.mem_cons, List.not_mem_nil, or_false] at hfield
    rcases hfield with rfl | rfl | rfl
    · obtain ⟨value, -, rfl⟩ := Decoder.map_eq_ok.mp hstore
      exact hlast
    · obtain ⟨value, -, rfl⟩ := Decoder.map_eq_ok.mp hstore
      exact hlast
    · obtain ⟨value, hvalue, rfl⟩ := Decoder.map_eq_ok.mp hstore
      rintro n ⟨rfl⟩
      exact Json.fits_of_int64 (Json.bounded_of_mem_parts hpart) hvalue
  split at htoken
  · rename_i secret expiresIn hsecret hexpires
    cases htoken
    exact hfits _ hexpires
  · cases htoken

-- The shortest response that says when its token runs out.
def response (expiresIn : Int) : Json :=
  .object [("access_token", .string "t"), ("expires_in", Json.int expiresIn)]

theorem ofText_response {expiresIn : Int} (h : Width.fitsSigned64 expiresIn = true) :
    ofText (response expiresIn).text = .ok ⟨"t", "", expiresIn⟩ := by
  obtain ⟨hlow, hhigh⟩ := (Width.fitsSigned64_iff expiresIn).mp h
  have hexact : (response expiresIn).Exact := by
    simp only [response, Json.int, Json.Exact, Json.ExactMembers,
      Json.Number.Exact, Json.InRange, true_and, and_true]
    simp only [Width.signed64, Width.words64] at *
    omega
  rw [ofText, Json.decodeText_text decode _ hexact]
  have hint : ∀ levels, Decoder.int64 levels (.number (.ok (.integer expiresIn))) = .ok expiresIn :=
    fun levels => if_pos hhigh
  simp [decode, response, Json.int, Json.nodeOf, Json.membersOf, Decoder.record,
    Decoder.recordObject, Decoder.recordMembers, Json.maxDepth, fields, Json.Field.required,
    Json.Field.defaulted, Decoder.string, hint, Decoder.close, bind, Except.bind, Except.map]

section Expiry

variable {token : AccessToken} {now : Instant}

-- A lifetime that could end in the calendar is far from all other limits.
theorem lifetime?_eq_span (hlow : Instant.firstSecond - Instant.lastReading ≤ token.span)
    (hhigh : token.span ≤ Instant.lastSecond) : token.lifetime? = some token.span := by
  have hbounds := And.intro hlow hhigh
  simp only [span, Instant.firstSecond_eq, Instant.lastReading_eq, Instant.lastSecond_eq] at hbounds
  have hshortened : Width.fitsSigned64 (token.expiresIn - latencySeconds) = true := by
    rw [Width.fitsSigned64_iff]
    simp only [Width.signed64, latencySeconds]
    omega
  have hsize : Width.fitsSigned64 (token.expiresIn - latencySeconds).natAbs = true := by
    rw [Width.fitsSigned64_iff]
    simp only [Width.signed64, latencySeconds]
    omega
  have hspan : Time.spanOf? (token.span * 1000) = some (token.span * 1000) :=
    Time.spanOf?_seconds hlow hhigh
  unfold lifetime?
  simp only [hshortened, hsize, Bool.and_true, if_true]
  exact (congrArg (Option.map fun _ => token.span) hspan).trans rfl

theorem expiry?_of_isReading (hnow : now.IsReading) : token.expiry? now =
    if (now.plus token.span).inRange then some (now.plus token.span) else none := by
  obtain ⟨hzero, hlast, hfraction⟩ := Instant.isReading_iff.mp hnow
  have hadd := Instant.add?_seconds hfraction token.span
  by_cases hrange : (now.plus token.span).inRange = true
  · have hwithin := Instant.inRange_plus_iff.mp hrange
    have hlifetime : token.lifetime? = some token.span := lifetime?_eq_span (by omega) (by omega)
    rw [expiry?, hlifetime, ← hadd]
    rfl
  · rw [if_neg hrange] at hadd ⊢
    cases hexpiry : token.expiry? now with
    | none => rfl
    | some expires => exact absurd ((add?_of_expiry? hexpiry).symm.trans hadd) nofun

end Expiry

end AccessToken

namespace StoredToken

variable {token : AccessToken} {now : Instant}

theorem ofExchange_of_isReading (hnow : now.IsReading) : ofExchange token now =
    if (now.plus token.span).inRange then .ok ⟨token.secret, now.plus token.span⟩
    else .error .outOfRange := by
  rw [ofExchange, AccessToken.expiry?_of_isReading hnow]
  by_cases hrange : (now.plus token.span).inRange = true <;> simp [hrange]

theorem forall_ofExchange_iff :
    (∀ now : Instant, now.IsReading → ofExchange token now ≠ .error .outOfRange) ↔
      Instant.firstSecond ≤ token.expiresIn ∧
        token.expiresIn ≤ Instant.lastSecond - Instant.lastReading + 60 := by
  have hone : ∀ now : Instant, now.IsReading → (ofExchange token now ≠ .error .outOfRange ↔
      (now.plus token.span).inRange = true) := by
    intro now hnow
    rw [ofExchange_of_isReading hnow]
    by_cases hrange : (now.plus token.span).inRange = true <;> simp [hrange]
  rw [forall₂_congr hone, Instant.forall_inRange_plus_iff]
  rw [Instant.firstSecond_eq, Instant.lastSecond_eq, Instant.lastReading_eq]
  simp only [AccessToken.span]
  omega

end StoredToken

-- The clock that an event reads.
def CacheEvent.reading? : CacheEvent → Option Instant
  | .look _ now | .turn _ now | .exchanged _ now _ => some now
  | .enqueue _ | .store _ | .drop _ | .invalidate => none

namespace TokenCache

variable {cache : TokenCache} {event : CacheEvent} {events : List CacheEvent} {caller : Nat}
  {stored : StoredToken}

-- All clocks are read in the years from 1970 to 9999.
def Timely (events : List CacheEvent) : Prop :=
  ∀ event ∈ events, ∀ now, event.reading? = some now → now.IsReading

-- A caller that has a token to store waits for nobody, and only its own steps count.
theorem callers_step_of_storing (h : cache.callers caller = .storing stored)
    (hstore : event ≠ .store caller) (hdrop : event ≠ .drop caller) :
    (cache.step event).callers caller = .storing stored := by
  have hfate := fate_step cache event caller
  generalize (cache.step event).callers caller = state at hfate ⊢
  cases hfate with
  | same => exact h
  | stored => exact absurd rfl hstore
  | dropped => exact absurd rfl hdrop
  | found other | missed other | enqueued other | foundInTurn other | began other
  | succeeded other | failed other =>
      rw [h] at other
      cases other

theorem callers_run_of_storing (h : cache.callers caller = .storing stored)
    (hothers : ∀ event ∈ events, event ≠ .store caller ∧ event ≠ .drop caller) :
    (cache.run events).callers caller = .storing stored := by
  induction events generalizing cache with
  | nil => exact h
  | cons event rest ih =>
      obtain ⟨hstore, hdrop⟩ := hothers event List.mem_cons_self
      exact ih (callers_step_of_storing h hstore hdrop)
        fun other hother => hothers other (List.mem_cons_of_mem _ hother)

-- A token that is about to be stored comes from an exchange of its caller.
theorem storing_step (h : (cache.step event).callers caller = .storing stored) :
    cache.callers caller = .storing stored ∨
      ∃ since token, event = .exchanged caller since (.ok token) ∧
        StoredToken.ofExchange token since = .ok stored := by
  have hother : ∀ {other : Nat} {state : Asking}, (∀ token, state ≠ .storing token) →
      (if caller = other then state else cache.callers caller) = .storing stored →
      cache.callers caller = .storing stored := by
    intro other state hstate hcaller
    split at hcaller
    · exact absurd hcaller (hstate stored)
    · exact hcaller
  have heffect := effect_step cache event
  generalize cache.step event = after at heffect h
  cases heffect with
  | nothing | invalidated => exact Or.inl h
  | found | missed | enqueued | foundInTurn | began | failed | stored | dropped =>
      exact Or.inl (hother (by simp) h)
  | @succeeded other now result token exchanging outcome =>
      rw [callers_setCaller] at h
      split at h
      · rename_i hcaller
        cases h
        cases result with
        | error failure => cases outcome
        | ok token => exact Or.inr ⟨now, token, hcaller ▸ rfl, outcome⟩
      · exact Or.inl h

theorem exists_exchange_of_storing (h : (empty.run events).callers caller = .storing stored) :
    ∃ before since token after, events = before ++ .exchanged caller since (.ok token) :: after ∧
      StoredToken.ofExchange token since = .ok stored := by
  induction events using List.reverseRecOn with
  | nil => cases h
  | append_singleton events event ih =>
      rw [run_append, run_cons, run_nil] at h
      rcases storing_step h with hstoring | ⟨since, token, rfl, hexchange⟩
      · obtain ⟨before, since, token, after, rfl, hexchange⟩ := ih hstoring
        exact ⟨before, since, token, after ++ [event], by simp, hexchange⟩
      · exact ⟨events, since, token, [], rfl, hexchange⟩

-- A secret that is served was put there by an exchange, and its time is not over.
theorem exchange_of_served (htimely : Timely events) {secret : String}
    (h : (empty.run events).callers caller = .served secret) :
    ∃ before other since token between read now after,
      events = before ++ .exchanged other since (.ok token) :: (between ++ read :: after) ∧
      (read = .look caller now ∨ read = .turn caller now) ∧ token.secret = secret ∧
      Instant.elapsed since now < token.span * 1000000000 := by
  obtain ⟨past, read, now, after, stored, rfl, hread, hstored, rfl, hfresh⟩ :=
    exists_read_of_served h
  obtain ⟨kept, storer, during, rfl, hstoring, -⟩ := lastStored_of_stored hstored
  obtain ⟨before, since, token, between, rfl, hexchange⟩ := exists_exchange_of_storing hstoring
  have hsince : since.IsReading := htimely (.exchanged storer since (.ok token)) (by simp) _ rfl
  have hnow : now.IsReading := by
    rcases hread with rfl | rfl
    · exact htimely (.look caller now) (by simp) _ rfl
    · exact htimely (.turn caller now) (by simp) _ rfl
  rw [StoredToken.ofExchange_of_isReading hsince] at hexchange
  split at hexchange
  · cases hexchange
    refine ⟨before, storer, since, token, between ++ .store storer :: during, read, now,
      after,
      by simp, hread, rfl, ?_⟩
    exact (Instant.before_plus_iff hsince.fraction hnow.fraction).mp hfresh
  · cases hexchange

-- What becomes of the answer to an exchange. Any integer of 64 bits may come as its lifetime, and
-- the lifetime is kept without a look at the calendar.
theorem lifetime_of_responses (seconds : Int) :
    ((∃ body token, AccessToken.ofText body = .ok token ∧ token.expiresIn = seconds) ↔
      Width.fitsSigned64 seconds = true) ∧
    (∀ body token, AccessToken.ofText body = .ok token → token.expiresIn = seconds →
      (∀ (now : Instant), now.IsReading → ∀ (cache : TokenCache) caller,
        cache.callers caller = .exchanging →
        let expires := now.plus (min ((seconds - 60).natAbs : Int) seconds)
        let answered := cache.step (.exchanged caller now (.ok token))
        (expires.inRange = false →
          answered.callers caller = .failed .outOfRange ∧ answered.stored = cache.stored) ∧
        (expires.inRange = true → ∀ between,
          (∀ event ∈ between, event ≠ .store caller ∧ event ≠ .drop caller) →
          let after := (answered.run between).step (.store caller)
          after.callers caller = .refreshed token.secret ∧
            after.stored = some ⟨token.secret, expires⟩)) ∧
      ((∀ now : Instant, now.IsReading → StoredToken.ofExchange token now ≠ .error .outOfRange) ↔
        Instant.firstSecond ≤ seconds ∧
          seconds ≤ Instant.lastSecond - Instant.lastReading + 60)) ∧
    ∀ events, Timely events → ∀ caller secret, (empty.run events).callers caller = .served secret →
      ∃ before other since token between read now after,
        events = before ++ .exchanged other since (.ok token) :: (between ++ read :: after) ∧
        (read = .look caller now ∨ read = .turn caller now) ∧ token.secret = secret ∧
        Instant.elapsed since now <
          min ((token.expiresIn - 60).natAbs : Int) token.expiresIn * 1000000000 := by
  refine ⟨⟨?_, fun hfits => ?_⟩, ?_, ?_⟩
  · rintro ⟨body, token, hread, rfl⟩
    exact AccessToken.fits_expiresIn hread
  · exact ⟨_, _, AccessToken.ofText_response hfits, rfl⟩
  · rintro body token - rfl
    refine ⟨fun now hnow cache caller hexchanging => ?_, StoredToken.forall_ofExchange_iff⟩
    intro expires answered
    have houtcome : StoredToken.ofExchange token now =
        if expires.inRange then .ok ⟨token.secret, expires⟩ else .error .outOfRange :=
      StoredToken.ofExchange_of_isReading hnow
    constructor
    · intro hout
      rw [hout] at houtcome
      have hanswered : answered = cache.leave caller (.failed .outOfRange) := by
        simp [answered, step, hexchanging, outcomeOf, houtcome]
      rw [hanswered]
      exact ⟨by simp [callers_leave], rfl⟩
    · intro hin between hothers after
      rw [hin, if_pos rfl] at houtcome
      have hanswered : answered = cache.setCaller caller (.storing ⟨token.secret, expires⟩) := by
        simp [answered, step, hexchanging, outcomeOf, houtcome]
      have hstoring : (answered.run between).callers caller = .storing ⟨token.secret, expires⟩ :=
        callers_run_of_storing (by rw [hanswered, callers_setCaller_self]) hothers
      simp only [after, step_store hstoring]
      exact ⟨by simp [callers_leave], trivial⟩
  · intro events htimely caller secret hserved
    exact exchange_of_served htimely hserved

-- A token for four hours, a caller that fetches it and another one that finds it.
theorem lifetime_of_responses_hours :
    let token : AccessToken := ⟨"t", "", 14400⟩
    let now : Instant := ⟨1762513200, 0⟩
    let late : Instant := ⟨1762527539, 999999999⟩
    let begun := empty.run [.look 0 now, .enqueue 0, .turn 0 now]
    let finished := (begun.step (.exchanged 0 now (.ok token))).step (.store 0)
    AccessToken.ofText "\x7b\"access_token\": \"t\", \"expires_in\": 14400\x7d" = .ok token ∧
      begun.callers 0 = .exchanging ∧ finished.callers 0 = .refreshed "t" ∧
      finished.stored = some ⟨"t", ⟨1762527540, 0⟩⟩ ∧
      (∀ time : Instant, time.IsReading → StoredToken.ofExchange token time ≠ .error .outOfRange) ∧
      (finished.step (.look 1 late)).callers 1 = .served "t" ∧
      ∃ (since : Instant) (used : AccessToken), used.secret = "t" ∧ Instant.elapsed since late <
        min ((used.expiresIn - 60).natAbs : Int) used.expiresIn * 1000000000 := by
  intro token now late begun finished
  have hread : AccessToken.ofText "\x7b\"access_token\": \"t\", \"expires_in\": 14400\x7d" =
      .ok token := by decide +kernel
  have hnow : now.IsReading := ⟨by decide, by decide, by decide⟩
  have hlate : late.IsReading := ⟨by decide, by decide, by decide⟩
  obtain ⟨-, hresponse, hserved⟩ := lifetime_of_responses 14400
  obtain ⟨hone, hall⟩ := hresponse _ token hread rfl
  have hexpires : now.plus (min ((14400 - 60 : Int).natAbs : Int) 14400) = ⟨1762527540, 0⟩ := by
    decide +kernel
  have hkept := (hone now hnow begun 0 rfl).2
  rw [hexpires] at hkept
  have hfinished : finished = (begun.step (.exchanged 0 now (.ok token))).step (.store 0) := rfl
  obtain ⟨hcaller, hstored⟩ := hkept (by decide) [] (by simp)
  rw [run_nil, ← hfinished] at hcaller hstored
  have htimely : Timely [.look 0 now, .enqueue 0, .turn 0 now, .exchanged 0 now (.ok token),
      .store 0, .look 1 late] := by
    simp [Timely, CacheEvent.reading?, hnow, hlate]
  obtain ⟨before, other, since, used, between, read, reading, after, hevents, hlook, hsecret,
    helapsed⟩ := hserved _ htimely 1 "t" (by decide +kernel)
  refine ⟨hread, rfl, hcaller, hstored, hall.mpr (by decide), by decide +kernel, since, used,
    hsecret, ?_⟩
  have hmem : read ∈ [.look 0 now, .enqueue 0, .turn 0 now, .exchanged 0 now (.ok token), .store 0,
      .look 1 late] := by
    rw [hevents]
    simp
  rcases hlook with rfl | rfl
  · have hreading : reading = late := by simpa using hmem
    rwa [hreading] at helapsed
  · simp at hmem

-- The longest lifetime that can be written does not even fit into a span.
theorem not_forall_refreshed :
    ¬∀ body token, AccessToken.ofText body = .ok token → ∀ (now : Instant), now.IsReading →
      ∀ (cache : TokenCache) caller, cache.callers caller = .exchanging →
        (cache.run [.exchanged caller now (.ok token), .store caller]).callers caller =
          .refreshed token.secret := by
  intro hall
  have hnow : Instant.IsReading ⟨1762513200, 0⟩ := ⟨by decide, by decide, by decide⟩
  have hread := AccessToken.ofText_response (show Width.fitsSigned64 9223372036854775807 = true by
    decide)
  have hrefreshed := hall _ _ hread _ hnow
    (empty.run [.look 0 ⟨1762513200, 0⟩, .enqueue 0, .turn 0 ⟨1762513200, 0⟩]) 0 rfl
  exact absurd hrefreshed (by decide +kernel)

end TokenCache

end DeclarationWatch.Movement
