import DeclarationWatch.Movement.Service
import DeclarationWatch.Proofs.Keyed
import DeclarationWatch.Proofs.Time.Order

namespace DeclarationWatch.Movement

open Net (Peer Reply Request)

variable {σ : Type}

-- The time for which a token may be kept, in seconds.
def AccessToken.span (token : AccessToken) : Int :=
  min ((token.expiresIn - 60).natAbs : Int) token.expiresIn

theorem AccessToken.add?_of_expiry? {token : AccessToken} {now expires : Time.Instant}
    (h : token.expiry? now = some expires) : now.add? (token.span * 1000) = some expires := by
  obtain ⟨seconds, hlifetime, hadd⟩ := Option.bind_eq_some_iff.mp h
  have hseconds : token.span = seconds := by
    unfold lifetime? at hlifetime
    simp only at hlifetime
    split at hlifetime
    · obtain ⟨_, -, rfl⟩ := Option.map_eq_some_iff.mp hlifetime
      rfl
    · cases hlifetime
  rw [hseconds, hadd]

-- A request on its way to the service and back.
structure Trip where
  time : Time.Instant
  request : Request
  reply : Reply

-- A peer that answers as another does, and notes what it was asked.
def recording (peer : Peer σ) (now : Time.Instant) : Peer (σ × List Trip) :=
  fun request (wire, trips) =>
    let (reply, wire) := peer request wire
    (reply, wire, trips ++ [⟨now, request, reply⟩])

-- The service does not accept the token.
def IsRefusal (reply : Reply) : Prop :=
  ∃ contentType body complete, reply = .answer 401 contentType body complete

namespace Service

variable (service : Service)

-- An exchange that brings a token. Its time must end within the calendar.
def Obtains (trip : Trip) (token : AccessToken) : Prop :=
  service.tokenRequest? = some trip.request ∧ tokenOf trip.reply = .ok token ∧
    token.expiry? trip.time ≠ none

-- A request that is refused because of its token.
def Refuses (trip : Trip) : Prop :=
  service.tokenRequest? ≠ some trip.request ∧ IsRefusal trip.reply

-- The token of the latest exchange that brought one, unless it was refused since.
def InForce (history : List Trip) (token : AccessToken) (since : Time.Instant) : Prop :=
  ∃ earlier trip later, history = earlier ++ trip :: later ∧ trip.time = since ∧
    service.Obtains trip token ∧
    ∀ next ∈ later, ¬service.Refuses next ∧ ∀ other, ¬service.Obtains next other

-- There is no token in force, or its time is over.
def NeedsToken (history : List Trip) (now : Time.Instant) : Prop :=
  (∀ token since, ¬service.InForce history token since) ∨
    ∃ token since expires, service.InForce history token since ∧
      since.add? (token.span * 1000) = some expires ∧ expires.notAfter now = true

-- What is stored is the token in force, with the end of its time.
def Cached (history : List Trip) (stored : Option StoredToken) : Prop :=
  ∀ kept, stored = some kept ↔ ∃ token since, service.InForce history token since ∧
    kept.secret = token.secret ∧ since.add? (token.span * 1000) = some kept.expires

-- A request of a call, if there is one, by what has been on the wire before it.
structure Requests (history : List Trip) (now : Time.Instant) (call : Call) (request : Option Trip)
    (result : Except Failure Result) : Prop where
  clock : ∀ trip, request = some trip → trip.time = now
  -- It bears the latest token.
  bears : ∀ trip, request = some trip → ∃ token since, service.InForce history token since ∧
    authorized? token.secret (service.request? call) = some trip.request
  -- Where the token is refused the call fails, and the token is given up.
  refused : ∀ trip, request = some trip → IsRefusal trip.reply →
    result = .error (.movement .unauthorized) ∧
      ∀ token since, ¬service.InForce (history ++ [trip]) token since
  -- Whatever else becomes of it, the token stays.
  keeps : ∀ trip, request = some trip → ¬IsRefusal trip.reply → ∀ token since,
    service.InForce (history ++ [trip]) token since ↔ service.InForce history token since

-- A call: an exchange, if there is one, and after it the request.
structure Proper (history : List Trip) (now : Time.Instant) (call : Call)
    (exchange request : Option Trip) (result : Except Failure Result) : Prop where
  clock : ∀ trip, exchange = some trip → trip.time = now
  needed : service.NeedsToken history now → exchange.map (·.request) = service.tokenRequest?
  spared : ¬service.NeedsToken history now → exchange = none
  -- An exchange that fails ends the call and changes nothing.
  failed : ∀ trip, exchange = some trip → (∀ token, ¬service.Obtains trip token) →
    request = none ∧ (∃ failure, result = .error failure) ∧ ∀ token since,
      service.InForce (history ++ [trip]) token since ↔ service.InForce history token since
  -- With a token in hand the request is sent, if such a request can be made at all.
  sends : (service.NeedsToken history now →
      ∃ trip token, exchange = some trip ∧ service.Obtains trip token) →
    ∀ token since, service.InForce (history ++ exchange.toList) token since →
      request.map (·.request) = authorized? token.secret (service.request? call)
  requests : service.Requests (history ++ exchange.toList) now call request result

-- Some calls, one after the other, each with its own reading of the clock.
def serve (peer : Peer σ) (session : Session (σ × List Trip))
    (calls : List (Time.Instant × Call)) : Session (σ × List Trip) :=
  calls.foldl (fun session next =>
    (service.call (recording peer next.1) next.1 next.2 session).2) session

section History

variable {service} {history : List Trip} {trip : Trip} {token : AccessToken}
  {since now : Time.Instant} {stored : Option StoredToken}

theorem Obtains.unique {other : AccessToken} (h : service.Obtains trip token)
    (hother : service.Obtains trip other) : other = token :=
  Except.ok.inj (hother.2.1.symm.trans h.2.1)

theorem Obtains.not_refuses (h : service.Obtains trip token) : ¬service.Refuses trip :=
  fun hrefuses => hrefuses.1 h.1

theorem Obtains.exists_expires (h : service.Obtains trip token) :
    ∃ expires, trip.time.add? (token.span * 1000) = some expires := by
  obtain ⟨expires, hexpires⟩ := Option.ne_none_iff_exists'.mp h.2.2
  exact ⟨expires, AccessToken.add?_of_expiry? hexpires⟩

theorem InForce.exists_expires (h : service.InForce history token since) :
    ∃ expires, since.add? (token.span * 1000) = some expires := by
  obtain ⟨earlier, trip, later, -, rfl, hobtains, -⟩ := h
  exact hobtains.exists_expires

theorem not_inForce_nil : ¬service.InForce [] token since := by
  rintro ⟨earlier, trip, later, heq, -⟩
  simp at heq

theorem inForce_append_singleton : service.InForce (history ++ [trip]) token since ↔
    (trip.time = since ∧ service.Obtains trip token) ∨
      (service.InForce history token since ∧ ¬service.Refuses trip ∧
        ∀ other, ¬service.Obtains trip other) := by
  have h := @exists_split_append_singleton _ (fun _ trip =>
    trip.time = since ∧ service.Obtains trip token) history trip
    fun later => ¬service.Refuses later ∧ ∀ other, ¬service.Obtains later other
  simpa only [InForce, and_assoc] using h

-- A trip that neither brings a token nor refuses one changes nothing.
theorem inForce_append_of_quiet (hrefuses : ¬service.Refuses trip)
    (hobtains : ∀ other, ¬service.Obtains trip other) :
    service.InForce (history ++ [trip]) token since ↔ service.InForce history token since := by
  rw [inForce_append_singleton]
  constructor
  · rintro (⟨-, htoken⟩ | ⟨hbefore, -⟩)
    · exact absurd htoken (hobtains token)
    · exact hbefore
  · intro hbefore
    exact Or.inr ⟨hbefore, hrefuses, hobtains⟩

theorem not_inForce_of_refuses (h : service.Refuses trip) :
    ¬service.InForce (history ++ [trip]) token since := by
  rw [inForce_append_singleton]
  rintro (⟨-, hobtains⟩ | ⟨-, hnot, -⟩)
  · exact hobtains.not_refuses h
  · exact hnot h

theorem cached_nil : service.Cached [] none := by
  intro kept
  simp [not_inForce_nil]

theorem Cached.append_of_quiet (h : service.Cached history stored)
    (hrefuses : ¬service.Refuses trip) (hobtains : ∀ other, ¬service.Obtains trip other) :
    service.Cached (history ++ [trip]) stored := by
  intro kept
  simp only [inForce_append_of_quiet hrefuses hobtains]
  exact h kept

theorem cached_append_of_refuses (h : service.Refuses trip) :
    service.Cached (history ++ [trip]) none := by
  intro kept
  simp [not_inForce_of_refuses h]

theorem cached_append_of_obtains {expires : Time.Instant} (h : service.Obtains trip token)
    (hexpires : trip.time.add? (token.span * 1000) = some expires) :
    service.Cached (history ++ [trip]) (some ⟨token.secret, expires⟩) := by
  intro kept
  constructor
  · rintro ⟨⟩
    exact ⟨token, trip.time, inForce_append_singleton.mpr (Or.inl ⟨rfl, h⟩), rfl, hexpires⟩
  · rintro ⟨other, since, hother, hsecret, hadd⟩
    rcases inForce_append_singleton.mp hother with ⟨rfl, hsame⟩ | ⟨-, -, hnone⟩
    · rw [h.unique hsame] at hsecret hadd
      rw [hexpires] at hadd
      cases kept
      simp_all
    · exact absurd h (hnone token)

-- The cache has something to use if no new token is needed.
theorem Cached.usable?_eq_none_iff (h : service.Cached history stored) :
    StoredToken.usable? stored now = none ↔ service.NeedsToken history now := by
  constructor
  · intro hnone
    cases stored with
    | none =>
        refine Or.inl fun token since hforce => ?_
        obtain ⟨expires, hexpires⟩ := hforce.exists_expires
        have hstored := (h ⟨token.secret, expires⟩).mpr ⟨token, since, hforce, rfl, hexpires⟩
        cases hstored
    | some kept =>
        obtain ⟨token, since, hforce, -, hexpires⟩ := (h kept).mp rfl
        refine Or.inr ⟨token, since, kept.expires, hforce, hexpires, ?_⟩
        simpa [StoredToken.usable?, StoredToken.isFresh, Time.Instant.notAfter] using hnone
  · rintro (hnone | ⟨token, since, expires, hforce, hexpires, hlate⟩)
    · cases stored with
      | none => rfl
      | some kept =>
          obtain ⟨token, since, hforce, -⟩ := (h kept).mp rfl
          exact absurd hforce (hnone token since)
    · rw [(h ⟨token.secret, expires⟩).mpr ⟨token, since, hforce, rfl, hexpires⟩]
      rw [Time.Instant.notAfter_iff] at hlate
      simp [StoredToken.usable?, StoredToken.isFresh, hlate]

end History

section Call

variable {service} {peer : Peer σ} {wire : σ} {history : List Trip} {now : Time.Instant}
  {stored : Option StoredToken} {secret : String} {request : Option Request} {call : Call}

theorem accept_authorized? {asked : Request} (h : authorized? secret request = some asked) :
    asked.accept = acceptedType := by
  obtain ⟨first, -, h⟩ := Option.bind_eq_some_iff.mp h
  obtain ⟨field, -, h⟩ := Option.bind_eq_some_iff.mp h
  cases h
  rfl

-- No request with credentials is one for a token.
theorem tokenRequest?_ne_of_authorized? {asked : Request}
    (h : authorized? secret request = some asked) : service.tokenRequest? ≠ some asked := by
  intro htoken
  obtain ⟨-, hplain, -, -⟩ := Net.parts_of_request? htoken
  have haccept := hplain.symm.trans (accept_authorized? h)
  simp [acceptedType] at haccept

-- What a trip for a token leads to.
structure Authorized (service : Service) (stored : Option StoredToken) (trip : Trip)
    (secret : Except Failure String) (after : Option StoredToken) : Prop where
  request : service.tokenRequest? = some trip.request
  outcome : (∃ token expires, service.Obtains trip token ∧
      trip.time.add? (token.span * 1000) = some expires ∧ secret = .ok token.secret ∧
      after = some ⟨token.secret, expires⟩) ∨
    ((∀ token, ¬service.Obtains trip token) ∧ (∃ failure, secret = .error failure) ∧
      after = stored)

-- What a client does for its next secret.
theorem authorize_cases {result : Except Failure String} {after : Session (σ × List Trip)}
    (h : service.authorize (recording peer now) now ⟨stored, wire, history⟩ = (result, after)) :
    (StoredToken.usable? stored now ≠ none ∧ after = ⟨stored, wire, history⟩ ∧
      ∃ kept, stored = some kept ∧ result = .ok kept.secret) ∨
    (StoredToken.usable? stored now = none ∧ service.tokenRequest? = none ∧
      after = ⟨stored, wire, history⟩ ∧ result = .error (.movement .transport)) ∨
    (StoredToken.usable? stored now = none ∧ ∃ trip, trip.time = now ∧
      after.wire.2 = history ++ [trip] ∧ Authorized service stored trip result after.stored) := by
  cases husable : StoredToken.usable? stored now with
  | some usable =>
      simp only [authorize, husable, Prod.mk.injEq] at h
      obtain ⟨rfl, rfl⟩ := h
      obtain ⟨kept, hfresh, rfl⟩ := Option.map_eq_some_iff.mp husable
      obtain ⟨hstored, -⟩ := Option.filter_eq_some_iff.mp hfresh
      exact Or.inl ⟨Option.some_ne_none _, rfl, kept, hstored, rfl⟩
  | none =>
      refine Or.inr ?_
      simp only [authorize, husable, exchange] at h
      cases hrequest : service.tokenRequest? with
      | none =>
          simp only [hrequest, Prod.mk.injEq] at h
          obtain ⟨rfl, rfl⟩ := h
          exact Or.inl ⟨rfl, rfl, rfl, rfl⟩
      | some request =>
          let trip : Trip := ⟨now, request, (peer request wire).1⟩
          refine Or.inr ⟨rfl, trip, rfl, ?_⟩
          simp only [hrequest, recording] at h
          have hfails (hnone : ∀ token, tokenOf trip.reply = .ok token → token.expiry? now = none)
              (token : AccessToken) : ¬service.Obtains trip token := by
            rintro ⟨-, htoken, hexpires⟩
            exact hexpires (hnone token htoken)
          cases htoken : tokenOf (peer request wire).1 with
          | error failure =>
              simp only [htoken, Prod.mk.injEq] at h
              obtain ⟨rfl, rfl⟩ := h
              refine ⟨rfl, hrequest, Or.inr ⟨hfails fun token hok => ?_, ⟨_, rfl⟩, rfl⟩⟩
              cases htoken.symm.trans hok
          | ok token =>
              cases hexpires : token.expiry? now with
              | none =>
                  simp only [htoken, StoredToken.ofExchange, hexpires, Prod.mk.injEq] at h
                  obtain ⟨rfl, rfl⟩ := h
                  refine ⟨rfl, hrequest, Or.inr ⟨hfails fun other hok => ?_, ⟨_, rfl⟩, rfl⟩⟩
                  cases htoken.symm.trans hok
                  exact hexpires
              | some expires =>
                  simp only [htoken, StoredToken.ofExchange, hexpires, Prod.mk.injEq] at h
                  obtain ⟨rfl, rfl⟩ := h
                  have hobtains : service.Obtains trip token :=
                    ⟨hrequest, htoken, by simp [trip, hexpires]⟩
                  exact ⟨rfl, hrequest, Or.inl ⟨token, expires, hobtains,
                    AccessToken.add?_of_expiry? hexpires, rfl, rfl⟩⟩

-- What becomes of a request with credentials.
structure Answered (service : Service) (stored : Option StoredToken) (trip : Trip)
    (received : Except MovementFailure Received) (after : Option StoredToken) : Prop where
  quiet : ∀ token, ¬service.Obtains trip token
  outcome : (service.Refuses trip ∧ received = .error .unauthorized ∧ after = none) ∨
    (¬IsRefusal trip.reply ∧ after = stored)

theorem send_cases {received : Except MovementFailure Received}
    {after : Session (σ × List Trip)}
    (h : send (recording peer now) secret request ⟨stored, wire, history⟩ = (received, after)) :
    (authorized? secret request = none ∧ after = ⟨stored, wire, history⟩ ∧
      received = .error .transport) ∨
    ∃ trip, authorized? secret request = some trip.request ∧ trip.time = now ∧
      after.wire.2 = history ++ [trip] ∧ Answered service stored trip received after.stored := by
  unfold send at h
  cases hrequest : authorized? secret request with
  | none =>
      simp only [hrequest, Prod.mk.injEq] at h
      obtain ⟨rfl, rfl⟩ := h
      exact Or.inl ⟨rfl, rfl, rfl⟩
  | some asked =>
      let trip : Trip := ⟨now, asked, (peer asked wire).1⟩
      have hother : service.tokenRequest? ≠ some trip.request :=
        tokenRequest?_ne_of_authorized? hrequest
      have hquiet : ∀ token, ¬service.Obtains trip token := fun token hobtains => hother hobtains.1
      refine Or.inr ⟨trip, rfl, rfl, ?_⟩
      simp only [hrequest, recording] at h
      cases hreply : (peer asked wire).1 with
      | nothing =>
          have hnot : ¬IsRefusal trip.reply := by
            rintro ⟨contentType, body, complete, heq⟩
            cases hreply.symm.trans heq
          simp only [hreply, Prod.mk.injEq] at h
          obtain ⟨rfl, rfl⟩ := h
          exact ⟨by simp [trip, hreply], hquiet, Or.inr ⟨hnot, rfl⟩⟩
      | answer status contentType body complete =>
          by_cases hrefused : status = 401
          · subst hrefused
            simp only [hreply, if_true, Prod.mk.injEq] at h
            obtain ⟨rfl, rfl⟩ := h
            have hrefuses : service.Refuses trip := ⟨hother, contentType, body, complete, hreply⟩
            exact ⟨by simp [trip, hreply], hquiet, Or.inl ⟨hrefuses, rfl, rfl⟩⟩
          · have hnot : ¬IsRefusal trip.reply := by
              rintro ⟨_, _, _, heq⟩
              cases hreply.symm.trans heq
              exact hrefused rfl
            simp only [hreply, hrefused, if_false] at h
            split at h <;> obtain ⟨rfl, rfl⟩ := Prod.mk.inj h <;>
              exact ⟨by simp [trip, hreply], hquiet, Or.inr ⟨hnot, rfl⟩⟩

theorem requests_none {result : Except Failure Result} :
    service.Requests history now call none result :=
  ⟨by simp, by simp, by simp, by simp⟩

theorem Cached.secret_eq {kept : StoredToken} (h : service.Cached history (some kept))
    {token : AccessToken} {since : Time.Instant} (hforce : service.InForce history token since) :
    kept.secret = token.secret := by
  obtain ⟨expires, hexpires⟩ := hforce.exists_expires
  have hsame := (h ⟨token.secret, expires⟩).mpr ⟨token, since, hforce, rfl, hexpires⟩
  rw [Option.some.inj hsame]

-- The second half of a call, with the secret that is kept.
theorem Cached.after_perform {kept : StoredToken} (h : service.Cached history (some kept))
    {result : Except Failure Result} {after : Session (σ × List Trip)}
    (hperform : service.perform (recording peer now) call kept.secret
      ⟨some kept, wire, history⟩ = (result, after)) :
    ∃ request : Option Trip, after.wire.2 = history ++ request.toList ∧
      request.map (·.request) = authorized? kept.secret (service.request? call) ∧
      service.Requests history now call request result ∧
      service.Cached after.wire.2 after.stored := by
  unfold Service.perform at hperform
  cases hsend : send (recording peer now) kept.secret (service.request? call)
    ⟨some kept, wire, history⟩ with
  | mk received sent =>
      simp only [hsend, Prod.mk.injEq] at hperform
      obtain ⟨rfl, rfl⟩ := hperform
      rcases send_cases hsend with ⟨hnone, rfl, -⟩ | ⟨trip, hrequest, htime, hwire, hanswered⟩
      · exact ⟨none, by simp, by simp [hnone], requests_none, h⟩
      · obtain ⟨token, since, hforce, hsecret, -⟩ := (h kept).mp rfl
        refine ⟨some trip, hwire, hrequest.symm, ⟨?clock, ?bears, ?refused, ?keeps⟩, ?cached⟩
        case clock =>
          rintro _ ⟨⟩
          exact htime
        case bears =>
          rintro _ ⟨⟩
          exact ⟨token, since, hforce, hsecret ▸ hrequest⟩
        case refused =>
          rintro _ ⟨⟩ hrefusal
          rcases hanswered.outcome with ⟨hrefuses, rfl, -⟩ | ⟨hnot, -⟩
          · exact ⟨rfl, fun token since => not_inForce_of_refuses hrefuses⟩
          · exact absurd hrefusal hnot
        case keeps =>
          rintro _ ⟨⟩ hnot token since
          exact inForce_append_of_quiet (fun hrefuses => hnot hrefuses.2) hanswered.quiet
        case cached =>
          rw [hwire]
          rcases hanswered.outcome with ⟨hrefuses, -, hstored⟩ | ⟨hnot, hstored⟩
          · rw [hstored]
            exact cached_append_of_refuses hrefuses
          · rw [hstored]
            exact h.append_of_quiet (fun hrefuses => hnot hrefuses.2) hanswered.quiet

-- What any call does, and what is stored after it.
theorem Cached.after_call (h : service.Cached history stored) {result : Except Failure Result}
    {after : Session (σ × List Trip)}
    (hcall : service.call (recording peer now) now call ⟨stored, wire, history⟩ =
      (result, after)) :
    ∃ exchange request : Option Trip,
      after.wire.2 = history ++ exchange.toList ++ request.toList ∧
      service.Proper history now call exchange request result ∧
      service.Cached after.wire.2 after.stored := by
  unfold Service.call at hcall
  cases hauthorize : service.authorize (recording peer now) now ⟨stored, wire, history⟩ with
  | mk secret authorized =>
      simp only [hauthorize] at hcall
      rcases authorize_cases hauthorize with
        ⟨husable, rfl, kept, rfl, rfl⟩ | ⟨hnone, hrequest, rfl, rfl⟩ |
        ⟨hnone, trip, htime, hwire, hauthorized⟩
      · rw [Ne, h.usable?_eq_none_iff] at husable
        obtain ⟨request, hafter, hsends, hrequests, hcached⟩ := h.after_perform hcall
        refine ⟨none, request, by simpa using hafter, ?_, hcached⟩
        refine ⟨by simp, fun hneeds => absurd hneeds husable, fun _ => rfl, by simp, ?_, ?_⟩
        · intro _ token since hforce
          rw [Option.toList_none, List.append_nil] at hforce
          rw [hsends, h.secret_eq hforce]
        · simpa using hrequests
      · obtain ⟨rfl, rfl⟩ := Prod.mk.inj hcall
        refine ⟨none, none, by simp, ⟨by simp, fun _ => by simp [hrequest], fun _ => rfl, by simp,
          ?_, requests_none⟩, h⟩
        intro hexchange
        obtain ⟨trip, token, hnone, -⟩ := hexchange (h.usable?_eq_none_iff.mp hnone)
        cases hnone
      · have hneeds := h.usable?_eq_none_iff.mp hnone
        obtain ⟨mid, rest⟩ := authorized
        obtain ⟨wire, trips⟩ := rest
        simp only at hwire hauthorized
        subst hwire
        rcases hauthorized.outcome with
          ⟨token, expires, hobtains, hexpires, rfl, rfl⟩ | ⟨hfails, ⟨failure, rfl⟩, rfl⟩
        · have hmid : service.Cached (history ++ [trip]) (some ⟨token.secret, expires⟩) :=
            cached_append_of_obtains hobtains hexpires
          obtain ⟨request, hafter, hsends, hrequests, hcached⟩ := hmid.after_perform hcall
          refine ⟨some trip, request, hafter, ⟨?clock, fun _ => hauthorized.request.symm,
            fun hspared => absurd hneeds hspared, ?failed, ?sends, hrequests⟩, hcached⟩
          case clock =>
            rintro _ ⟨⟩
            exact htime
          case failed =>
            rintro _ ⟨⟩ hnot
            exact absurd hobtains (hnot token)
          case sends =>
            intro _ latest since hforce
            rw [hsends, hmid.secret_eq hforce]
        · obtain ⟨rfl, rfl⟩ := Prod.mk.inj hcall
          have hquiet : ¬service.Refuses trip := fun hrefuses => hrefuses.1 hauthorized.request
          refine ⟨some trip, none, by simp, ⟨?clock, fun _ => hauthorized.request.symm,
            fun hspared => absurd hneeds hspared, ?failed, ?sends, requests_none⟩,
            h.append_of_quiet hquiet hfails⟩
          case clock =>
            rintro _ ⟨⟩
            exact htime
          case failed =>
            rintro _ ⟨⟩ -
            exact ⟨rfl, ⟨failure, rfl⟩, fun token since => inForce_append_of_quiet hquiet hfails⟩
          case sends =>
            intro hexchange
            obtain ⟨_, token, ⟨⟩, hobtains⟩ := hexchange hneeds
            exact absurd hobtains (hfails token)

end Call

theorem cached_serve (peer : Peer σ) (wire : σ) (calls : List (Time.Instant × Call)) :
    let session := service.serve peer ⟨none, wire, []⟩ calls
    service.Cached session.wire.2 session.stored := by
  induction calls using List.reverseRecOn with
  | nil => exact cached_nil
  | append_singleton calls next ih =>
      simp only [serve, List.foldl_append, List.foldl_cons, List.foldl_nil] at ih ⊢
      obtain ⟨_, _, -, -, hcached⟩ := ih.after_call rfl
      exact hcached

-- A client that makes one call after the other, whatever it is answered. Each call makes an
-- exchange if it needs a token, and only then, and after it a request with the latest token.
-- What is stored is always the token in force.
theorem call_follows_protocol (peer : Peer σ) (wire : σ) (past : List (Time.Instant × Call))
    (now : Time.Instant) (call : Call) :
    let before := service.serve peer ⟨none, wire, []⟩ past
    let outcome := service.call (recording peer now) now call before
    let history := before.wire.2
    ∃ exchange request : Option Trip,
      outcome.2.wire.2 = history ++ exchange.toList ++ request.toList ∧
      service.Proper history now call exchange request outcome.1 ∧
      service.Cached history before.stored ∧
      service.Cached outcome.2.wire.2 outcome.2.stored := by
  have hcached := service.cached_serve peer wire past
  obtain ⟨exchange, request, hwire, hproper, hafter⟩ := hcached.after_call rfl
  exact ⟨exchange, request, hwire, hproper, hcached, hafter⟩

-- A service that gives out one token and refuses it.
def fickle : Service := ⟨"http://h", "id", "secret"⟩

def ficklePeer : Peer Nat := fun _ asked =>
  (if asked = 0 then
    .answer 200 none
      (Text.Utf8.encode "\x7b\"access_token\":\"one\",\"expires_in\":3600\x7d".toList) true
  else .answer 401 none [] true, asked + 1)

def fickleCalls : List (Time.Instant × Call) := [(⟨0, 0⟩, .hold "G1" true)]

-- The call after a refusal asks for another token.
theorem call_follows_protocol_refused :
    let before := fickle.serve ficklePeer ⟨none, 0, []⟩ fickleCalls
    before.wire.2.map (·.request.authorization) = [none, some "Bearer one"] ∧
      before.stored = none ∧
      ∃ exchange request : Option Trip,
        (fickle.call (recording ficklePeer ⟨1, 0⟩) ⟨1, 0⟩ (.hold "G1" true) before).2.wire.2 =
          before.wire.2 ++ exchange.toList ++ request.toList ∧
        exchange.map (·.request) = fickle.tokenRequest? ∧ fickle.tokenRequest? ≠ none := by
  have hstored : (fickle.serve ficklePeer ⟨none, 0, []⟩ fickleCalls).stored = none := by
    decide +kernel
  obtain ⟨exchange, request, hwire, hproper, hcached, -⟩ :=
    fickle.call_follows_protocol ficklePeer 0 fickleCalls ⟨1, 0⟩ (.hold "G1" true)
  have hneeds : fickle.NeedsToken (fickle.serve ficklePeer ⟨none, 0, []⟩ fickleCalls).wire.2
      ⟨1, 0⟩ := by
    apply hcached.usable?_eq_none_iff.mp
    rw [hstored]
    rfl
  exact ⟨by decide +kernel, hstored, exchange, request, hwire, hproper.needed hneeds,
    by decide +kernel⟩

end Service

end DeclarationWatch.Movement
