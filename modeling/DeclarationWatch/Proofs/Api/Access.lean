import DeclarationWatch.Api.App

namespace DeclarationWatch.Api

theorem Incoming.exists_header_of_field? {request : Incoming} {name text : String}
    (h : request.field? name = some text) :
    ∃ header ∈ request.headers, header.1.map Char.toLower = name ∧ header.2 = text := by
  obtain ⟨header, hfind, htext⟩ := Option.map_eq_some_iff.mp h
  exact ⟨header, List.mem_of_find?_eq_some hfind, by simpa using List.find?_some hfind, htext⟩

namespace App

variable {ω : Type}

-- What a stranger is told.
def refusal (guarded : Bool) (now : Time.Instant) (request : Incoming) : Response :=
  match Route.find guarded request.method (Route.pathOf request.uri.toList) with
  | .unknown => .bare 404
  | .wrongMethod resource => if Route.isOpen resource then .bare 405 else turnAway request
  | .found (.health withBody) => health now withBody
  | .found _ => turnAway request

section Stranger

variable {app : App ω} {request : Incoming}

theorem recognizes_of_credentials_eq_none (h : app.credentials = none) :
    app.recognizes request = false := by
  rw [recognizes, h]
  rfl

-- Only the first field of a name is looked at, so it is enough that no field is good.
theorem recognizes_of_headers
    (h : ∀ credentials, app.credentials = some credentials → ∀ header ∈ request.headers,
      header.1.map Char.toLower = "authorization" → credentials.admits (some header.2) = false) :
    app.recognizes request = false := by
  cases hcredentials : app.credentials with
  | none => exact recognizes_of_credentials_eq_none hcredentials
  | some credentials =>
      rw [recognizes, hcredentials]
      cases hfield : request.field? "authorization" with
      | none => rfl
      | some text =>
          obtain ⟨header, hmem, hname, rfl⟩ := Incoming.exists_header_of_field? hfield
          exact h credentials hcredentials header hmem hname

-- A stranger gets no further than to the health of the program.
theorem permits_of_stranger (h : app.recognizes request = false) (action : Action) :
    app.permits request action = true ↔ ∃ withBody, action = .health withBody := by
  cases action with
  | health withBody => simp [permits]
  | _ => simpa [permits] using h

theorem handle_of_stranger (h : app.recognizes request = false) (outage : Outage)
    (now : Time.Instant) (state : State ω) : app.handle outage now request state =
      (some (refusal app.credentials.isSome now request), state) := by
  unfold handle refusal
  cases Route.find app.credentials.isSome request.method (Route.pathOf request.uri.toList) with
  | unknown => rfl
  | wrongMethod resource => simp only [h, Bool.or_false]
  | found action =>
      by_cases hpermits : app.permits request action = true
      · obtain ⟨withBody, rfl⟩ := (permits_of_stranger h action).mp hpermits
        rfl
      · cases action with
        | health withBody => exact absurd rfl hpermits
        | _ => simp only [hpermits, Bool.false_eq_true, if_false]

end Stranger

section Recording

-- The same program, with a record of its calls for holds.
def recording (app : App ω) : App (ω × List (String × Bool)) where
  policy := app.policy
  credentials := app.credentials
  hold := fun id on world =>
    let (result, next) := app.hold id on world.1
    (result, (next, world.2 ++ [(id, on)]))

def recorded (state : State ω) (calls : List (String × Bool)) : State (ω × List (String × Bool)) :=
  ⟨state.ledger, (state.world, calls)⟩

variable (app : App ω) (outage : Outage) (now : Time.Instant) (request : Incoming)
  (state : State ω) (calls : List (String × Bool))

theorem clear_recorded : clear outage (recorded state calls) =
    ((clear outage state).1, recorded (clear outage state).2 calls) := by
  unfold clear
  cases outage.deleteAll <;> rfl

theorem register_recording (reference : String) :
    app.recording.register outage now reference (recorded state calls) =
      ((app.register outage now reference state).1,
        recorded (app.register outage now reference state).2 calls) := by
  unfold register
  cases Mrn.ofText reference with
  | error failure => rfl
  | ok mrn =>
      simp only [recording, recorded]
      split <;> rfl

theorem setHold_recording (id : String) :
    ∃ more, app.recording.setHold request id (recorded state calls) =
      ((app.setHold request id state).1,
        recorded (app.setHold request id state).2 (calls ++ more)) := by
  unfold setHold
  cases holdOf request with
  | error response => exact ⟨[], by simp⟩
  | ok on =>
      have hhold : app.recording.hold id on (state.world, calls) =
          ((app.hold id on state.world).1, ((app.hold id on state.world).2, calls ++ [(id, on)])) :=
        rfl
      refine ⟨[(id, on)], ?_⟩
      simp only [recorded, hhold]
      rcases app.hold id on state.world with ⟨result, world⟩
      cases result with
      | ok done => rfl
      | error failure => cases failure <;> rfl

theorem perform_recording (action : Action) : ∃ more,
    app.recording.perform outage now request action (recorded state calls) =
      ((app.perform outage now request action state).1,
        recorded (app.perform outage now request action state).2 (calls ++ more)) := by
  cases action with
  | health withBody => exact ⟨[], by simp [perform]⟩
  | clear => exact ⟨[], by simp [perform, clear_recorded]⟩
  | register segment =>
      refine ⟨[], ?_⟩
      simp only [perform, List.append_nil]
      cases Route.parameter? segment with
      | none => rfl
      | some reference => exact app.register_recording outage now state calls reference
  | hold segment =>
      simp only [perform]
      cases Route.parameter? segment with
      | none => exact ⟨[], by simp⟩
      | some id => exact app.setHold_recording request state calls id

-- The record changes nothing else.
theorem handle_recording : ∃ more,
    app.recording.handle outage now request (recorded state calls) =
      ((app.handle outage now request state).1,
        recorded (app.handle outage now request state).2 (calls ++ more)) := by
  have hpermits : ∀ action, app.recording.permits request action = app.permits request action := by
    intro action
    cases action <;> rfl
  have hrecognizes : app.recording.recognizes request = app.recognizes request := rfl
  have hcredentials : app.recording.credentials = app.credentials := rfl
  simp only [handle, hcredentials, hrecognizes, hpermits]
  cases Route.find app.credentials.isSome request.method (Route.pathOf request.uri.toList) with
  | unknown => exact ⟨[], by simp⟩
  | wrongMethod resource => exact ⟨[], by simp⟩
  | found action =>
      by_cases hpermitted : app.permits request action = true
      · simp only [hpermitted, if_true]
        exact app.perform_recording outage now request state calls action
      · simp only [hpermitted]
        exact ⟨[], by simp⟩

end Recording

-- A stranger leaves the ledger, with all its items and claims, and the movement service alone, and
-- learns nothing of either. Two programs with the same credentials tell him the same at the same
-- time, whatever they have done before and whatever fails in them.
theorem stranger_sees_nothing {ω' : Type} (app : App ω) (other : App ω')
    (hcredentials : other.credentials = app.credentials) (request : Incoming)
    (hstranger : app.recognizes request = false) (now : Time.Instant) :
    ∃ response : Response,
      (∀ outage state, app.handle outage now request state = (some response, state)) ∧
      (∀ outage state, other.handle outage now request state = (some response, state)) ∧
      ∀ outage state calls,
        app.recording.handle outage now request (recorded state calls) =
          (some response, recorded state calls) := by
  have hother : other.recognizes request = false := by
    rw [recognizes, hcredentials]
    exact hstranger
  refine ⟨refusal app.credentials.isSome now request, fun outage state => ?_,
    fun outage state => ?_, fun outage state calls => ?_⟩
  · exact handle_of_stranger hstranger outage now state
  · rw [handle_of_stranger hother, hcredentials]
  · have hrecording : app.recording.recognizes request = false := hstranger
    exact handle_of_stranger hrecording outage now (recorded state calls)

-- A stranger with a wrong password, and one who shows nothing where another field has the right
-- one, at a full and at an empty ledger.
theorem stranger_sees_nothing_wrongPassword :
    let app : App Unit := ⟨{}, some ⟨"dev", "s3cret"⟩, fun _ _ world => (.ok (), world)⟩
    let other : App Nat :=
      ⟨{ expiryDays := 7 }, some ⟨"dev", "s3cret"⟩, fun _ _ world => (.error .cancelled, world + 1)⟩
    let request : Incoming := ⟨"DELETE", "/polling-queue/items",
      [("Authorization", "Basic ZGV2Om5vcGU="), ("X-Authorization", "Basic ZGV2OnMzY3JldA==")], ""⟩
    let ledger : Ledger := ⟨[⟨"MRN-C", [], false, ⟨0, 0⟩, ⟨5000, 0⟩, none⟩], [], by decide⟩
    app.recognizes request = false ∧
      (∃ response : Response,
        app.handle {} ⟨1, 0⟩ request ⟨ledger, ()⟩ = (some response, ⟨ledger, ()⟩) ∧
        other.handle {} ⟨1, 0⟩ request ⟨.empty, 4⟩ = (some response, ⟨.empty, 4⟩)) := by
  intro app other request ledger
  have hstranger : app.recognizes request = false := by
    apply recognizes_of_headers
    decide +kernel
  obtain ⟨response, happ, hother, -⟩ :=
    stranger_sees_nothing app other rfl request hstranger ⟨1, 0⟩
  exact ⟨hstranger, response, happ {} ⟨ledger, ()⟩, hother {} ⟨.empty, 4⟩⟩

section Service

-- A request as it comes in, with what fails at that time.
structure Arrival where
  outage : Outage
  now : Time.Instant
  request : Incoming

-- Requests one after the other, each with its response.
def serve (app : App ω) : List Arrival → State ω → List (Arrival × Option Response) × State ω
  | [], state => ([], state)
  | arrival :: rest, state =>
      let (response, next) := app.handle arrival.outage arrival.now arrival.request state
      let (log, last) := app.serve rest next
      ((arrival, response) :: log, last)

theorem serve_cons (app : App ω) (arrival : Arrival) (rest : List Arrival) (state : State ω) :
    app.serve (arrival :: rest) state =
      let handled := app.handle arrival.outage arrival.now arrival.request state
      ((arrival, handled.1) :: (app.serve rest handled.2).1, (app.serve rest handled.2).2) := rfl

-- For all others it is as if there were no strangers, and a stranger is told what he is told
-- anyway. By induction on the requests, each of which starts from another state.
theorem serve_without_strangers (app : App ω) (arrivals : List Arrival) (state : State ω) :
    let served := app.serve arrivals state
    let known := arrivals.filter fun arrival => app.recognizes arrival.request
    (served.1.filter fun entry => app.recognizes entry.1.request) = (app.serve known state).1 ∧
      served.2 = (app.serve known state).2 ∧
      ∀ entry ∈ served.1, app.recognizes entry.1.request = false →
        entry.2 = some (refusal app.credentials.isSome entry.1.now entry.1.request) := by
  induction arrivals generalizing state with
  | nil => exact ⟨rfl, rfl, by simp [serve]⟩
  | cons arrival rest ih =>
      simp only [serve_cons, List.filter_cons, List.mem_cons]
      cases hknown : app.recognizes arrival.request with
      | false =>
          rw [handle_of_stranger hknown]
          obtain ⟨hlog, hlast, hstrangers⟩ := ih state
          refine ⟨hlog, hlast, ?_⟩
          rintro entry (rfl | hentry) hstranger
          · rfl
          · exact hstrangers entry hentry hstranger
      | true =>
          obtain ⟨hlog, hlast, hstrangers⟩ :=
            ih (app.handle arrival.outage arrival.now arrival.request state).2
          simp only [if_true, serve_cons]
          refine ⟨congrArg _ hlog, hlast, ?_⟩
          rintro entry (rfl | hentry) hstranger
          · rw [hknown] at hstranger
            cases hstranger
          · exact hstrangers entry hentry hstranger

end Service

end App

end DeclarationWatch.Api
