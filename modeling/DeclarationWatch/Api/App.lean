import DeclarationWatch.Api.Credentials
import DeclarationWatch.Api.Response
import DeclarationWatch.Api.Route
import DeclarationWatch.Cycle
import DeclarationWatch.Net.MediaType

namespace DeclarationWatch.Api

structure Incoming where
  method : String
  uri : String
  headers : List (String × String)
  body : String
  deriving Repr, DecidableEq

def Incoming.field? (request : Incoming) (name : String) : Option String :=
  (request.headers.find? fun header => header.1.map Char.toLower == name).map (·.2)

structure App (ω : Type) where
  policy : Policy
  -- Without credentials only the health of the program can be asked for.
  credentials : Option Credentials
  -- Sets or clears a hold at the movement service.
  hold : String → Bool → ω → Except Failure Unit × ω

-- What requests can change: the ledger, and whatever lies behind the movement service.
structure State (ω : Type) where
  ledger : Ledger
  world : ω

namespace App

variable {ω : Type}

def health (now : Time.Instant) (withBody : Bool) : Response :=
  let full := Response.json 200
    (.object [("status", .string "ok"), ("timestamp", .string now.text)])
  if withBody then full else full.withoutBody

-- The answer to a registration. The program stops where a time leaves its range.
def register (app : App ω) (outage : Outage) (now : Time.Instant) (reference : String)
    (state : State ω) : Option Response × State ω :=
  match Mrn.ofText reference with
  | .error failure => (some (.ofFailure failure), state)
  | .ok mrn =>
      match watch app.policy outage now state.ledger mrn.text with
      | .error .outOfRange => (none, state)
      | .error failure => (some (.ofFailure failure), state)
      | .ok (outcome, ledger) =>
          let created := outcome == .created
          (some (.json (if created then 201 else 200)
            (.object [("mrn", .string mrn.text), ("created", .bool created)])),
            { state with ledger := ledger })

def clear (outage : Outage) (state : State ω) : Option Response × State ω :=
  match outage.deleteAll with
  | some failure => (some (.ofFailure failure), state)
  | none =>
      let (count, ledger) := state.ledger.deleteAll
      (some (.json 200 (.object [("deleted", Json.int count)])), { state with ledger := ledger })

def decodeHold : Json.Decoder Bool := fun levels node => do
  let on ← Json.Decoder.record (σ := Option Bool)
    [.required "hold" Json.Decoder.bool id fun _ value => value] none levels node
  match on with
  | some on => .ok on
  | none => .error .wrongShape

-- The wanted state of a hold, or the refusal of a body that does not tell it. What follows the
-- first value of the body is not read.
def holdOf (request : Incoming) : Except Response Bool :=
  let isJson := (request.field? "content-type").any fun field =>
    Net.isPlainField field && (Net.MediaType.ofText? field).any Net.MediaType.isJson
  if isJson then
    match Json.decodeFirst decodeHold request.body with
    | .ok on => .ok on
    | .error .wrongShape => .error (.plain 422 "The body has another shape than a hold.")
    | .error _ => .error (.plain 400 "The body is not JSON.")
  else .error (.plain 415 "A hold is sent as JSON.")

def setHold (app : App ω) (request : Incoming) (id : String) (state : State ω) :
    Option Response × State ω :=
  match holdOf request with
  | .error response => (some response, state)
  | .ok on =>
      match app.hold id on state.world with
      | (.error .outOfRange, world) => (none, { state with world := world })
      | (.error failure, world) => (some (.ofFailure failure), { state with world := world })
      | (.ok (), world) =>
          (some (.json 200 (.object [("gmrId", .string id), ("hold", .bool on)])),
            { state with world := world })

-- A parameter that stands for no text.
def unreadable : Response := .plain 400 "The path does not hold UTF-8."

def perform (app : App ω) (outage : Outage) (now : Time.Instant) (request : Incoming)
    (action : Action) (state : State ω) : Option Response × State ω :=
  match action with
  | .health withBody => (some (health now withBody), state)
  | .clear => clear outage state
  | .register segment =>
      match Route.parameter? segment with
      | none => (some unreadable, state)
      | some reference => app.register outage now reference state
  | .hold segment =>
      match Route.parameter? segment with
      | none => (some unreadable, state)
      | some id => app.setHold request id state

-- The caller shows the credentials that guard the development routes. A caller who does not is a
-- stranger.
def recognizes (app : App ω) (request : Incoming) : Bool :=
  app.credentials.any fun credentials => credentials.admits (request.field? "authorization")

def permits (app : App ω) (request : Incoming) : Action → Bool
  | .health _ => true
  | _ => app.recognizes request

-- What a stranger is told at a guarded resource. An answer to HEAD has no body.
def turnAway (request : Incoming) : Response :=
  if request.method = "HEAD" then Response.unauthorized.withoutBody else .unauthorized

-- Looks for the resource, then at the caller, and only then at the rest of the request, with the
-- method first of all. There is no response when the program stops on the way.
def handle (app : App ω) (outage : Outage) (now : Time.Instant) (request : Incoming)
    (state : State ω) : Option Response × State ω :=
  match Route.find app.credentials.isSome request.method (Route.pathOf request.uri.toList) with
  | .unknown => (some (.bare 404), state)
  | .wrongMethod resource =>
      let mayKnow := Route.isOpen resource || app.recognizes request
      (some (if mayKnow then .bare 405 else turnAway request), state)
  | .found action =>
      if app.permits request action then app.perform outage now request action state
      else (some (turnAway request), state)

end App

end DeclarationWatch.Api
