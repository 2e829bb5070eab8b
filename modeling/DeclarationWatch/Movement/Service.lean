import DeclarationWatch.Gmr.SearchAnswer
import DeclarationWatch.Net.Exchange
import DeclarationWatch.Movement.StoredToken

namespace DeclarationWatch.Movement

open Net (Peer Reply Request)

-- The movement service and the client's account with it.
structure Service where
  baseUrl : String
  clientId : String
  clientSecret : String
  deriving Repr, DecidableEq

-- The client between two calls: the token it keeps and what the other side remembers.
structure Session (σ : Type) where
  stored : Option StoredToken
  wire : σ

structure Received where
  contentType : Option String
  body : Text.Bytes
  complete : Bool

namespace Service

variable {σ : Type}

def address (service : Service) (path : String) : String :=
  String.ofList ((service.baseUrl.toList.reverse.dropWhile (· == '/')).reverse) ++ "/" ++ path

def tokenPath : String := "oauth/token"

def searchPath : String := "customs/goods-movement-system-search/gmrs-for-declaration-ids"

-- The id stands in the path as it is.
def holdPath (id : String) : String := "customs/goods-movement-system-search/defra-holds/" ++ id

def acceptedType : String := "application/vnd.hmrc.1.0+json"

def tokenRequest? (service : Service) : Option Request :=
  Net.request? "POST" (service.address tokenPath) Net.formType
    (Net.Percent.form [("grant_type", "client_credentials"), ("client_id", service.clientId),
      ("client_secret", service.clientSecret)])

def searchRequest? (service : Service) (declarations : List String) : Option Request :=
  Net.request? "POST" (service.address searchPath) Net.jsonType
    (Json.object [("declarationIds", Json.strings declarations)]).text

def holdRequest? (service : Service) (id : String) (on : Bool) : Option Request :=
  Net.request? "PUT" (service.address (holdPath id)) Net.jsonType
    (Json.object [("hold", .bool on)]).text

-- A refusal is told with its status and its text, and both must have arrived.
def tokenOf : Reply → Except MovementFailure AccessToken
  | .nothing => .error .transport
  | .answer _ _ _ false => .error .transport
  | .answer status contentType body true =>
      let text := Net.bodyText contentType body
      if Net.isSuccess status then (AccessToken.ofText text).mapError .undecodable
      else .error (.token (Net.statusLine status ++ ": " ++ text))

def exchange (service : Service) (peer : Peer σ) (wire : σ) :
    Except MovementFailure AccessToken × σ :=
  match service.tokenRequest? with
  | none => (.error .transport, wire)
  | some request =>
      let (reply, wire) := peer request wire
      (tokenOf reply, wire)

-- The secret for the next request: the one that is stored while it may be used, else a new one.
def authorize (service : Service) (peer : Peer σ) (now : Time.Instant) (session : Session σ) :
    Except Failure String × Session σ :=
  match StoredToken.usable? session.stored now with
  | some secret => (.ok secret, session)
  | none =>
      match service.exchange peer session.wire with
      | (.error failure, wire) => (.error (.movement failure), { session with wire := wire })
      | (.ok token, wire) =>
          match StoredToken.ofExchange token now with
          | .ok stored => (.ok stored.secret, ⟨some stored, wire⟩)
          | .error failure => (.error failure, { session with wire := wire })

-- A request with the client's credentials. A secret that no header can hold makes it impossible.
def authorized? (secret : String) (request : Option Request) : Option Request := do
  some { (← request) with
    accept := acceptedType
    authorization := some (← Net.fieldValue? ("Bearer " ++ secret)) }

-- The body of a refusal. What cannot be read is left out.
def refusalText (contentType : Option String) (body : Text.Bytes) (complete : Bool) : String :=
  if complete then Net.bodyText contentType body else ""

-- A status that refuses the token makes the client forget it. The request is not sent again.
def send (peer : Peer σ) (secret : String) (request : Option Request) (session : Session σ) :
    Except MovementFailure Received × Session σ :=
  match authorized? secret request with
  | none => (.error .transport, session)
  | some request =>
      match peer request session.wire with
      | (.nothing, wire) => (.error .transport, { session with wire := wire })
      | (.answer status contentType body complete, wire) =>
          if status = 401 then (.error .unauthorized, ⟨none, wire⟩)
          else if Net.isSuccess status then
            (.ok ⟨contentType, body, complete⟩, { session with wire := wire })
          else
            (.error (.status status (refusalText contentType body complete)),
              { session with wire := wire })

def searchAnswerOf (received : Received) : Except MovementFailure SearchAnswer :=
  if received.complete then
    (SearchAnswer.ofText (Net.bodyText received.contentType received.body)).mapError .undecodable
  else .error .transport

inductive Call where
  | search (declarations : List String)
  | hold (id : String) (on : Bool)
  deriving Repr, DecidableEq

-- What a call brings back. A hold has no answer of its own, and its body is never read.
inductive Result where
  | found (answer : SearchAnswer)
  | held

def request? (service : Service) : Call → Option Request
  | .search declarations => service.searchRequest? declarations
  | .hold id on => service.holdRequest? id on

def resultOf (call : Call) (received : Received) : Except MovementFailure Result :=
  match call with
  | .search _ => (searchAnswerOf received).map .found
  | .hold _ _ => .ok .held

-- The second half of a call, once its token is there.
def perform (service : Service) (peer : Peer σ) (call : Call) (secret : String)
    (session : Session σ) : Except Failure Result × Session σ :=
  let (received, session) := send peer secret (service.request? call) session
  ((received.bind (resultOf call)).mapError .movement, session)

-- One call: at most one exchange, and then at most one request.
def call (service : Service) (peer : Peer σ) (now : Time.Instant) (call : Call)
    (session : Session σ) : Except Failure Result × Session σ :=
  match service.authorize peer now session with
  | (.error failure, session) => (.error failure, session)
  | (.ok secret, session) => service.perform peer call secret session

def authorizeAll (service : Service) (peer : Peer σ) (now : Time.Instant) :
    Nat → Session σ → List (Except Failure String) × Session σ
  | 0, session => ([], session)
  | callers + 1, session =>
      let (secret, session) := service.authorize peer now session
      let (secrets, session) := authorizeAll service peer now callers session
      (secret :: secrets, session)

def performAll (service : Service) (peer : Peer σ) (call : Call) :
    List (Except Failure String) → Session σ → List (Except Failure Result) × Session σ
  | [], session => ([], session)
  | .error failure :: rest, session =>
      let (results, session) := performAll service peer call rest session
      (.error failure :: results, session)
  | .ok secret :: rest, session =>
      let (result, session) := service.perform peer call secret session
      let (results, session) := performAll service peer call rest session
      (result :: results, session)

-- Callers that come at the same time with the same call. All have their tokens before the first
-- request is answered.
def callTogether (service : Service) (peer : Peer σ) (now : Time.Instant) (callers : Nat)
    (call : Call) (session : Session σ) : List (Except Failure Result) × Session σ :=
  let (secrets, session) := service.authorizeAll peer now callers session
  service.performAll peer call secrets session

end Service

end DeclarationWatch.Movement
