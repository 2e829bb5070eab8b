import DeclarationWatch.Net.Base64
import DeclarationWatch.Net.Charset
import DeclarationWatch.Net.Status
import DeclarationWatch.Net.Url

namespace DeclarationWatch.Net

structure Request where
  method : String
  host : Host
  portNumber : Nat
  target : String
  accept : String := "*/*"
  authorization : Option String := none
  contentType : String
  body : String
  deriving Repr, DecidableEq

inductive Reply where
  -- The connection fails or ends before a status.
  | nothing
  -- A body that is cut off is not complete.
  | answer (status : Nat) (contentType : Option String) (body : Text.Bytes) (complete : Bool)
  deriving Repr, DecidableEq

-- Whoever answers requests. It may remember what it was asked.
abbrev Peer (σ : Type) := Request → σ → Reply × σ

def jsonType : String := "application/json"

def formType : String := "application/x-www-form-urlencoded"

-- The name and password in a URL are sent along where a request has no other credentials.
def userField? (url : Url) : Option String := do
  let (name, password) ← url.user
  if name = [] && password.isNone then none
  else
    let text := name ++ ':' :: password.getD []
    some ("Basic " ++ String.ofList (Base64.encode (Text.Utf8.encode text)))

-- A request for the resource of a URL, if it is one that can be asked for.
def request? (method address contentType body : String) : Option Request := do
  let url ← Url.ofText? address
  let host ← url.host
  let portNumber ← url.portNumber <|> Url.defaultPortNumber? url.scheme
  if url.isFetchable then
    some { method, host, portNumber, target := url.target, authorization := userField? url,
           contentType, body }
  else none

-- What a request is made of besides its address.
theorem parts_of_request? {method address contentType body : String} {request : Request}
    (h : request? method address contentType body = some request) :
    request.method = method ∧ request.accept = "*/*" ∧ request.contentType = contentType ∧
      request.body = body := by
  obtain ⟨url, -, h⟩ := Option.bind_eq_some_iff.mp h
  obtain ⟨host, -, h⟩ := Option.bind_eq_some_iff.mp h
  obtain ⟨portNumber, -, h⟩ := Option.bind_eq_some_iff.mp h
  split at h
  · cases h
    exact ⟨rfl, rfl, rfl, rfl⟩
  · cases h

def isBodiless (status : Nat) : Bool := status == 204 || status == 304 || status < 200

end DeclarationWatch.Net
