import DeclarationWatch.Json.Record
import DeclarationWatch.Text.Quoted
import DeclarationWatch.Time.Instant

namespace DeclarationWatch.Movement

-- What the movement service gives in exchange for the client's secret.
structure AccessToken where
  secret : String
  kind : String
  -- Seconds, as advertised.
  expiresIn : Int
  deriving Repr, DecidableEq

namespace AccessToken

-- Seconds taken off the advertised lifetime, so that no token runs out during a request.
def latencySeconds : Int := 60

-- The seconds for which a token may be kept. There is no such number if a step of its calculation
-- needs more than 64 bits or the span is longer than the clock can add.
def lifetime? (token : AccessToken) : Option Int :=
  let shortened := token.expiresIn - latencySeconds
  if Width.fitsSigned64 shortened && Width.fitsSigned64 shortened.natAbs then
    let seconds := min (shortened.natAbs : Int) token.expiresIn
    (Time.spanOf? (seconds * 1000)).map fun _ => seconds
  else none

-- The first instant at which a token stored now may no longer be used.
def expiry? (token : AccessToken) (now : Time.Instant) : Option Time.Instant := do
  now.add? ((← token.lifetime?) * 1000)

-- For logs. The secret is not shown.
def debugText (token : AccessToken) : String :=
  "AccessToken \x7b access_token: \"[REDACTED]\", token_type: " ++ Text.quoted token.kind ++
    ", expires_in: " ++ toString token.expiresIn ++ " \x7d"

structure Draft where
  secret : Option String := none
  kind : Option String := none
  expiresIn : Option Int := none

def fields : List (Json.Field Draft) := [
  .required "access_token" Json.Decoder.string (·.secret)
    fun draft value => { draft with secret := value },
  .defaulted "token_type" Json.Decoder.string (·.kind)
    fun draft value => { draft with kind := value },
  .required "expires_in" Json.Decoder.int64 (·.expiresIn)
    fun draft value => { draft with expiresIn := value }]

def decode : Json.Decoder AccessToken := fun levels node => do
  let draft ← Json.Decoder.record fields {} levels node
  match draft.secret, draft.expiresIn with
  | some secret, some expiresIn => .ok ⟨secret, draft.kind.getD "", expiresIn⟩
  | _, _ => .error .wrongShape

def ofText (s : String) : Except Json.Fault AccessToken := Json.decodeText decode s

end AccessToken

end DeclarationWatch.Movement
