import DeclarationWatch.Failure
import DeclarationWatch.Movement.AccessToken

namespace DeclarationWatch.Movement

structure StoredToken where
  secret : String
  expires : Time.Instant
  deriving Repr, DecidableEq

namespace StoredToken

def isFresh (token : StoredToken) (now : Time.Instant) : Bool := now.before token.expires

-- The secret of what is stored, while it may be used.
def usable? (stored : Option StoredToken) (now : Time.Instant) : Option String :=
  (stored.filter fun token => token.isFresh now).map (·.secret)

-- What is stored after an exchange. A lifetime without an end in the calendar stops the program.
def ofExchange (token : AccessToken) (now : Time.Instant) : Except Failure StoredToken :=
  match token.expiry? now with
  | some expires => .ok ⟨token.secret, expires⟩
  | none => .error .outOfRange

end StoredToken

end DeclarationWatch.Movement
