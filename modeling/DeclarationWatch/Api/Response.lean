import DeclarationWatch.Failure
import DeclarationWatch.Json.Printer

namespace DeclarationWatch.Api

structure Response where
  status : Nat
  contentType : Option String := none
  challenge : Option String := none
  body : String := ""
  deriving Repr, DecidableEq

namespace Response

def bare (status : Nat) : Response := { status }

def json (status : Nat) (value : Json) : Response :=
  { status, contentType := some "application/json", body := value.text }

def plain (status : Nat) (body : String) : Response :=
  { status, contentType := some "text/plain; charset=utf-8", body }

def withoutBody (response : Response) : Response := { response with body := "" }

def problem (status : Nat) (code text : String) : Response :=
  json status (.object [("error", .string text), ("error_code", .string code)])

def unauthorized : Response :=
  { problem 401 "UNAUTHORIZED" "Unauthorized" with challenge := some "Basic realm=\"dev\"" }

-- What a caller is told of a failure. Only bad input is explained.
def ofFailure : Failure → Response
  | .invalidInput text => problem 400 "INVALID_INPUT" text
  | .unauthorized => unauthorized
  | .database => problem 500 "DATABASE_ERROR" "A database error occurred"
  | .movement _ => problem 502 "UPSTREAM_ERROR" "The GVMS API call failed"
  | .publish _ | .schedule _ | .serialization _ | .internal _ | .cancelled | .outOfRange =>
      problem 500 "INTERNAL_ERROR" "An internal error occurred"

end Response

end DeclarationWatch.Api
