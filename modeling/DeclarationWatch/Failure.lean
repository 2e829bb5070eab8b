import DeclarationWatch.Json.Fault
import DeclarationWatch.Net.Status

namespace DeclarationWatch

inductive MovementFailure where
  -- The bearer token was refused. It is no longer cached.
  | unauthorized
  | status (code : Nat) (body : String)
  | transport
  | undecodable (fault : Json.Fault)
  -- The exchange of the client's secret for a token was refused.
  | token (text : String)
  deriving Repr, DecidableEq

inductive PublishFailure where
  | retriesExhausted (entryIds : List String)
  | sink (code message : String) (callerFault : Bool)
  | unencodable (fault : Json.Fault)
  | cancelled
  deriving Repr, DecidableEq

inductive ScheduleFailure where
  | invalidExpression (expression reason : String)
  | missing (job : String)
  deriving Repr, DecidableEq

inductive Failure where
  | movement (failure : MovementFailure)
  | publish (failure : PublishFailure)
  | schedule (failure : ScheduleFailure)
  | database
  | serialization (fault : Json.Fault)
  | internal (text : String)
  | invalidInput (text : String)
  | unauthorized
  | cancelled
  -- A time or a number left its range. The program stops there.
  | outOfRange
  deriving Repr, DecidableEq

-- Some causes have no text of their own.
def MovementFailure.message? : MovementFailure → Option String
  | .unauthorized => some "GVMS rejected the bearer token"
  | .status code body => some ("GVMS returned " ++ Net.statusLine code ++ ": " ++ body)
  | .token text => some ("Token exchange failed: " ++ text)
  | .transport | .undecodable _ => none

def PublishFailure.message? : PublishFailure → Option String
  | .retriesExhausted ids =>
      some ("Publish retries exhausted for entries: " ++ ",".intercalate ids)
  | .sink code message _ => some ("Sink error (" ++ code ++ "): " ++ message)
  | .cancelled => some "Publish cancelled"
  | .unencodable _ => none

def ScheduleFailure.message : ScheduleFailure → String
  | .invalidExpression expression reason =>
      "Invalid cron expression '" ++ expression ++ "': " ++ reason
  | .missing job => "No schedule configured for job '" ++ job ++ "'"

namespace Failure

def message? : Failure → Option String
  | .movement failure => failure.message?.map ("GVMS error: " ++ ·)
  | .publish failure => failure.message?.map ("Publish error: " ++ ·)
  | .schedule failure => some ("Scheduler error: " ++ failure.message)
  | .internal text => some ("Internal error: " ++ text)
  | .invalidInput text => some ("Invalid input: " ++ text)
  | .unauthorized => some "Unauthorized"
  | .cancelled => some "Operation cancelled"
  | .database | .serialization _ | .outOfRange => none

-- A cancellation, from whichever part of the program it comes.
def isCancelled : Failure → Bool
  | .cancelled | .publish .cancelled => true
  | _ => false

-- A database whose migrations do not fit the program.
def missingMigration (version : Int) : Failure :=
  .internal ("Migration error: VersionMissing(" ++ toString version ++ ")")

def alteredMigration (version : Int) : Failure :=
  .internal ("Migration error: VersionMismatch(" ++ toString version ++ ")")

end Failure

end DeclarationWatch
