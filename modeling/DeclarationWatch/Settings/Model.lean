import DeclarationWatch.Cycle
import DeclarationWatch.Publish.Chunk

namespace DeclarationWatch

inductive StoreKind where
  | postgres
  | memory
  deriving Repr, DecidableEq

structure MovementSettings where
  baseUrl : String
  clientId : String
  clientSecret : String
  timeoutSeconds : Nat
  deriving Repr, DecidableEq

structure PublisherSettings where
  -- Without an endpoint nothing is published.
  endpoint : Option String
  config : Publish.Config
  timeoutSeconds : Nat
  deriving Repr, DecidableEq

structure Features where
  polling : Bool
  devEndpoints : Bool
  devUsername : Option String
  devPassword : Option String
  deriving Repr, DecidableEq

-- All that can be set before the program starts.
structure Settings where
  databaseUrl : String
  bindAddress : String
  store : StoreKind
  polling : Policy
  movement : MovementSettings
  publisher : PublisherSettings
  jobs : Keyed String
  stopTimeoutSeconds : Nat
  features : Features
  deriving Repr, DecidableEq

def pollJob : String := "poll_gvms_by_mrn"

namespace Settings

def scheduleOf (settings : Settings) (job : String) : Except ScheduleFailure String :=
  match settings.jobs.get? job with
  | some expression => .ok expression
  | none => .error (.missing job)

end Settings

end DeclarationWatch
