import DeclarationWatch.Api.App
import DeclarationWatch.Net.SocketAddress
import DeclarationWatch.Publish.Webhook
import DeclarationWatch.Schedule.Expression
import DeclarationWatch.Settings.Load
import DeclarationWatch.Settings.Rules
import DeclarationWatch.Movement.Service

namespace DeclarationWatch

structure Application where
  settings : Settings
  service : Movement.Service
  receiver : Publish.Receiver
  -- When to poll. None if polling is switched off.
  schedule : Option Schedule.Timetable
  credentials : Option Api.Credentials

namespace Application

def serviceOf (settings : MovementSettings) : Movement.Service :=
  ⟨settings.baseUrl, settings.clientId, settings.clientSecret⟩

def receiverOf (settings : PublisherSettings) : Publish.Receiver :=
  match settings.endpoint with
  | some endpoint => .webhook ⟨endpoint⟩
  | none => .discard

-- The development routes need a name and a password, and neither may be empty.
def credentialsOf (features : Features) : Option Api.Credentials :=
  match features.devUsername, features.devPassword with
  | some username, some password =>
      if features.devEndpoints && !username.isEmpty && !password.isEmpty then
        some ⟨username, password⟩
      else none
  | _, _ => none

-- Polling that is switched off needs no schedule, and none is looked at.
def scheduleOf (settings : Settings) : Except ScheduleFailure (Option Schedule.Timetable) :=
  if settings.features.polling then do
    let expression ← settings.scheduleOf pollJob
    some <$> Schedule.Timetable.ofText expression
  else .ok none

-- Puts the parts together. The store comes first, and the jobs come last.
def assemble (databaseAnswers : String → Bool) (settings : Settings) :
    Except Failure Application :=
  if settings.store = .postgres && !databaseAnswers settings.databaseUrl then .error .database
  else
    match scheduleOf settings with
    | .error failure => .error (.schedule failure)
    | .ok schedule =>
        .ok {
          settings
          service := serviceOf settings.movement
          receiver := receiverOf settings.publisher
          schedule
          credentials := credentialsOf settings.features }

end Application

inductive StartFailure where
  | unloadable
  | invalid (violations : List Settings.Violation)
  | unassembled (failure : Failure)
  | unservable
  deriving Repr, DecidableEq

namespace StartFailure

def context : StartFailure → String
  | .unloadable => "Failed to load configuration"
  | .invalid _ => "Invalid configuration"
  | .unassembled _ => "Failed to initialize application"
  | .unservable => "HTTP server failed"

def cause? : StartFailure → Option String
  | .unloadable => none
  | .invalid violations => some ("\n".intercalate (violations.map (·.text)))
  | .unassembled failure => failure.message?
  | .unservable => some "invalid socket address"

def text (failure : StartFailure) : String :=
  failure.context ++ (failure.cause?.map (":\n" ++ ·)).getD ""

end StartFailure

-- All that has to go well before the first request is served, in the order in which it is tried.
def start (databaseAnswers : String → Bool) (env : Settings.Environment) :
    Except StartFailure Application := do
  let settings ← (Settings.ofEnvironment? env).elim (.error .unloadable) .ok
  let violations := settings.violations
  if violations ≠ [] then .error (.invalid violations)
  let application ← (Application.assemble databaseAnswers settings).mapError .unassembled
  if Net.SocketAddress.isValid settings.bindAddress then .ok application else .error .unservable

end DeclarationWatch
