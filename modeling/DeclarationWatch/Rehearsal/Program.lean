import DeclarationWatch.Rehearsal.Publication
import DeclarationWatch.Rehearsal.Server
import DeclarationWatch.Schedule.Next
import DeclarationWatch.Startup

namespace DeclarationWatch.Rehearsal

open Movement (Session)

-- The whole program between two moments, with one server behind all that it asks for.
structure World where
  ledger : Ledger
  session : Session Server

namespace World

def requestCount (world : World) : Nat := world.session.wire.requests.length

def hold (application : Application) (now : Time.Instant) (id : String) (on : Bool)
    (session : Session Server) : Except Failure Unit × Session Server :=
  let (result, session) := application.service.call Server.peer now (.hold id on) session
  (result.map fun _ => (), session)

def appAt (application : Application) (now : Time.Instant) : Api.App (Session Server) where
  policy := application.settings.polling
  credentials := application.credentials
  hold := hold application now

def request (application : Application) (now : Time.Instant) (incoming : Api.Incoming)
    (world : World) : Option Api.Response × World :=
  let (response, state) := (appAt application now).handle {} now incoming
    ⟨world.ledger, world.session⟩
  (response, ⟨state.ledger, state.world⟩)

-- The search of a cycle. A token without an end in the calendar ends the cycle.
def search (application : Application) (now : Time.Instant) (ids : List String)
    (session : Session Server) : Cycle.Search × Session Server :=
  match application.service.call Server.peer now (.search ids) session with
  | (.ok (.found answer), session) => (.answered (.ok answer), session)
  | (.ok .held, session) => (.abandoned, session)
  | (.error (.movement failure), session) => (.answered (.error failure), session)
  | (.error _, session) => (.abandoned, session)

def publish (application : Application) (session : Session Server) (changed : List Sighting) :
    Except PublishFailure Unit × Session Server :=
  let respond : Respondent Server := fun _ entries server =>
    let (answer, server) := application.receiver.publishBatch Server.peer entries server
    ({}, answer, server)
  let (result, scene) := publishTo application.settings.publisher.config respond session.wire .never
    changed
  (result, { session with wire := scene.world })

-- One cycle. The publication goes on where the search has left the server.
def cycle (application : Application) (now : Time.Instant) (world : World) : World :=
  let policy := application.settings.polling
  let ids := (world.ledger.findIncomplete policy.maxPollSize).map (·.id)
  let (found, session) := if ids = [] then (.calledOff, world.session)
    else search application now ids world.session
  let outcome := Cycle.run policy {} now world.ledger (fun _ => found) (publish application session)
  ⟨outcome.ledger, outcome.published.getD session⟩

-- Lets the job run at its occurrences until the server has been asked often enough.
def runUntil (application : Application) (wanted : Nat) :
    Nat → Time.Instant → World → World
  | 0, _, world => world
  | turns + 1, now, world =>
      if wanted ≤ world.requestCount then world
      else
        match application.schedule.bind fun schedule => schedule.next? now with
        | none => world
        | some occurrence =>
            match world.ledger.acquire pollJob occurrence occurrence with
            | (.alreadyClaimed, _) => runUntil application wanted turns occurrence world
            | (.acquired, ledger) =>
                runUntil application wanted turns occurrence
                  (cycle application occurrence { world with ledger := ledger })

end World

end DeclarationWatch.Rehearsal
