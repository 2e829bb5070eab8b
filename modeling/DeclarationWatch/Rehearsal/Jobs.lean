import DeclarationWatch.Rehearsal.Publication
import DeclarationWatch.Schedule.Job

namespace DeclarationWatch.Rehearsal

open Schedule

inductive Ending where
  | fine
  | failure (failure : Failure)
  | crash

-- What a rehearsed run of the work does: it rests, then perhaps waits until its job is told to
-- stop, and ends.
structure Work where
  sleepMillis : Nat := 0
  waitsForStop : Bool := false
  ending : Ending := .fine

structure Rehearsed where
  schedule : Schedule.Timetable
  job : String
  replicas : Nat
  startMillis : Int
  runForMillis : Nat
  stopTimeoutMillis : Nat
  -- Occurrences for which the token cannot be had, for want of the store.
  refusals : List Int
  works : List Work

inductive AttemptResult where
  | acquired
  | alreadyClaimed
  | error
  deriving Repr, DecidableEq

structure Attempt where
  scheduled : Int
  at_ : Int
  result : AttemptResult

structure Run where
  start : Int
  -- The end, and whether the job had been told to stop by then. A run that is broken off has none.
  ending : Option (Int × Bool)

-- A job with the time until which it sleeps or works, and the number of its current run.
structure Player where
  loop : Loop
  due : Int
  run : Nat
  work : Work

structure Stage where
  now : Int
  ledger : Ledger
  attempts : List Attempt
  runs : List Run

def instant (millis : Int) : Time.Instant := .ofMillis millis

def Stage.claim (r : Rehearsed) (stage : Stage) (occurrence : Time.Instant) :
    Option Claim × Stage :=
  let record (result : AttemptResult) : List Attempt :=
    stage.attempts ++ [⟨occurrence.millis, stage.now, result⟩]
  if r.refusals.contains occurrence.millis then (none, { stage with attempts := record .error })
  else
    match stage.ledger.acquire r.job occurrence (instant stage.now) with
    | (.acquired, ledger) =>
        (some .acquired, { stage with ledger := ledger, attempts := record .acquired })
    | (.alreadyClaimed, ledger) =>
        (some .alreadyClaimed, { stage with ledger := ledger, attempts := record .alreadyClaimed })

def Stage.endRun (stage : Stage) (run : Nat) (told : Bool) : Stage :=
  { stage with runs := stage.runs.modify run fun r => { r with ending := some (stage.now, told) } }

-- Lets a job go on until it has to wait. One round through the loop takes at most four steps, and
-- each round ends in a sleep of some length.
def Player.advance (r : Rehearsed) : Nat → Stage → Player → Stage × Player
  | 0, stage, player => (stage, player)
  | fuel + 1, stage, player =>
      match player.loop.phase with
      | .ended => (stage, player)
      | .idle =>
          let next := r.schedule.next? (instant stage.now)
          let due := (next.map (·.millis)).getD stage.now
          advance r fuel stage { player with loop := player.loop.step (.look next), due := due }
      | .sleeping _ =>
          if stage.now < player.due then (stage, player)
          else advance r fuel stage { player with loop := player.loop.step .slept }
      | .claiming occurrence =>
          let (claim, stage) := stage.claim r occurrence
          let loop := player.loop.step (.claimed claim)
          match claim with
          | some .acquired =>
              let number := stage.runs.length
              let work := (r.works[number]?).getD {}
              advance r fuel { stage with runs := stage.runs ++ [⟨stage.now, none⟩] }
                ⟨loop, stage.now + work.sleepMillis, number, work⟩
          | _ => advance r fuel stage { player with loop := loop }
      | .running _ =>
          if stage.now < player.due || (player.work.waitsForStop && !player.loop.told) then
            (stage, player)
          else
            let stage := stage.endRun player.run player.loop.told
            let event : LoopEvent := match player.work.ending with
              | .fine => .finished none
              | .failure failure => .finished (some failure)
              | .crash => .crashed
            advance r fuel stage { player with loop := player.loop.step event }

def advanceFuel : Nat := 16

def advanceAll (r : Rehearsed) (stage : Stage) : List Player → Stage × List Player
  | [] => (stage, [])
  | player :: rest =>
      let (stage, player) := player.advance r advanceFuel stage
      let (stage, rest) := advanceAll r stage rest
      (stage, player :: rest)

def Player.isEnded (player : Player) : Bool := player.loop.phase == .ended

-- The next time at which a job goes on of its own accord.
def Player.wakes? (now : Int) (player : Player) : Option Int :=
  match player.loop.phase with
  | .ended => none
  | _ => if now < player.due then some player.due else none

def earliestOf : List Int → Option Int
  | [] => none
  | t :: rest => some (rest.foldl min t)

-- Lets time pass up to a moment, or until all the watched jobs have ended. Every turn moves time.
def passTime (r : Rehearsed) (until_ : Int) (watched : Nat → Bool) :
    Nat → Stage → List Player → Stage × List Player
  | 0, stage, players => (stage, players)
  | fuel + 1, stage, players =>
      let (stage, players) := advanceAll r stage players
      if players.zipIdx.all fun (player, i) => !watched i || player.isEnded then (stage, players)
      else
        match earliestOf (players.filterMap (·.wakes? stage.now)) with
        | some due =>
            if due ≤ until_ then
              passTime r until_ watched fuel { stage with now := due } players
            else ({ stage with now := until_ }, players)
        | none => ({ stage with now := until_ }, players)

structure Stopped where
  finishedBefore : Bool
  inTime : Bool
  tookMillis : Int

-- Tells one job to stop and waits for it up to the timeout. The others go on meanwhile. Without
-- any time to wait, not even a sleeping job is given the chance to end by itself.
def stopOne (r : Rehearsed) (fuel : Nat) (stage : Stage) (players : List Player) (index : Nat) :
    Stopped × Stage × List Player :=
  let finished := (players[index]?).all (·.isEnded)
  let told := players.modify index fun player => { player with loop := player.loop.step .stop }
  let start := stage.now
  let (stage, after) :=
    if finished || r.stopTimeoutMillis = 0 then (stage, players)
    else passTime r (start + r.stopTimeoutMillis) (· == index) fuel stage told
  let broken := after.modify index fun player =>
    { player with loop := { player.loop with phase := .ended } }
  (⟨finished, (after[index]?).all (·.isEnded), stage.now - start⟩, stage, broken)

def stopAll (r : Rehearsed) (fuel : Nat) :
    List Nat → Stage → List Player → List Stopped × Stage × List Player
  | [], stage, players => ([], stage, players)
  | index :: rest, stage, players =>
      let (stopped, stage, players) := stopOne r fuel stage players index
      let (others, stage, players) := stopAll r fuel rest stage players
      (stopped :: others, stage, players)

-- Starts the replicas of a job, lets them run and stops them one after another. No occurrence is
-- closer than a second to the next, and no turn of the clock without one of them or an end of work.
def rehearse (r : Rehearsed) (ledger : Ledger) : List Attempt × List Run × List Stopped :=
  let players := List.replicate r.replicas (⟨Loop.start, r.startMillis, 0, {}⟩ : Player)
  let span := r.runForMillis + r.replicas * r.stopTimeoutMillis
  let fuel := (r.replicas + 1) * (2 * (span / 1000) + r.works.length + 4)
  let (stage, players) := passTime r (r.startMillis + r.runForMillis) (fun _ => true) fuel
    ⟨r.startMillis, ledger, [], []⟩ players
  let stage := { stage with now := r.startMillis + r.runForMillis }
  let (stopped, stage, _) := stopAll r fuel (List.range r.replicas) stage players
  (stage.attempts, stage.runs, stopped)

end DeclarationWatch.Rehearsal
