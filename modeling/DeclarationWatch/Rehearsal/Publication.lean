import DeclarationWatch.Rehearsal.Sink

namespace DeclarationWatch.Rehearsal

open Publish

inductive Interruption where
  | never
  | before
  | after (millis : Nat)
  deriving Repr, DecidableEq

-- A chunk with the time until which it waits or rests, and the answer that is on its way.
structure Track where
  state : ChunkState
  due : Nat
  reply : Option (Reaction × Answer)

-- Who answers in a rehearsal, and what it remembers: its state is given back with each answer.
abbrev Respondent (ω : Type) := Nat → List Entry → ω → Reaction × Answer × ω

-- A moment in a rehearsal. Time is counted in milliseconds and costs nothing.
structure Scene (ω : Type) where
  now : Nat
  cancelled : Bool
  world : ω

variable {ω : Type}

def Track.isSettled (track : Track) : Bool :=
  match track.state with
  | .settled _ => true
  | _ => false

-- The answer arrives. What the reaction calls off is called off first, and the answer still counts.
def deliver (config : Config) (scene : Scene ω) (track : Track) (reaction : Reaction)
    (answer : Answer) : Scene ω × Track :=
  let state := track.state.step config (.answer answer)
  ({ scene with cancelled := scene.cancelled || reaction.cancels },
    ⟨state, scene.now + config.backoffMillis, none⟩)

-- Lets a chunk go on until it has to wait. A cancellation goes before everything else.
def Track.advance (config : Config) (respond : Respondent ω) :
    Nat → Scene ω → Track → Scene ω × Track
  | 0, scene, track => (scene, track)
  | fuel + 1, scene, track =>
      match track.state with
      | .settled _ => (scene, track)
      | state =>
          if scene.cancelled then (scene, { track with state := state.step config .cancel })
          else
            match state with
            | .ready _ pending =>
                let (reaction, answer, world) := respond scene.now pending scene.world
                let sent : Track :=
                  ⟨state.step config .send, scene.now + reaction.delayMillis,
                    some (reaction, answer)⟩
                let scene := { scene with world := world }
                if reaction.delayMillis = 0 then
                  let (scene, track) := deliver config scene sent reaction answer
                  advance config respond fuel scene track
                else (scene, sent)
            | .waiting _ _ =>
                match track.reply with
                | some (reaction, answer) =>
                    if scene.now < track.due then (scene, track)
                    else
                      let (scene, track) := deliver config scene track reaction answer
                      advance config respond fuel scene track
                | none => (scene, track)
            | .backoff _ _ =>
                if scene.now < track.due then (scene, track)
                else
                  advance config respond fuel scene
                    { track with state := state.step config .wake }
            | .settled _ => (scene, track)

def pass (config : Config) (respond : Respondent ω) (scene : Scene ω) :
    List Track → Scene ω × List Track
  | [] => (scene, [])
  | track :: rest =>
      let (scene, track) := track.advance config respond (3 * config.attempts + 3) scene
      let (scene, rest) := pass config respond scene rest
      (scene, track :: rest)

-- A cancellation in the middle of a pass reaches the chunks before it in a second one.
def settle (config : Config) (respond : Respondent ω) (scene : Scene ω) (tracks : List Track) :
    Scene ω × List Track :=
  let (next, moved) := pass config respond scene tracks
  if next.cancelled && !scene.cancelled then pass config respond next moved else (next, moved)

def earliest : List Nat → Option Nat
  | [] => none
  | t :: rest => some (rest.foldl min t)

-- Goes from one moment at which something happens to the next until every chunk is settled.
def play (config : Config) (respond : Respondent ω) (interruption : Interruption) :
    Nat → Scene ω → List Track → Scene ω × List Track
  | 0, scene, tracks => (scene, tracks)
  | fuel + 1, scene, tracks =>
      let (scene, tracks) := settle config respond scene tracks
      let dues := (tracks.filter (!·.isSettled)).map (·.due)
      match earliest dues with
      | none => (scene, tracks)
      | some due =>
          match interruption with
          | .after millis =>
              if !scene.cancelled && millis ≤ due then
                play config respond interruption fuel
                  { scene with now := max scene.now millis, cancelled := true } tracks
              else play config respond interruption fuel { scene with now := due } tracks
          | _ => play config respond interruption fuel { scene with now := due } tracks

-- Publishes to a respondent, all chunks at once. The state of the respondent and the time that
-- has passed come back with the result.
def publishTo (config : Config) (respond : Respondent ω) (world : ω) (interruption : Interruption)
    (sightings : List Sighting) : Except PublishFailure Unit × Scene ω :=
  let tracks := (chunks config.ceiling (sightings.map Entry.ofSighting)).map fun chunk =>
    (⟨ChunkState.start chunk, 0, none⟩ : Track)
  let (scene, tracks) := play config respond interruption
    (tracks.length * (2 * config.attempts + 2) + 2) ⟨0, interruption == .before, world⟩ tracks
  let settlements := tracks.filterMap fun track =>
    match track.state with
    | .settled result => some result
    | _ => none
  (conclude settlements, scene)

structure Report where
  result : Except PublishFailure Unit
  elapsedMillis : Nat
  calls : List Call
  -- What the receiver was sent, by entry id.
  payloads : List (String × String)

def positionOf (ids : List String) (call : Call) : Nat :=
  match call.entries with
  | [] => 0
  | first :: _ => ids.findIdx (· == first.id)

-- By time, then by the place of the first entry in the published list.
def orderCalls (ids : List String) (calls : List Call) : List Call :=
  calls.mergeSort fun a b =>
    a.atMillis < b.atMillis || (a.atMillis == b.atMillis && positionOf ids a ≤ positionOf ids b)

def pairBefore (a b : String × String) : Bool := a.1 < b.1 || (a.1 == b.1 && a.2 ≤ b.2)

def payloadsOf (calls : List Call) : List (String × String) :=
  ((calls.flatMap (·.entries)).map fun entry => (entry.id, entry.payload)).eraseDups.mergeSort
    pairBefore

-- Publishes to a receiver that answers from a script.
def publish (config : Config) (script : SinkScript) (interruption : Interruption)
    (sightings : List Sighting) : Report :=
  let (result, scene) := publishTo config script.react {} interruption sightings
  let ids := (sightings.map Entry.ofSighting).map (·.id)
  ⟨result, scene.now, orderCalls ids scene.world.calls.reverse, payloadsOf scene.world.calls⟩

end DeclarationWatch.Rehearsal
