import DeclarationWatch.Failure
import DeclarationWatch.Ledger.Store
import DeclarationWatch.Schedule.Next

namespace DeclarationWatch.Schedule

-- Where the loop of a scheduled job stands.
inductive Phase where
  | idle
  | sleeping (occurrence : Time.Instant)
  -- Asking for the execution token of the occurrence.
  | claiming (occurrence : Time.Instant)
  | running (occurrence : Time.Instant)
  | ended
  deriving Repr, DecidableEq

structure Loop where
  phase : Phase
  told : Bool
  deriving Repr, DecidableEq

inductive LoopEvent where
  -- It reads the clock, and the schedule has this occurrence next.
  | look (next : Option Time.Instant)
  | slept
  | stop
  -- The answer about the token. A failure is none.
  | claimed (claim : Option Claim)
  -- The work came back, with a failure or without.
  | finished (failure : Option Failure)
  -- The work broke off, and the loop with it.
  | crashed

namespace Loop

def start : Loop := ⟨.idle, false⟩

-- A stop ends a sleep at once and waits for everything else. A token that was already asked for is
-- still used. Only a cancellation after a stop ends the loop from within its work.
def step (loop : Loop) : LoopEvent → Loop
  | .stop =>
      match loop.phase with
      | .sleeping _ => ⟨.ended, true⟩
      | phase => ⟨phase, true⟩
  | .look next =>
      match loop.phase with
      | .idle =>
          if loop.told then { loop with phase := .ended }
          else
            match next with
            | some occurrence => { loop with phase := .sleeping occurrence }
            | none => { loop with phase := .ended }
      | _ => loop
  | .slept =>
      match loop.phase with
      | .sleeping occurrence => { loop with phase := .claiming occurrence }
      | _ => loop
  | .claimed claim =>
      match loop.phase with
      | .claiming occurrence =>
          match claim with
          | some .acquired => { loop with phase := .running occurrence }
          | _ => { loop with phase := .idle }
      | _ => loop
  | .finished failure =>
      match loop.phase with
      | .running _ =>
          if loop.told && failure.any Failure.isCancelled then { loop with phase := .ended }
          else { loop with phase := .idle }
      | _ => loop
  | .crashed =>
      match loop.phase with
      | .running _ => { loop with phase := .ended }
      | _ => loop

end Loop

end DeclarationWatch.Schedule
