import DeclarationWatch.Completion
import DeclarationWatch.Gmr.Join
import DeclarationWatch.Ledger.Store
import DeclarationWatch.Sighting

namespace DeclarationWatch

structure Policy where
  maxPollSize : Int := 500
  expiryDays : Int := 30
  terminalState : String := "COMPLETED"
  deriving Repr, DecidableEq

-- The time that an item may stay, in milliseconds, if that is a span at all.
def Policy.ttl? (policy : Policy) : Option Int := Time.spanOf? (policy.expiryDays * 86400000)

-- Which ledger operations are refused, and how.
structure Outage where
  register : Option Failure := none
  find : Option Failure := none
  bulkUpdate : Option Failure := none
  deleteAll : Option Failure := none

-- Puts a declaration on the ledger. Its reference is not checked here.
def watch (policy : Policy) (outage : Outage) (now : Time.Instant) (ledger : Ledger)
    (reference : String) : Except Failure (Registration × Ledger) :=
  match policy.ttl?.bind (Item.fresh? (Mrn.canonical reference) now) with
  | none => .error .outOfRange
  | some item =>
      match outage.register with
      | some failure => .error failure
      | none => .ok (ledger.register item)

namespace Cycle

structure Summary where
  polled : Nat := 0
  matchedMrns : Nat := 0
  unmatchedMrns : Nat := 0
  uniqueGmrs : Nat := 0
  itemsWithGmrs : Nat := 0
  completed : Nat := 0
  changedGmrs : Nat := 0
  deriving Repr, DecidableEq

-- Was this record seen in the same version before? A stored text that cannot be read was not.
def isKnown (prior : Snapshot) (gmr : Gmr) : Bool :=
  match prior.get? gmr.id with
  | none => false
  | some stored =>
      match Gmr.ofText stored with
      | .ok previous => previous.updated == gmr.updated
      | .error _ => false

def changedOf (item : Item) (current : List Gmr) : List Sighting :=
  (current.filter fun gmr => !isKnown item.snapshot gmr).map fun gmr => ⟨item.id, gmr⟩

def snapshotOf (current : List Gmr) : Snapshot :=
  Keyed.ofList (current.map fun gmr => (gmr.id, gmr.text))

-- What a cycle means to write and to publish, before it does either.
structure Assessment where
  updates : List Update
  changed : List Sighting
  summary : Summary

-- Compares a batch with the answer to its search. The groups are counted before any of them is read.
def assess (policy : Policy) (now : Time.Instant) (batch : List Item) (answer : SearchAnswer) :
    Assessment :=
  let groups := answer.byDeclaration
  let recordsOf (item : Item) := SearchAnswer.recordsOf groups item.id
  let isDone (item : Item) :=
    (Completion.decide item (recordsOf item) now policy.terminalState).isSome
  let matched := (batch.filter fun item => SearchAnswer.hasRecords groups item.id).length
  let changed := batch.flatMap fun item => changedOf item (recordsOf item)
  { updates := batch.map fun item =>
      ⟨item.id, snapshotOf (recordsOf item), now, isDone item⟩
    changed := changed
    summary :=
      { polled := batch.length
        matchedMrns := matched
        unmatchedMrns := batch.length - matched
        uniqueGmrs := answer.gmrs.length
        itemsWithGmrs := (batch.filter fun item => !(recordsOf item).isEmpty).length
        completed := (batch.filter isDone).length
        changedGmrs := changed.length } }

-- How a cycle meets the movement service.
inductive Search where
  -- The cycle was called off before it asked.
  | calledOff
  -- The cycle was called off while it waited for the answer.
  | abandoned
  | answered (answer : Except MovementFailure SearchAnswer)

-- What a cycle did. The publication leaves a trace of its own kind.
structure Outcome (τ : Type) where
  result : Except Failure Summary
  ledger : Ledger
  requests : List (List String)
  updates : List Update
  published : Option τ

variable {τ : Type}

-- The second half of a cycle: one write, and only then the publication.
def commit (outage : Outage) (publish : List Sighting → Except PublishFailure Unit × τ)
    (ledger : Ledger) (ids : List String) (assessment : Assessment) : Outcome τ :=
  match outage.bulkUpdate with
  | some failure => ⟨.error failure, ledger, [ids], [], none⟩
  | none =>
      let written := (ledger.bulkUpdate assessment.updates).2
      match assessment.changed with
      | [] => ⟨.ok assessment.summary, written, [ids], assessment.updates, none⟩
      | changed =>
          let (result, trace) := publish changed
          ⟨match result with
            | .ok () => .ok assessment.summary
            | .error failure => .error (.publish failure),
            written, [ids], assessment.updates, some trace⟩

-- Finds the items that are due, asks for their records all at once, and commits what it learns.
-- Nothing is written before the answer is there.
def run (policy : Policy) (outage : Outage) (now : Time.Instant) (ledger : Ledger)
    (search : List String → Search)
    (publish : List Sighting → Except PublishFailure Unit × τ) : Outcome τ :=
  match outage.find with
  | some failure => ⟨.error failure, ledger, [], [], none⟩
  | none =>
      match ledger.findIncomplete policy.maxPollSize with
      | [] => ⟨.ok {}, ledger, [], [], none⟩
      | batch =>
          let ids := batch.map (·.id)
          match search ids with
          | .calledOff => ⟨.error .cancelled, ledger, [], [], none⟩
          | .abandoned => ⟨.error .cancelled, ledger, [ids], [], none⟩
          | .answered (.error failure) => ⟨.error (.movement failure), ledger, [ids], [], none⟩
          | .answered (.ok answer) =>
              commit outage publish ledger ids (assess policy now batch answer)

end Cycle

end DeclarationWatch
