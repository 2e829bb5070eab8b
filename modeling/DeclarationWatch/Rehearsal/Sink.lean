import DeclarationWatch.Publish.Chunk

namespace DeclarationWatch.Rehearsal

open Publish

structure Reaction where
  delayMillis : Nat := 0
  -- The publication is called off while the request is answered.
  cancels : Bool := false
  -- Without an answer of its own the reaction follows the script of each entry.
  answer : Option Answer := none

structure SinkScript where
  -- By entry id, what happens the first, second, … time that the entry is sent.
  entries : Keyed (List String) := []
  -- By id of the first entry, the reaction to the first, second, … such request.
  requests : Keyed (List (Option Reaction)) := []
  otherwise : Reaction := {}

structure Call where
  atMillis : Nat
  entries : List Entry

-- How often each entry was sent, how often it came first, and all requests, the latest first.
structure SinkLog where
  sent : Keyed Nat := []
  led : Keyed Nat := []
  calls : List Call := []

def count (key : String) (table : Keyed Nat) : Nat := (table.get? key).getD 0

def countUp (key : String) (table : Keyed Nat) : Keyed Nat :=
  table.insert key (count key table + 1)

-- Each entry of a request is one sending of its id.
def takeActions (script : SinkScript) : Keyed Nat → List Entry → List Rejection × Keyed Nat
  | sent, [] => ([], sent)
  | sent, entry :: rest =>
      let action := do (← script.entries.get? entry.id)[count entry.id sent]?
      let (rejections, final) := takeActions script (countUp entry.id sent) rest
      match action with
      | none => (rejections, final)
      | some "ok" => (rejections, final)
      | some code => (⟨entry.id, code == "caller", code⟩ :: rejections, final)

-- One request: the reaction, the answer that it leads to, and the log with the request in it.
def SinkScript.react (script : SinkScript) (now : Nat) (entries : List Entry) (log : SinkLog) :
    Reaction × Answer × SinkLog :=
  let leader := (entries.head?.map (·.id)).getD ""
  let own := do (← script.requests.get? leader)[count leader log.led]?
  let reaction := own.join.getD script.otherwise
  let (rejections, sent) := takeActions script log.sent entries
  (reaction, reaction.answer.getD (.ok rejections),
    ⟨sent, countUp leader log.led, ⟨now, entries⟩ :: log.calls⟩)

end DeclarationWatch.Rehearsal
