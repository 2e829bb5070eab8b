import DeclarationWatch.Ledger.Item

namespace DeclarationWatch

-- The mark that one occurrence of a job has been taken by a replica.
structure ScheduleToken where
  job : String
  scheduled : Time.Instant
  acquired : Time.Instant
  deriving Repr, DecidableEq

namespace ScheduleToken

def toJson (token : ScheduleToken) : Json :=
  .object [("job_name", .string token.job), ("scheduled_time", Item.timeJson token.scheduled),
    ("acquired_at", Item.timeJson token.acquired)]

def text (token : ScheduleToken) : String := token.toJson.text

structure Draft where
  job : Option String := none
  scheduled : Option Time.Instant := none
  acquired : Option Time.Instant := none

def fields : List (Json.Field Draft) := [
  .required "job_name" Json.Decoder.string (·.job)
    fun draft value => { draft with job := value },
  .required "scheduled_time" Json.Decoder.time (·.scheduled)
    fun draft value => { draft with scheduled := value },
  .required "acquired_at" Json.Decoder.time (·.acquired)
    fun draft value => { draft with acquired := value }]

def decode : Json.Decoder ScheduleToken := fun levels node => do
  let draft ← Json.Decoder.record fields {} levels node
  match draft.job, draft.scheduled, draft.acquired with
  | some job, some scheduled, some acquired => .ok ⟨job, scheduled, acquired⟩
  | _, _, _ => .error .wrongShape

def ofText (s : String) : Except Json.Fault ScheduleToken := Json.decodeText decode s

end ScheduleToken

end DeclarationWatch
