import DeclarationWatch.Json.Printer
import DeclarationWatch.Json.Record
import DeclarationWatch.Time.Timestamp

namespace DeclarationWatch

-- The text of each record as last seen, by record id.
abbrev Snapshot := Keyed String

-- A declaration that is being watched.
structure Item where
  id : String
  snapshot : Snapshot
  complete : Bool
  created : Time.Instant
  expiry : Time.Instant
  -- None before the first cycle that reads the item.
  lastPolled : Option Time.Instant
  deriving Repr, DecidableEq

namespace Item

-- An item as it is first registered. Its time to live is given in milliseconds. There is none if
-- the expiry leaves the calendar.
def fresh? (id : String) (created : Time.Instant) (ttl : Int) : Option Item :=
  (created.add? ttl).map fun expiry => ⟨id, [], false, created, expiry, none⟩

def timeJson (t : Time.Instant) : Json := .string t.text

def toJson (item : Item) : Json :=
  .object [("id", .string item.id),
    ("gmrs", .object (item.snapshot.map fun pair => (pair.1, .string pair.2))),
    ("complete", .bool item.complete), ("created", timeJson item.created),
    ("expiry", timeJson item.expiry),
    ("last_polled", (item.lastPolled.map timeJson).getD .null)]

def text (item : Item) : String := item.toJson.text

end Item

-- A time is a text in the form of a timestamp.
def Json.Decoder.time : Json.Decoder Time.Instant := fun levels node => do
  match Time.Instant.ofText? (← Json.Decoder.string levels node) with
  | some t => .ok t
  | none => .error .wrongShape

namespace Item

structure Draft where
  id : Option String := none
  snapshot : Option Snapshot := none
  complete : Option Bool := none
  created : Option Time.Instant := none
  expiry : Option Time.Instant := none
  lastPolled : Option (Option Time.Instant) := none

-- The last member may be missing from an object, and not from an array.
def fields : List (Json.Field Draft) := [
  .required "id" Json.Decoder.string (·.id) fun draft value => { draft with id := value },
  .required "gmrs" (Json.Decoder.table Json.Decoder.string) (·.snapshot)
    fun draft value => { draft with snapshot := value },
  .required "complete" Json.Decoder.bool (·.complete)
    fun draft value => { draft with complete := value },
  .required "created" Json.Decoder.time (·.created)
    fun draft value => { draft with created := value },
  .required "expiry" Json.Decoder.time (·.expiry)
    fun draft value => { draft with expiry := value },
  { Json.Field.required "last_polled" (Json.Decoder.optional Json.Decoder.time) (·.lastPolled)
      (fun draft value => { draft with lastPolled := some value }) with mayLack := true }]

def decode : Json.Decoder Item := fun levels node => do
  let draft ← Json.Decoder.record fields {} levels node
  match draft.id, draft.snapshot, draft.complete, draft.created, draft.expiry with
  | some id, some snapshot, some complete, some created, some expiry =>
      .ok ⟨id, snapshot, complete, created, expiry, draft.lastPolled.join⟩
  | _, _, _, _, _ => .error .wrongShape

def ofText (s : String) : Except Json.Fault Item := Json.decodeText decode s

end Item

end DeclarationWatch
