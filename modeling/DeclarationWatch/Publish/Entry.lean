import DeclarationWatch.Failure
import DeclarationWatch.Json.Record
import DeclarationWatch.Sighting

namespace DeclarationWatch.Publish

structure Entry where
  id : String
  payload : String
  deriving Repr, DecidableEq

def Entry.ofSighting (s : Sighting) : Entry := ⟨s.identifier, s.text⟩

def Entry.toJson (entry : Entry) : Json :=
  .object [("id", .string entry.id), ("payload", .string entry.payload)]

def requestBody (entries : List Entry) : Json :=
  .object [("entries", .array (entries.map Entry.toJson))]

structure Rejection where
  id : String
  -- The entry itself is to blame. Sending it again cannot help.
  callerFault : Bool
  code : String
  deriving Repr, DecidableEq

-- The receiver's answer to a request: the entries it did not take.
abbrev Acknowledgement := List Rejection

def Rejection.decode : Json.Decoder Rejection := fun levels node => do
  let (id, callerFault, code) ←
    Json.Decoder.record (σ := Option String × Option Bool × Option String)
      [.required "id" Json.Decoder.string (·.1) fun draft value => (value, draft.2),
        .defaulted "callerFault" Json.Decoder.bool (·.2.1)
          fun draft value => (draft.1, value, draft.2.2),
        .defaulted "code" Json.Decoder.string (·.2.2)
          fun draft value => (draft.1, draft.2.1, value)]
      (none, none, none) levels node
  .ok ⟨id.getD "", callerFault.getD false, code.getD ""⟩

def Acknowledgement.decode : Json.Decoder Acknowledgement := fun levels node => do
  let failed ← Json.Decoder.record (σ := Option (List Rejection))
    [.defaulted "failed" (Json.Decoder.list Rejection.decode) id fun _ value => value]
    none levels node
  .ok (failed.getD [])

def Acknowledgement.ofText (s : String) : Except Json.Fault Acknowledgement :=
  Json.decodeText Acknowledgement.decode s

end DeclarationWatch.Publish
