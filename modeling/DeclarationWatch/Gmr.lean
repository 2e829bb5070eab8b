import DeclarationWatch.Json.Printer
import DeclarationWatch.Json.Record

namespace DeclarationWatch

-- A goods movement record. Only the members that the program reasons about have fields. All others
-- travel along in the payload.
structure Gmr where
  id : String
  state : String
  -- Kept as it was sent, and compared letter by letter.
  updated : String
  payload : Keyed Json

namespace Gmr

def toJson (gmr : Gmr) : Json :=
  .object ([("gmrId", .string gmr.id), ("state", .string gmr.state),
    ("updatedDateTime", .string gmr.updated)] ++ gmr.payload)

def text (gmr : Gmr) : String := gmr.toJson.text

structure Draft where
  id : Option String
  state : Option String
  updated : Option String
  payload : Keyed Json

def fields : List (Json.Field Draft) := [
  .required "gmrId" Json.Decoder.string (·.id) fun draft value => { draft with id := value },
  .defaulted "state" Json.Decoder.string (·.state)
    fun draft value => { draft with state := value },
  .defaulted "updatedDateTime" Json.Decoder.string (·.updated)
    fun draft value => { draft with updated := value }]

-- A member that has no field may come again. Its last value stays.
def decodeMembers (levels : Nat) (draft : Draft) :
    List (Json.Piece × Json.Node) → Except Json.Fault Draft
  | [] => .ok draft
  | (key, node) :: rest => do
      let key ← key.text
      match fields.find? (·.name == key) with
      | some field =>
          if field.isSet draft then .error .wrongShape
          else do
            let draft ← field.store draft levels node
            decodeMembers levels draft rest
      | none =>
          let value ← Json.Decoder.value levels node
          decodeMembers levels { draft with payload := draft.payload.insert key value } rest

-- A record is an object. Its id must be there.
def decode : Json.Decoder Gmr
  | levels, .object members cut =>
      match levels with
      | 0 => .error .malformed
      | levels + 1 => do
          let draft ← decodeMembers levels ⟨none, none, none, []⟩ members
          Json.Decoder.close cut
          match draft.id with
          | none => .error .wrongShape
          | some id =>
              .ok ⟨id, draft.state.getD "", draft.updated.getD "", draft.payload⟩
  | _, node => .error node.mismatch

def ofText (s : String) : Except Json.Fault Gmr := Json.decodeText decode s

end Gmr

end DeclarationWatch
