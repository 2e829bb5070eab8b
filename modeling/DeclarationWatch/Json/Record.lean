import DeclarationWatch.Json.Decoder

namespace DeclarationWatch.Json

-- A named member of records whose drafts have type σ.
structure Field (σ : Type) where
  name : String
  store : σ → Nat → Node → Except Fault σ
  isSet : σ → Bool
  -- May the member be missing from an object, or from the end of an array?
  mayLack : Bool
  mayStop : Bool

namespace Field

variable {σ : Type}

def required (name : String) {β : Type} (decode : Decoder β) (get : σ → Option β)
    (set : σ → β → σ) : Field σ where
  name := name
  store := fun draft levels node => (decode levels node).map (set draft)
  isSet := fun draft => (get draft).isSome
  mayLack := false
  mayStop := false

-- The default is taken when the record is finished.
def defaulted (name : String) {β : Type} (decode : Decoder β) (get : σ → Option β)
    (set : σ → β → σ) : Field σ :=
  { required name decode get set with mayLack := true, mayStop := true }

end Field

namespace Decoder

variable {σ α : Type}

-- Unknown members are passed over. A known one may come once.
def recordMembers (fields : List (Field σ)) (levels : Nat) (draft : σ) :
    List (Piece × Node) → Except Fault σ
  | [] => .ok draft
  | (key, node) :: rest => do
      let key ← key.text
      match fields.find? (·.name == key) with
      | none =>
          close node.skim
          recordMembers fields levels draft rest
      | some field =>
          if field.isSet draft then .error .wrongShape
          else do
            let draft ← field.store draft levels node
            recordMembers fields levels draft rest

-- A record given as an array has its members in the order of declaration, and no others.
def recordItems (levels : Nat) (cut : Option Fault) (draft : σ) :
    List (Field σ) → List Node → Except Fault σ
  | [], [] => do
      close cut
      .ok draft
  | [], _ :: _ => .error .malformed
  | field :: fields, [] => do
      close cut
      if field.mayStop then recordItems levels cut draft fields [] else .error .wrongShape
  | field :: fields, item :: rest => do
      let draft ← field.store draft levels item
      recordItems levels cut draft fields rest

def recordObject (fields : List (Field σ)) (empty : σ) : Decoder σ
  | levels, .object members cut =>
      match levels with
      | 0 => .error .malformed
      | levels + 1 => do
          let draft ← recordMembers fields levels empty members
          close cut
          if fields.all fun field => field.mayLack || field.isSet draft then .ok draft
          else .error .wrongShape
  | _, node => .error node.mismatch

def record (fields : List (Field σ)) (empty : σ) : Decoder σ
  | levels, .array items cut =>
      match levels with
      | 0 => .error .malformed
      | levels + 1 => recordItems levels cut empty fields items
  | levels, node => recordObject fields empty levels node

end Decoder

end DeclarationWatch.Json
