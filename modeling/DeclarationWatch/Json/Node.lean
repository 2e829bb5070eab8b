import DeclarationWatch.Json.Fault
import DeclarationWatch.Json.Value

namespace DeclarationWatch.Json

-- A string as it stands in a text. Its escapes may name no character although the string ends
-- well: that matters only to a reader who wants the text.
structure Piece where
  text : Except Fault String
  -- What is wrong when the string is merely passed over.
  cut : Option Fault

-- What a text holds, up to the first place that is no JSON. Nothing follows such a place, so it is
-- met last by a reader who goes through the node in order.
inductive Node where
  | null
  | bool (b : Bool)
  -- A number beyond the largest float is well formed and has no value.
  | number (n : Except Fault Number)
  | string (piece : Piece)
  | array (items : List Node) (cut : Option Fault)
  | object (members : List (Piece × Node)) (cut : Option Fault)
  -- No value could be read here.
  | absent (fault : Fault)

namespace Node

mutual

-- The first fault met by a reader who passes over the node.
def skim : Node → Option Fault
  | .null | .bool _ | .number _ => none
  | .string piece => piece.cut
  | .array items cut => (skimItems items).or cut
  | .object members cut => (skimMembers members).or cut
  | .absent fault => some fault

def skimItems : List Node → Option Fault
  | [] => none
  | item :: rest => (skim item).or (skimItems rest)

def skimMembers : List (Piece × Node) → Option Fault
  | [] => none
  | (key, value) :: rest => key.cut.or ((skim value).or (skimMembers rest))

end

-- The fault of a node that has another shape than wanted. A leaf is read before its shape is
-- judged. Of an array or object the first bracket is enough.
def mismatch : Node → Fault
  | .absent fault => fault
  | .number (.error fault) => fault
  | .string ⟨.error fault, _⟩ => fault
  | _ => .wrongShape

end Node

end DeclarationWatch.Json
