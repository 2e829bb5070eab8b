import DeclarationWatch.Keyed

namespace DeclarationWatch

-- A number keeps its kind: integers of 64 bits, signed or not, stay exact.
inductive Json.Number where
  | integer (n : Int)
  | real (x : Float)

-- A JSON value. The members of an object are written in the order in which they stand here.
inductive Json where
  | null
  | bool (b : Bool)
  | number (n : Json.Number)
  | string (s : String)
  | array (items : List Json)
  | object (members : List (String × Json))

namespace Json

def int (n : Int) : Json := .number (.integer n)

def strings (texts : List String) : Json := .array (texts.map .string)

-- An object with its members in the order of their keys.
def record (members : List (String × Json)) : Json := .object (Keyed.ofList members)

def field? (key : String) : Json → Option Json
  | .object members => Keyed.get? key members
  | _ => none

end Json

end DeclarationWatch
