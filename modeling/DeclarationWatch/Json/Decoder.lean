import DeclarationWatch.Json.Reader

namespace DeclarationWatch.Json

-- Reads a node as a value of some type. The number says how many arrays and objects may still be
-- entered. The first fault met from left to right is the one reported.
abbrev Decoder (α : Type) := Nat → Node → Except Fault α

def maxDepth : Nat := 127

namespace Decoder

variable {α : Type}

def string : Decoder String
  | _, .string piece => piece.text
  | _, node => .error node.mismatch

def bool : Decoder Bool
  | _, .bool b => .ok b
  | _, node => .error node.mismatch

-- A signed integer of 64 bits. A float is none, even if it is whole.
def int64 : Decoder Int
  | _, .number (.ok (.integer n)) => if n < Width.signed64 then .ok n else .error .wrongShape
  | _, node => .error node.mismatch

def optional (decode : Decoder α) : Decoder (Option α)
  | _, .null => .ok none
  | levels, node => (decode levels node).map some

def close : Option Fault → Except Fault Unit
  | some fault => .error fault
  | none => .ok ()

def listItems (decode : Decoder α) (levels : Nat) : List Node → Except Fault (List α)
  | [] => .ok []
  | item :: rest => do
      let value ← decode levels item
      let values ← listItems decode levels rest
      .ok (value :: values)

def list (decode : Decoder α) : Decoder (List α)
  | levels, .array items cut =>
      match levels with
      | 0 => .error .malformed
      | levels + 1 => do
          let values ← listItems decode levels items
          close cut
          .ok values
  | _, node => .error node.mismatch

def tableMembers (decode : Decoder α) (levels : Nat) (table : Keyed α) :
    List (Piece × Node) → Except Fault (Keyed α)
  | [] => .ok table
  | (key, node) :: rest => do
      let key ← key.text
      let value ← decode levels node
      tableMembers decode levels (table.insert key value) rest

-- An object with any keys and values of one type. Of a repeated key the last value stays.
def table (decode : Decoder α) : Decoder (Keyed α)
  | levels, .object members cut =>
      match levels with
      | 0 => .error .malformed
      | levels + 1 => do
          let values ← tableMembers decode levels [] members
          close cut
          .ok values
  | _, node => .error node.mismatch

mutual

-- Any value. Of a repeated key the last value stays, and keys are put in order.
def value : Decoder Json
  | _, .null => .ok .null
  | _, .bool b => .ok (.bool b)
  | _, .number n => n.map .number
  | _, .string piece => piece.text.map .string
  | levels, .array items cut =>
      match levels with
      | 0 => .error .malformed
      | levels + 1 => do
          let values ← valueItems levels items
          close cut
          .ok (.array values)
  | levels, .object members cut =>
      match levels with
      | 0 => .error .malformed
      | levels + 1 => do
          let values ← valueMembers levels [] members
          close cut
          .ok (.object values)
  | _, .absent fault => .error fault

def valueItems : Nat → List Node → Except Fault (List Json)
  | _, [] => .ok []
  | levels, item :: rest => do
      let first ← value levels item
      let others ← valueItems levels rest
      .ok (first :: others)

def valueMembers : Nat → Keyed Json → List (Piece × Node) → Except Fault (Keyed Json)
  | _, table, [] => .ok table
  | levels, table, (key, node) :: rest => do
      let key ← key.text
      let member ← value levels node
      valueMembers levels (table.insert key member) rest

end

end Decoder

-- Reads a whole text. Whatever follows the value is looked at last.
def decodeText {α : Type} (decode : Decoder α) (s : String) : Except Fault α := do
  let document := Document.ofText s.toList
  let value ← decode maxDepth document.root
  Decoder.close document.trailing
  .ok value

-- Reads the first value of a text and leaves the rest unread.
def decodeFirst {α : Type} (decode : Decoder α) (s : String) : Except Fault α :=
  decode maxDepth (Document.ofText s.toList).root

def ofText? (s : String) : Option Json := (decodeText Decoder.value s).toOption

end DeclarationWatch.Json
