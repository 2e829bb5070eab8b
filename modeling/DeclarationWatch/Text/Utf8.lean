namespace DeclarationWatch.Text

abbrev Bytes := List UInt8

namespace Utf8

def byte (n : Nat) : UInt8 := UInt8.ofNat n

-- A byte after the first carries six bits.
def tail (bits : Nat) : UInt8 := byte (0x80 + bits % 64)

def encodeChar (c : Char) : Bytes :=
  let n := c.toNat
  if n < 0x80 then [byte n]
  else if n < 0x800 then [byte (0xC0 + n / 64), tail n]
  else if n < 0x10000 then [byte (0xE0 + n / 4096), tail (n / 64), tail n]
  else [byte (0xF0 + n / 262144), tail (n / 4096), tail (n / 64), tail n]

def encode (s : List Char) : Bytes := s.flatMap encodeChar

-- A character that is not complete: the bits read so far, how many bytes are owed, and the bounds
-- of the next one.
structure Pending where
  bits : Nat
  owed : Nat
  low : Nat := 0x80
  high : Nat := 0xBF

-- What a first byte begins. The bounds of the second byte keep out characters written too long,
-- surrogates and numbers above the last code point.
def lead? (b : Nat) : Option Pending :=
  if b < 0x80 then some ⟨b, 0, 0x80, 0xBF⟩
  else if b < 0xC2 then none
  else if b < 0xE0 then some ⟨b - 0xC0, 1, 0x80, 0xBF⟩
  else if b = 0xE0 then some ⟨0, 2, 0xA0, 0xBF⟩
  else if b = 0xED then some ⟨0xD, 2, 0x80, 0x9F⟩
  else if b < 0xF0 then some ⟨b - 0xE0, 2, 0x80, 0xBF⟩
  else if b = 0xF0 then some ⟨0, 3, 0x90, 0xBF⟩
  else if b < 0xF4 then some ⟨b - 0xF0, 3, 0x80, 0xBF⟩
  else if b = 0xF4 then some ⟨4, 3, 0x80, 0x8F⟩
  else none

def settle (pending : Pending) : List (Option Char) × Option Pending :=
  if pending.owed = 0 then ([some (Char.ofNat pending.bits)], none) else ([], some pending)

def first (b : UInt8) : List (Option Char) × Option Pending :=
  match lead? b.toNat with
  | none => ([none], none)
  | some pending => settle pending

-- One byte. A byte that cannot go on with a character ends it as ill-formed and begins anew.
def step : Option Pending → UInt8 → List (Option Char) × Option Pending
  | none, b => first b
  | some pending, b =>
      if pending.low ≤ b.toNat && b.toNat ≤ pending.high then
        settle ⟨pending.bits * 64 + b.toNat % 64, pending.owed - 1, 0x80, 0xBF⟩
      else
        let (pieces, state) := first b
        (none :: pieces, state)

-- The characters of a text. None stands for a piece that is ill-formed.
def scan : Option Pending → Bytes → List (Option Char)
  | none, [] => []
  | some _, [] => [none]
  | state, b :: rest =>
      let (pieces, state) := step state b
      pieces ++ scan state rest

def replacement : Char := '\ufffd'

-- Each ill-formed piece becomes one replacement character.
def decodeLossy (bytes : Bytes) : List Char := (scan none bytes).map fun c => c.getD replacement

def decode? (bytes : Bytes) : Option (List Char) := (scan none bytes).mapM id

example : decodeLossy [0x61, 0xE2, 0x82, 0x62, 0xFF] = ['a', '\ufffd', 'b', '\ufffd'] := by decide

example : decode? (encode ['é', '€', '😀']) = some ['é', '€', '😀'] := by decide

end Utf8

def utf8 (s : String) : Bytes := Utf8.encode s.toList

end DeclarationWatch.Text
