import DeclarationWatch.Text.Utf8

namespace DeclarationWatch.Net.Base64

open Text (Bytes)

def alphabet : List Char :=
  "ABCDEFGHIJKLMNOPQRSTUVWXYZabcdefghijklmnopqrstuvwxyz0123456789+/".toList

def digit (n : Nat) : Char := (alphabet[n % 64]?).getD 'A'

def value? (c : Char) : Option Nat := alphabet.findIdx? (· == c)

-- Three bytes make four digits. A shorter last group is filled up with equals signs.
def encode : Bytes → List Char
  | [] => []
  | [a] => [digit (a.toNat / 4), digit (a.toNat % 4 * 16), '=', '=']
  | [a, b] =>
      [digit (a.toNat / 4), digit (a.toNat % 4 * 16 + b.toNat / 16), digit (b.toNat % 16 * 4), '=']
  | a :: b :: c :: rest =>
      [digit (a.toNat / 4), digit (a.toNat % 4 * 16 + b.toNat / 16),
        digit (b.toNat % 16 * 4 + c.toNat / 64), digit c.toNat] ++ encode rest

-- The bits of a last digit that belong to no byte must be zero.
def lastGroup? : List Char → Option Bytes
  | [p, q, '=', '='] => do
      let x ← value? p
      let y ← value? q
      if y % 16 = 0 then some [Text.Utf8.byte (x * 4 + y / 16)] else none
  | [p, q, r, '='] => do
      let x ← value? p
      let y ← value? q
      let z ← value? r
      if z % 4 = 0 then
        some [Text.Utf8.byte (x * 4 + y / 16), Text.Utf8.byte (y % 16 * 16 + z / 4)]
      else none
  | _ => none

def group? (p q r s : Char) : Option Bytes := do
  let x ← value? p
  let y ← value? q
  let z ← value? r
  let w ← value? s
  some [Text.Utf8.byte (x * 4 + y / 16), Text.Utf8.byte (y % 16 * 16 + z / 4),
    Text.Utf8.byte (z % 4 * 64 + w)]

-- Reads what `encode` writes and nothing else: padding must be there, and only at the end.
def decode? : List Char → Option Bytes
  | [] => some []
  | p :: q :: r :: s :: rest =>
      match group? p q r s with
      | some bytes => (decode? rest).map (bytes ++ ·)
      | none => if rest.isEmpty then lastGroup? [p, q, r, s] else none
  | _ => none

example : encode (Text.utf8 "dev:s3cret") = "ZGV2OnMzY3JldA==".toList := by decide +kernel

example : decode? "ZGV2OnMzY3JldB==".toList = none := by decide +kernel

end DeclarationWatch.Net.Base64
