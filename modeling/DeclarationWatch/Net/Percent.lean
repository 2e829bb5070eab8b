import DeclarationWatch.Text.Quoted
import DeclarationWatch.Text.Utf8

namespace DeclarationWatch.Net.Percent

open Text (Bytes)

def upperHexDigit (n : Nat) : Char := Char.ofNat (if n < 10 then 0x30 + n else 0x37 + n)

def escapeByte (b : UInt8) : List Char :=
  ['%', upperHexDigit (b.toNat / 16), upperHexDigit (b.toNat % 16)]

-- Escapes the bytes of the characters of a set.
def encode (set : Char → Bool) (s : List Char) : List Char :=
  s.flatMap fun c => if set c then (Text.Utf8.encodeChar c).flatMap escapeByte else [c]

def hexValue? (c : Char) : Option Nat :=
  if '0' ≤ c && c ≤ '9' then some (c.toNat - 0x30)
  else if 'a' ≤ c && c ≤ 'f' then some (c.toNat - 0x57)
  else if 'A' ≤ c && c ≤ 'F' then some (c.toNat - 0x37)
  else none

def escaped? (p q : Char) : Option UInt8 := do
  some (Text.Utf8.byte ((← hexValue? p) * 16 + (← hexValue? q)))

-- The bytes of a text. A percent sign without two digits after it stands for itself.
def decode : List Char → Bytes
  | [] => []
  | '%' :: p :: q :: rest =>
      match escaped? p q with
      | some b => b :: decode rest
      | none => Text.Utf8.encodeChar '%' ++ decode (p :: q :: rest)
  | c :: rest => Text.Utf8.encodeChar c ++ decode rest

example : decode "a%2fb%zz%".toList = Text.utf8 "a/b%zz%" := by decide +kernel

-- Controls and everything beyond ASCII.
def isControlOrForeign (c : Char) : Bool := c.toNat < 0x20 || 0x7E < c.toNat

def inQuery (c : Char) : Bool :=
  isControlOrForeign c || c == ' ' || c == '"' || c == '#' || c == '<' || c == '>'

-- Where the scheme is known to serve pages.
def inSpecialQuery (c : Char) : Bool := inQuery c || c == '\''

def inPath (c : Char) : Bool :=
  inQuery c || c == '?' || c == '\x60' || c == '\x7b' || c == '\x7d'

-- Form values: a space becomes a plus sign.
def keptInForm (c : Char) : Bool :=
  ('a' ≤ c && c ≤ 'z') || ('A' ≤ c && c ≤ 'Z') || ('0' ≤ c && c ≤ '9') || c == '*' || c == '-' ||
    c == '.' || c == '_'

def formText (s : List Char) : List Char :=
  s.flatMap fun c =>
    if c = ' ' then ['+']
    else if keptInForm c then [c]
    else (Text.Utf8.encodeChar c).flatMap escapeByte

def form (fields : List (String × String)) : String :=
  "&".intercalate (fields.map fun field =>
    String.ofList (formText field.1.toList ++ '=' :: formText field.2.toList))

end DeclarationWatch.Net.Percent
