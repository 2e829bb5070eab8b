import DeclarationWatch.Net.Header
import DeclarationWatch.Net.MediaType
import DeclarationWatch.Text.Utf8

namespace DeclarationWatch.Net

open Text (Bytes)

inductive Charset where
  | utf8
  | utf16 (bigEndian : Bool)
  -- One byte a character. The table holds the characters from 0x80 on.
  | single (upper : List Char)
  deriving Repr, DecidableEq

namespace Charset

-- The 32 characters from 0x80 on that differ from the first 256 code points. Five bytes have no
-- character of their own and stand for controls.
def westernControls : List Char := [
  '€', '\x81', '‚', 'ƒ', '„', '…', '†', '‡', 'ˆ', '‰', 'Š', '‹', 'Œ', '\x8d', 'Ž', '\x8f', '\x90',
  '‘', '’', '“', '”', '•', '–', '—', '˜', '™', 'š', '›', 'œ', '\x9d', 'ž', 'Ÿ']

def codesFrom (first count : Nat) : List Char :=
  (List.range count).map fun i => Char.ofNat (first + i)

def western : Charset := .single (westernControls ++ codesFrom 0xA0 96)

def replaceAt (changes : List (Nat × Char)) (table : List Char) : List Char :=
  table.zipIdx.map fun (c, i) => (changes.lookup (i + 0x80)).getD c

-- The revision with the euro sign.
def revised : Charset :=
  .single (replaceAt [(0xA4, '€'), (0xA6, 'Š'), (0xA8, 'š'), (0xB4, 'Ž'), (0xB8, 'ž'), (0xBC, 'Œ'),
    (0xBD, 'œ'), (0xBE, 'Ÿ')] (codesFrom 0x80 128))

def westernLabels : List String := [
  "ansi_x3.4-1968", "ascii", "cp1252", "cp819", "csisolatin1", "ibm819", "iso-8859-1",
  "iso-ir-100", "iso8859-1", "iso88591", "iso_8859-1", "iso_8859-1:1987", "l1", "latin1",
  "us-ascii", "windows-1252", "x-cp1252"]

def revisedLabels : List String := [
  "csisolatin9", "iso-8859-15", "iso8859-15", "iso885915", "iso_8859-15", "l9"]

def utf16Labels : List String := [
  "csunicode", "iso-10646-ucs-2", "ucs-2", "unicode", "unicodefeff", "utf-16", "utf-16le"]

def bigEndianLabels : List String := ["unicodefffe", "utf-16be"]

def isBlank (c : Char) : Bool := c == ' ' || c == '\t' || c == '\n' || c == '\r' || c == '\x0c'

-- Labels are compared in lower case, without blanks at the ends.
def labelName (label : String) : String :=
  let trimmed := ((label.toList.dropWhile isBlank).reverse.dropWhile isBlank).reverse
  String.ofList (trimmed.map Char.toLower)

-- The charset of a label. An unknown label counts as UTF-8.
def ofLabel (label : String) : Charset :=
  let name := labelName label
  if westernLabels.contains name then western
  else if revisedLabels.contains name then revised
  else if utf16Labels.contains name then .utf16 false
  else if bigEndianLabels.contains name then .utf16 true
  else .utf8

-- Pairs of bytes. A last byte alone is no unit.
def units (bigEndian : Bool) : Bytes → List (Option Nat)
  | [] => []
  | [_] => [none]
  | a :: b :: rest =>
      some (if bigEndian then a.toNat * 256 + b.toNat else b.toNat * 256 + a.toNat) ::
        units bigEndian rest

def isHigh (unit : Nat) : Bool := 0xD800 ≤ unit && unit < 0xDC00

def isLow (unit : Nat) : Bool := 0xDC00 ≤ unit && unit < 0xE000

-- A surrogate outside a pair becomes a replacement character.
def ofUnits : List (Option Nat) → List Char
  | [] => []
  | some high :: some low :: rest =>
      if isHigh high && isLow low then
        Char.ofNat (0x10000 + (high - 0xD800) * 1024 + (low - 0xDC00)) :: ofUnits rest
      else if isHigh high || isLow high then Text.Utf8.replacement :: ofUnits (some low :: rest)
      else Char.ofNat high :: ofUnits (some low :: rest)
  | [some high, none] =>
      if isHigh high || isLow high then [Text.Utf8.replacement]
      else [Char.ofNat high, Text.Utf8.replacement]
  | some unit :: rest =>
      (if isHigh unit || isLow unit then Text.Utf8.replacement else Char.ofNat unit) :: ofUnits rest
  | none :: rest => Text.Utf8.replacement :: ofUnits rest

def decode : Charset → Bytes → List Char
  | .utf8, bytes => Text.Utf8.decodeLossy bytes
  | .utf16 bigEndian, bytes => ofUnits (units bigEndian bytes)
  | .single upper, bytes => bytes.map fun b =>
      if b.toNat < 0x80 then Char.ofNat b.toNat
      else (upper[b.toNat - 0x80]?).getD Text.Utf8.replacement

-- A mark at the start of the bytes goes before everything that was announced. It is no character
-- of the text.
def ofMark (announced : Charset) : Bytes → Charset × Bytes
  | 0xEF :: 0xBB :: 0xBF :: rest => (.utf8, rest)
  | 0xFE :: 0xFF :: rest => (.utf16 true, rest)
  | 0xFF :: 0xFE :: rest => (.utf16 false, rest)
  | bytes => (announced, bytes)

def announced (contentType : Option String) : Charset :=
  let label := do
    let field ← contentType
    if isPlainField field then (← MediaType.ofText? field).param? "charset" else none
  ofLabel (label.getD "utf-8")

end Charset

def bodyText (contentType : Option String) (body : Bytes) : String :=
  let (charset, bytes) := (Charset.announced contentType).ofMark body
  String.ofList (charset.decode bytes)

end DeclarationWatch.Net
