import DeclarationWatch.Json.Value
import DeclarationWatch.Decimal.Layout
import DeclarationWatch.Text.Quoted

namespace DeclarationWatch.Json

-- Numbers that are no integers have the fewest digits that read back, positionally from 0.00001
-- to below 10 ^ 16, and always a point or an exponent.
def numberLayout : Decimal.Layout where
  plainFrom := -5
  plainBelow := 16
  pointZero := true
  tie := .toEven

def Number.render : Number → List Char
  | .integer n => if n < 0 then '-' :: Nat.toDigits 10 n.natAbs else Nat.toDigits 10 n.natAbs
  | .real x => numberLayout.render x

-- The five controls with a letter of their own.
def escapeLetter? (c : Char) : Option Char :=
  if c = '\x08' then some 'b'
  else if c = '\x09' then some 't'
  else if c = '\x0a' then some 'n'
  else if c = '\x0c' then some 'f'
  else if c = '\x0d' then some 'r'
  else none

-- Only quotes, backslashes and controls are escaped.
def escapeChar (c : Char) : List Char :=
  if c = '"' then ['\\', '"']
  else if c = '\\' then ['\\', '\\']
  else if c.toNat < 0x20 then
    match escapeLetter? c with
    | some letter => ['\\', letter]
    | none => ['\\', 'u', '0', '0', Text.hexDigit (c.toNat / 16), Text.hexDigit (c.toNat % 16)]
  else [c]

def renderString (s : String) : List Char := '"' :: s.toList.flatMap escapeChar ++ ['"']

mutual

-- The text of a value, without spaces.
def render : Json → List Char
  | .null => ['n', 'u', 'l', 'l']
  | .bool true => ['t', 'r', 'u', 'e']
  | .bool false => ['f', 'a', 'l', 's', 'e']
  | .number n => n.render
  | .string s => renderString s
  | .array items => '[' :: renderItems items ++ [']']
  | .object members => '\x7b' :: renderMembers members ++ ['\x7d']

def renderItems : List Json → List Char
  | [] => []
  | [item] => render item
  | item :: rest => render item ++ ',' :: renderItems rest

def renderMembers : List (String × Json) → List Char
  | [] => []
  | [(key, value)] => renderString key ++ ':' :: render value
  | (key, value) :: rest => renderString key ++ ':' :: render value ++ ',' :: renderMembers rest

end

def text (value : Json) : String := String.ofList value.render

end DeclarationWatch.Json
