import DeclarationWatch.Decimal.Layout
import DeclarationWatch.Decimal.Nearest
import DeclarationWatch.Text.LowerCase
import DeclarationWatch.Width

namespace DeclarationWatch

inductive Settings.Scalar where
  | bool (b : Bool)
  -- Of 64 bits, with a sign.
  | integer (n : Int)
  | real (x : Float)
  | text (s : String)

namespace Settings.Scalar

def lower (s : String) : String := String.ofList (Text.lowerCase s.toList)

def isDigit (c : Char) : Bool := '0' ≤ c && c ≤ '9'

def readDigits (s : List Char) : Nat := s.foldl (fun n c => n * 10 + (c.toNat - 0x30)) 0

def splitSign : List Char → Bool × List Char
  | '-' :: rest => (true, rest)
  | '+' :: rest => (false, rest)
  | s => (false, s)

def signed (negative : Bool) (n : Nat) : Int := if negative then -n else n

def integer? (s : List Char) : Option Int :=
  let (negative, digits) := splitSign s
  let n := signed negative (readDigits digits)
  if digits ≠ [] && digits.all isDigit && Width.fitsSigned64 n then some n else none

-- The exponent after a number, zero if there is none.
def exponent? : List Char → Option Int
  | [] => some 0
  | mark :: rest =>
      let (negative, digits) := splitSign rest
      if (mark == 'e' || mark == 'E') && digits ≠ [] && digits.all isDigit then
        some (signed negative (readDigits digits))
      else none

-- Digits with a point among, before or after them, and perhaps an exponent.
def positional? (s : List Char) : Option Float := do
  let whole := s.takeWhile isDigit
  let after := s.dropWhile isDigit
  let (fraction, rest) := match after with
    | '.' :: tail => (tail.takeWhile isDigit, tail.dropWhile isDigit)
    | _ => ([], after)
  if whole ++ fraction = [] then none
  let exponent ← exponent? rest
  some (Decimal.nearest (readDigits (whole ++ fraction)) (exponent - fraction.length))

def infinity : Float := Float.ofBits 0x7FF0000000000000

def notANumber : Float := Float.ofBits 0x7FF8000000000000

-- Names of the values beyond numbers are read in any case.
def real? (s : List Char) : Option Float :=
  let (negative, size) := splitSign s
  let name := String.ofList (size.map Char.toLower)
  let value :=
    if name = "inf" || name = "infinity" then some infinity
    else if name = "nan" then some notANumber
    else positional? size
  value.map fun x => if negative then -x else x

-- The first reading that fits: a truth value, an integer, a number, a text.
def ofText (s : String) : Scalar :=
  let name := lower s
  if name = "true" then .bool true
  else if name = "false" then .bool false
  else
    match integer? s.toList, real? s.toList with
    | some n, _ => .integer n
    | none, some x => .real x
    | none, none => .text s

-- Numbers are written positionally, however long that gets, and whole ones without a point.
def layout : Decimal.Layout where
  plainFrom := -400
  plainBelow := 400
  pointZero := false
  tie := .up

def realText (x : Float) : String :=
  if x.isNaN then "NaN"
  else if x.isInf then (if Decimal.isNegative x then "-inf" else "inf")
  else String.ofList (layout.render x)

def asText : Scalar → String
  | .bool b => toString b
  | .integer n => toString n
  | .real x => realText x
  | .text s => s

def word? (s : String) : Option Bool :=
  let name := lower s
  if ["1", "true", "on", "yes"].contains name then some true
  else if ["0", "false", "off", "no"].contains name then some false
  else none

def clamp (low high n : Int) : Int := max low (min high n)

-- The whole number nearest to a value, held within bounds. A half goes away from zero.
def rounded (low high : Int) (x : Float) : Int :=
  if x.isNaN then 0
  else
    let negative := Decimal.isNegative x
    if x.isInf then (if negative then low else high)
    else clamp low high (signed negative (Decimal.Binary.ofBits x.toBits).rounded)

def bit (b : Bool) : Int := if b then 1 else 0

def asInteger? : Scalar → Option Int
  | .bool b => some (bit b)
  | .integer n => some n
  | .real x => some (rounded (-Width.signed64) (Width.signed64 - 1) x)
  | .text s => (word? s).map bit

-- A negative integer is no natural number. A negative number is taken for zero.
def asNatural? : Scalar → Option Nat
  | .bool b => some (bit b).toNat
  | .integer n => if n < 0 then none else some n.toNat
  | .real x => some (rounded 0 (Width.words64 - 1 : Nat) x).toNat
  | .text s => (word? s).map fun b => (bit b).toNat

def asBool? : Scalar → Option Bool
  | .bool b => some b
  | .integer n => some (n != 0)
  | .real x => some (x != 0)
  | .text s => word? s

end Settings.Scalar

end DeclarationWatch
