import DeclarationWatch.Decimal.Shortest

namespace DeclarationWatch.Decimal

structure Layout where
  -- Exponents of the first digit, from and below, that are written with a point and no exponent.
  plainFrom : Int
  plainBelow : Int
  -- A whole number ends in a point and a zero.
  pointZero : Bool
  tie : Tie
  deriving Repr

def zeros (n : Nat) : List Char := List.replicate n '0'

-- The point stands inside the digits, before them or after them.
def plain (pointZero : Bool) (digits : List Char) (exponent : Int) : List Char :=
  if exponent < 0 then ['0', '.'] ++ zeros (-exponent - 1).toNat ++ digits
  else
    let whole := exponent.toNat + 1
    if digits.length ≤ whole then
      digits ++ zeros (whole - digits.length) ++ (if pointZero then ['.', '0'] else [])
    else digits.take whole ++ '.' :: digits.drop whole

-- One digit, the others behind a point, and the exponent with its sign.
def scientific (digits : List Char) (exponent : Int) : List Char :=
  let mantissa := match digits with
    | first :: second :: rest => first :: '.' :: second :: rest
    | short => short
  mantissa ++ ['e', if exponent < 0 then '-' else '+'] ++ Nat.toDigits 10 exponent.natAbs

def Layout.render (layout : Layout) (x : Float) : List Char :=
  let (digits, exponent) := (Binary.ofBits x.toBits).shortest layout.tie
  let body :=
    if layout.plainFrom ≤ exponent && exponent < layout.plainBelow then
      plain layout.pointZero digits exponent
    else scientific digits exponent
  if isNegative x then '-' :: body else body

end DeclarationWatch.Decimal
