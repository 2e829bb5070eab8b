import DeclarationWatch.Decimal.Shortest

namespace DeclarationWatch.Decimal

-- Rounds a quotient to a whole number. A half goes to the even neighbour.
def roundQuotient (above below : Nat) : Nat :=
  let down := above / below
  let twice := 2 * (above % below)
  if twice > below || (twice == below && down % 2 == 1) then down + 1 else down

-- The exponent of the greatest power of two that does not exceed a quotient.
def binaryScale (above below : Nat) : Int :=
  let guess : Int := (Nat.log2 above : Int) - Nat.log2 below
  if above * twoTo (-guess) < below * twoTo guess then guess - 1 else guess

def infinityBits : Nat := 0x7FF * twoTo 52

-- The bits of the value that is nearest to a quotient. Rounding up to the next power of two carries
-- into the exponent by itself. What is too large becomes infinite.
def nearestBits (above below : Nat) : Nat :=
  if above = 0 then 0
  else
    let exponent := max (-1074) (binaryScale above below - 52)
    let mantissa := roundQuotient (above * twoTo (-exponent)) (below * twoTo exponent)
    min infinityBits ((exponent + 1074).toNat * twoTo 52 + mantissa)

-- The value nearest to digits * 10 ^ scale. Far outside the range its size alone decides.
def nearest (digits : Nat) (scale : Int) : Float :=
  let size := digitCount digits + scale
  let bits :=
    if digits = 0 || size < -400 then 0
    else if 400 < size then infinityBits
    else nearestBits (digits * tenTo scale) (tenTo (-scale))
  Float.ofBits bits.toUInt64

-- The whole number nearest to a finite value without its sign. A half goes up.
def Binary.rounded (x : Binary) : Nat :=
  let below := twoTo (-x.exponent)
  (2 * (x.mantissa * twoTo x.exponent) + below) / (2 * below)

example : nearestBits 1 10 = 0x3FB999999999999A := by decide

example : Binary.rounded ⟨5, -1, false⟩ = 3 := by decide

end DeclarationWatch.Decimal
