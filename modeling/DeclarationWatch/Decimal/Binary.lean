namespace DeclarationWatch.Decimal

def twoTo (exponent : Int) : Nat := Nat.pow 2 exponent.toNat

def tenTo (exponent : Int) : Nat := Nat.pow 10 exponent.toNat

-- A finite binary64 value without its sign: mantissa * 2 ^ exponent.
structure Binary where
  mantissa : Nat
  exponent : Int
  -- The gap to the value below is half the gap to the value above.
  narrowBelow : Bool
  deriving Repr, DecidableEq

-- The bits of a finite value. The sign bit is not looked at.
def Binary.ofBits (bits : UInt64) : Binary :=
  let exponent := ((bits >>> 52) &&& 0x7FF).toNat
  let fraction := (bits &&& 0xFFFFFFFFFFFFF).toNat
  if exponent == 0 then ⟨fraction, -1074, false⟩
  else ⟨twoTo 52 + fraction, (exponent : Int) - 1075, fraction == 0 && exponent > 1⟩

def isNegative (x : Float) : Bool := x.toBits >>> 63 == 1

-- Compares a * 10 ^ i with n * 2 ^ j, exactly.
def compareScaled (a : Nat) (i : Int) (n : Nat) (j : Int) : Ordering :=
  compare (a * tenTo i * twoTo (-j)) (n * twoTo j * tenTo (-i))

-- Does digits * 10 ^ scale lie among the reals that round to this value? The two ends of that
-- interval round to it exactly when the mantissa is even.
def Binary.readsBack (x : Binary) (digits : Nat) (scale : Int) : Bool :=
  let below := if x.narrowBelow then 4 * x.mantissa - 1 else 4 * x.mantissa - 2
  let above := 4 * x.mantissa + 2
  let closed := x.mantissa % 2 == 0
  let fromBelow := compareScaled digits scale below (x.exponent - 2)
  let fromAbove := compareScaled digits scale above (x.exponent - 2)
  (fromBelow == .gt || (closed && fromBelow == .eq)) &&
    (fromAbove == .lt || (closed && fromAbove == .eq))

end DeclarationWatch.Decimal
