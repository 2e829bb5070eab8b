import DeclarationWatch.Decimal.Binary

namespace DeclarationWatch.Decimal

-- Which of two equally close decimals of the same length is written.
inductive Tie where
  | toEven
  | up
  deriving Repr, DecidableEq

def digitCount (n : Nat) : Nat := (Nat.toDigits 10 n).length

-- The least power of ten that exceeds the value. With a digits above and b below the fraction bar
-- the value lies between 10 ^ (a - b - 1) and 10 ^ (a - b + 1).
def Binary.scale (x : Binary) : Int :=
  let above := x.mantissa * twoTo x.exponent
  let below := twoTo (-x.exponent)
  let guess : Int := digitCount above - digitCount below
  if above * tenTo (-guess) < below * tenTo guess then guess else guess + 1

-- The decimal of the grid 10 ^ scale that reads back, if there is one. Only the two neighbours of
-- the value have to be tried: the interval of a value contains the value.
def Binary.onGrid (x : Binary) (tie : Tie) (scale : Int) : Option Nat :=
  let above := x.mantissa * twoTo x.exponent * tenTo (-scale)
  let below := twoTo (-x.exponent) * tenTo scale
  let down := above / below
  match x.readsBack down scale, x.readsBack (down + 1) scale with
  | true, false => some down
  | false, true => some (down + 1)
  | false, false => none
  | true, true =>
      match compare (2 * (above % below)) below, tie with
      | .lt, _ => some down
      | .gt, _ => some (down + 1)
      | .eq, .toEven => some (if down % 2 == 0 then down else down + 1)
      | .eq, .up => some (down + 1)

def dropTrailingZeros (digits : List Char) : List Char :=
  (digits.reverse.dropWhile (· == '0')).reverse

-- The fewest digits that read back, without zeros at the end, and the exponent of the first one.
-- Seventeen digits always suffice. The exact value stands in should none be found.
def Binary.shortest (x : Binary) (tie : Tie) : List Char × Int :=
  if x.mantissa == 0 then (['0'], 0)
  else
    let top := x.scale
    let found := (List.range 17).findSome? fun n =>
      let scale := top - (n + 1 : Nat)
      (x.onGrid tie scale).map (·, scale)
    let (digits, scale) := found.getD
      (x.mantissa * twoTo x.exponent * Nat.pow 5 (-x.exponent).toNat, min x.exponent 0)
    let text := Nat.toDigits 10 digits
    (dropTrailingZeros text, scale + text.length - 1)

end DeclarationWatch.Decimal
