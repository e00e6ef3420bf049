/-!
# The shortest decimal of a binary number

A floating-point number stands for an interval of reals: those nearer to it than to its
neighbours.  Its shortest decimal is the one with the fewest digits in that interval and, among
those, the nearest to the number.

All comparisons are between natural numbers, so nothing is rounded on the way.  For each count of
digits only the two neighbours of the number on the grid of such decimals are looked at: if any
point of the grid lies in the interval, one of these two does.
-/

namespace Polyfill

/-- A decimal number: `coefficient * 10 ^ exponent`. -/
structure Decimal where
  coefficient : Nat
  exponent : Int
  deriving DecidableEq, Repr

/-- A positive binary number `mantissa * 2 ^ exponent` among its neighbours. -/
structure Binary where
  mantissa : Nat
  exponent : Int
  /-- Whether the neighbour below is at half the distance of the one above. -/
  narrowBelow : Bool
  deriving DecidableEq, Repr

namespace Binary

/-- The lower end of the interval, in quarters of a unit of the mantissa. -/
def lower (b : Binary) : Nat :=
  4 * b.mantissa - (if b.narrowBelow then 1 else 2)

/-- The upper end of the interval, in quarters of a unit of the mantissa. -/
def upper (b : Binary) : Nat :=
  4 * b.mantissa + 2

/-- A quarter of a unit of the mantissa over `10 ^ k`, as numerator and denominator. -/
def ratio (b : Binary) (k : Int) : Nat × Nat :=
  (Nat.pow 2 (b.exponent - 2).toNat * Nat.pow 10 (-k).toNat,
    Nat.pow 2 (2 - b.exponent).toNat * Nat.pow 10 k.toNat)

/-- Whether `d * 10 ^ k` lies in the interval.  The ends belong to it when the mantissa is even. -/
def holds (b : Binary) (k : Int) (d : Nat) : Bool :=
  let (num, den) := b.ratio k
  if b.mantissa % 2 = 0 then
    b.lower * num ≤ d * den && d * den ≤ b.upper * num
  else
    b.lower * num < d * den && d * den < b.upper * num

/-- The better of the number's two neighbours among the multiples of `10 ^ k`, if one of them lies
in the interval.  Of two at the same distance the upper is taken. -/
def onGrid? (b : Binary) (k : Int) : Option Decimal :=
  let (num, den) := b.ratio k
  let value := 4 * b.mantissa * num
  let down := value / den
  let up := down + 1
  match b.holds k down, b.holds k up with
  | true, true => some ⟨if value - down * den < up * den - value then down else up, k⟩
  | true, false => some ⟨down, k⟩
  | false, true => some ⟨up, k⟩
  | false, false => none

/-- The number of digits before the point, or minus the number of zeros after it: the power of ten
just above the number. -/
def magnitude (b : Binary) : Int :=
  let (num, den) := b.ratio 0
  let value := 4 * b.mantissa * num
  if den ≤ value then
    ((Nat.toDigits 10 (value / den)).length : Int)
  else
    1 - ((Nat.toDigits 10 ((den + value - 1) / value - 1)).length : Int)

/-- The shortest decimal of a number with a mantissa of at most 53 bits, for which seventeen digits
are always enough. -/
def shortest (b : Binary) : Decimal :=
  let top := b.magnitude
  match (List.range 17).findSome? fun n => b.onGrid? (top - (n + 1 : Nat)) with
  | some d => d
  | none => ⟨0, 0⟩

end Binary

/-- The digits of a decimal in positional notation, without an exponent and without zeros at the
end of the fraction. -/
def Decimal.positional (d : Decimal) : String :=
  let all := Nat.toDigits 10 d.coefficient
  let digits := (all.reverse.dropWhile (· == '0')).reverse
  let exponent := d.exponent + (all.length - digits.length : Nat)
  if 0 ≤ exponent then
    String.ofList (digits ++ List.replicate exponent.toNat '0')
  else
    let places := (-exponent).toNat
    let padded := List.replicate (places + 1 - digits.length) '0' ++ digits
    let whole := padded.length - places
    String.ofList (padded.take whole ++ '.' :: padded.drop whole)

end Polyfill
