import Polyfill.Decimal.Shortest
import Polyfill.Text.Blank
/-!
# Doubles as text

A double is written with the fewest digits that read back, in positional notation, and without a
fraction if it is whole.  It is read from decimal notation with an optional exponent, and from the
names of the values that are not finite.
-/

namespace Polyfill.Double

/-- The magnitude of a finite double that is not zero. -/
def binary (x : Float) : Binary :=
  let bits := x.toBits.toNat
  let fraction : Nat := bits % (1 <<< 52)
  let field : Nat := (bits >>> 52) % (1 <<< 11)
  if field = 0 then
    ⟨fraction, -1074, false⟩
  else
    ⟨(1 <<< 52) + fraction, (field : Int) - 1075, fraction == 0 && 1 < field⟩

/-- Whether the sign bit is set. -/
def isNegative (x : Float) : Bool :=
  x.toBits.toNat >>> 63 == 1

/-- The text of a double. -/
def text (x : Float) : String :=
  if x.isNaN then
    "NaN"
  else
    let sign := if isNegative x then "-" else ""
    if x.isInf then sign ++ "inf"
    else if x == 0 then sign ++ "0"
    else sign ++ (binary x).shortest.positional

/-- The digits at the front of a text, and what follows them. -/
def spanDigits (cs : List Char) : List Char × List Char :=
  (cs.takeWhile Char.isDigit, cs.dropWhile Char.isDigit)

/-- The number that decimal digits spell. -/
def natOfDigits (cs : List Char) : Nat :=
  cs.foldl (fun n c => n * 10 + (c.toNat - 48)) 0

/-- The exponent that ends a number: nothing, or a letter `e` with a whole number. -/
def exponent? : List Char → Option Int
  | [] => some 0
  | e :: rest =>
    if e = 'e' then
      let (negative, digits) :=
        match rest with
        | '-' :: digits => (true, digits)
        | '+' :: digits => (false, digits)
        | digits => (false, digits)
      if digits.isEmpty || !digits.all Char.isDigit then
        none
      else
        let n : Int := natOfDigits digits
        some (if negative then -n else n)
    else
      none

/-- The double nearest to a decimal.  Decimals far outside the range of doubles are settled by
their magnitude alone. -/
def ofDecimal (d : Decimal) : Float :=
  let top := ((Nat.toDigits 10 d.coefficient).length : Int) + d.exponent
  if d.coefficient = 0 ∨ top < -400 then 0.0
  else if 400 < top then 1.0 / 0.0
  else if 0 ≤ d.exponent then Float.ofScientific d.coefficient false d.exponent.toNat
  else Float.ofScientific d.coefficient true (-d.exponent).toNat

/-- The magnitude that an unsigned text spells, with letters made small. -/
def magnitude? (cs : List Char) : Option Float :=
  if cs = "inf".toList ∨ cs = "infinity".toList then some (1.0 / 0.0)
  else if cs = "nan".toList then some (0.0 / 0.0)
  else
    let (whole, rest) := spanDigits cs
    let (fraction, rest) :=
      match rest with
      | '.' :: rest => spanDigits rest
      | rest => ([], rest)
    if whole.isEmpty && fraction.isEmpty then
      none
    else
      (exponent? rest).map fun e =>
        ofDecimal ⟨natOfDigits (whole ++ fraction), e - (fraction.length : Int)⟩

/-- The double that a text spells, if it spells one. -/
def parse? (s : String) : Option Float :=
  match (Text.asciiLower s).toList with
  | '-' :: cs => (magnitude? cs).map fun x => -x
  | '+' :: cs => magnitude? cs
  | cs => magnitude? cs

end Polyfill.Double
