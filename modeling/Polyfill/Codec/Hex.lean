/-!
# Hexadecimal

Two digits for each byte.  Writing uses small letters; reading takes digits of either case, and
only an even number of them.
-/

namespace Polyfill.Hex

/-- The small digit of a number below sixteen. -/
def digit (n : Nat) : Char :=
  if n < 10 then Char.ofNat (48 + n) else Char.ofNat (87 + n)

/-- The value of a digit of either case. -/
def value? (c : Char) : Option Nat :=
  if '0' ≤ c ∧ c ≤ '9' then some (c.toNat - 48)
  else if 'a' ≤ c ∧ c ≤ 'f' then some (c.toNat - 87)
  else if 'A' ≤ c ∧ c ≤ 'F' then some (c.toNat - 55)
  else none

/-- The byte that two digits stand for. -/
def byte? (h l : Char) : Option UInt8 :=
  (value? h).bind fun x => (value? l).map fun y => UInt8.ofNat (16 * x + y)

/-- The digits of one byte. -/
def encodeByte (b : UInt8) : List Char :=
  [digit (b.toNat / 16), digit (b.toNat % 16)]

/-- The digits of some bytes. -/
def encode (bytes : List UInt8) : List Char :=
  bytes.flatMap encodeByte

/-- Reads pairs of digits; `read` holds the bytes already read, last first. -/
def decodeOnto (read : List UInt8) : List Char → Option (List UInt8)
  | [] => some read.reverse
  | h :: l :: rest =>
    match byte? h l with
    | some b => decodeOnto (b :: read) rest
    | none => none
  | [_] => none

/-- The bytes of some digits, if they are digits and pair up. -/
def decode (cs : List Char) : Option (List UInt8) :=
  decodeOnto [] cs

/-- The digits of some bytes, as a string. -/
def text (bytes : List UInt8) : String :=
  String.ofList (encode bytes)

end Polyfill.Hex
