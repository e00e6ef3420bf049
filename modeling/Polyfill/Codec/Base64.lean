/-!
# Base64

The standard alphabet with padding.  Reading accepts only what writing produces: no other
alphabet, no white space, no missing or surplus padding, no stray bits in the last digit.
-/

namespace Polyfill.Base64

/-- The digit of a number below sixty-four. -/
def digit (n : Nat) : Char :=
  if n < 26 then Char.ofNat (65 + n)
  else if n < 52 then Char.ofNat (71 + n)
  else if n < 62 then Char.ofNat (n - 4)
  else if n = 62 then '+'
  else '/'

/-- The value of a digit. -/
def value? (c : Char) : Option Nat :=
  if 'A' ≤ c ∧ c ≤ 'Z' then some (c.toNat - 65)
  else if 'a' ≤ c ∧ c ≤ 'z' then some (c.toNat - 71)
  else if '0' ≤ c ∧ c ≤ '9' then some (c.toNat + 4)
  else if c = '+' then some 62
  else if c = '/' then some 63
  else none

/-- The four digits of three bytes. -/
def encodeThree (a b c : UInt8) : List Char :=
  [digit (a.toNat / 4), digit (a.toNat % 4 * 16 + b.toNat / 16),
    digit (b.toNat % 16 * 4 + c.toNat / 64), digit (c.toNat % 64)]

/-- The last group, when two bytes are left. -/
def encodeTwo (a b : UInt8) : List Char :=
  [digit (a.toNat / 4), digit (a.toNat % 4 * 16 + b.toNat / 16), digit (b.toNat % 16 * 4), '=']

/-- The last group, when one byte is left. -/
def encodeOne (a : UInt8) : List Char :=
  [digit (a.toNat / 4), digit (a.toNat % 4 * 16), '=', '=']

/-- Writes groups of three bytes; `written` holds the digits already written, last first. -/
def encodeOnto (written : List Char) : List UInt8 → List Char
  | a :: b :: c :: rest => encodeOnto ((encodeThree a b c).reverse ++ written) rest
  | [a, b] => written.reverse ++ encodeTwo a b
  | [a] => written.reverse ++ encodeOne a
  | [] => written.reverse

/-- The digits of some bytes, in groups of four. -/
def encode (bytes : List UInt8) : List Char :=
  encodeOnto [] bytes

/-- The three bytes of four digits. -/
def threeBytes? (p q r s : Char) : Option (List UInt8) :=
  match value? p, value? q, value? r, value? s with
  | some w, some x, some y, some z =>
    some [UInt8.ofNat (w * 4 + x / 16), UInt8.ofNat (x % 16 * 16 + y / 4),
      UInt8.ofNat (y % 4 * 64 + z)]
  | _, _, _, _ => none

/-- The bytes of a last group that ends in padding: one byte if `r` is padding as well, else two.
The bits of the last digit that belong to no byte are zero. -/
def paddedBytes? (p q r : Char) : Option (List UInt8) :=
  match value? p, value? q with
  | some w, some x =>
    if r = '=' then
      if x % 16 = 0 then some [UInt8.ofNat (w * 4 + x / 16)] else none
    else
      match value? r with
      | some y =>
        if y % 4 = 0 then
          some [UInt8.ofNat (w * 4 + x / 16), UInt8.ofNat (x % 16 * 16 + y / 4)]
        else
          none
      | none => none
  | _, _ => none

/-- Reads groups of four digits; `read` holds the bytes already read, last first. -/
def decodeOnto (read : List UInt8) : List Char → Option (List UInt8)
  | [] => some read.reverse
  | p :: q :: r :: s :: rest =>
    if s = '=' then
      if rest.isEmpty then (paddedBytes? p q r).map (read.reverse ++ ·) else none
    else
      match threeBytes? p q r s with
      | some group => decodeOnto (group.reverse ++ read) rest
      | none => none
  | _ => none

/-- The bytes of some digits, if the digits are the written form of any. -/
def decode (cs : List Char) : Option (List UInt8) :=
  decodeOnto [] cs

end Polyfill.Base64
