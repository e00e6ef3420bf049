import Polyfill.Text.Utf8
import Polyfill.Codec.Hex
/-!
# Percent coding

A byte is written as itself when the encoder keeps it, and otherwise as `%` with two hexadecimal
digits, in capitals.  Reading replaces each escape by its byte and leaves every other character as
its own bytes; it takes digits of either case, and names the place of the first `%` that starts no
escape.

Three encoders differ only in what they keep.  All three keep letters and digits.
-/

namespace Polyfill.Percent

/-- An encoder: the characters it leaves as they are, besides letters and digits. -/
structure Encoder where
  marks : List Char

/-- What is kept in any part of an address. -/
def url : Encoder :=
  ⟨['-', '_', '.', '~']⟩

/-- What is kept in a component of an address: five more marks. -/
def uriComponent : Encoder :=
  ⟨url.marks ++ ['!', '*', '\'', '(', ')']⟩

/-- What is kept in a whole address: the separators of its components as well. -/
def uri : Encoder :=
  ⟨uriComponent.marks ++ [';', ',', '/', '?', ':', '@', '&', '=', '+', '$', '#']⟩

/-- Whether a character is an ASCII letter or digit. -/
def isAlphanumeric (c : Char) : Bool :=
  ('a' ≤ c && c ≤ 'z') || ('A' ≤ c && c ≤ 'Z') || ('0' ≤ c && c ≤ '9')

/-- Whether an encoder leaves a character as it is. -/
def Encoder.keeps (e : Encoder) (c : Char) : Bool :=
  isAlphanumeric c || e.marks.contains c

/-- The capital digit of a number below sixteen. -/
def digit (n : Nat) : Char :=
  if n < 10 then Char.ofNat (48 + n) else Char.ofNat (55 + n)

/-- The escape of a byte. -/
def escape (b : UInt8) : List Char :=
  ['%', digit (b.toNat / 16), digit (b.toNat % 16)]

/-- One character: kept, or its bytes as escapes. -/
def Encoder.encodeChar (e : Encoder) (c : Char) : List Char :=
  if e.keeps c then [c] else (Utf8.encodeChar c).flatMap escape

/-- A text with every character written by the encoder. -/
def Encoder.encode (e : Encoder) (cs : List Char) : List Char :=
  cs.flatMap e.encodeChar

/-- Reads a text from byte offset `offset` on; `read` holds the bytes already read, last first.
The error is the offset of the first `%` that starts no escape. -/
def decodeOnto (offset : Nat) (read : List UInt8) : List Char → Except Nat (List UInt8)
  | [] => .ok read.reverse
  | c :: rest =>
    if c = '%' then
      match rest with
      | h :: l :: rest =>
        match Hex.byte? h l with
        | some b => decodeOnto (offset + 3) (b :: read) rest
        | none => .error offset
      | _ => .error offset
    else
      let own := Utf8.encodeChar c
      decodeOnto (offset + own.length) (own.reverse ++ read) rest

/-- The bytes of a text with escapes. -/
def decode (cs : List Char) : Except Nat (List UInt8) :=
  decodeOnto 0 [] cs

end Polyfill.Percent
