/-!
# UTF-8

The bytes of a text and the text of some bytes, on lists.

`encode` writes each character in its shortest form.  `decode` accepts exactly the well-formed
sequences: overlong forms, surrogates, values above `10FFFF`, truncated characters and stray
continuation bytes are all refused.
-/

namespace Polyfill.Utf8

/-- The bytes of one character, in the shortest of the four forms. -/
def encodeChar (c : Char) : List UInt8 :=
  let v := c.toNat
  if v < 0x80 then
    [UInt8.ofNat v]
  else if v < 0x800 then
    [UInt8.ofNat (0xC0 + v / 0x40), UInt8.ofNat (0x80 + v % 0x40)]
  else if v < 0x10000 then
    [UInt8.ofNat (0xE0 + v / 0x1000), UInt8.ofNat (0x80 + v / 0x40 % 0x40),
      UInt8.ofNat (0x80 + v % 0x40)]
  else
    [UInt8.ofNat (0xF0 + v / 0x40000), UInt8.ofNat (0x80 + v / 0x1000 % 0x40),
      UInt8.ofNat (0x80 + v / 0x40 % 0x40), UInt8.ofNat (0x80 + v % 0x40)]

/-- The bytes of a text. -/
def encode (cs : List Char) : List UInt8 :=
  cs.flatMap encodeChar

/-- The payload of a continuation byte, if it is one. -/
def continuation? (b : UInt8) : Option Nat :=
  if 0x80 ≤ b.toNat ∧ b.toNat < 0xC0 then some (b.toNat - 0x80) else none

/-- The character with code point `v`, provided that `v` needs the form it was read from (it is at
least `least`) and is a scalar value. -/
def scalar? (least v : Nat) : Option Char :=
  if least ≤ v ∧ v.isValidChar then some (Char.ofNat v) else none

/-- The character of a two-byte form. -/
def pair? (a b : UInt8) : Option Char :=
  if 0xC0 ≤ a.toNat ∧ a.toNat < 0xE0 then
    (continuation? b).bind fun y => scalar? 0x80 ((a.toNat - 0xC0) * 0x40 + y)
  else
    none

/-- The character of a three-byte form. -/
def triple? (a b c : UInt8) : Option Char :=
  if 0xE0 ≤ a.toNat ∧ a.toNat < 0xF0 then
    (continuation? b).bind fun y => (continuation? c).bind fun z =>
      scalar? 0x800 ((a.toNat - 0xE0) * 0x1000 + y * 0x40 + z)
  else
    none

/-- The character of a four-byte form. -/
def quadruple? (a b c d : UInt8) : Option Char :=
  if 0xF0 ≤ a.toNat ∧ a.toNat < 0xF8 then
    (continuation? b).bind fun x => (continuation? c).bind fun y => (continuation? d).bind fun z =>
      scalar? 0x10000 ((a.toNat - 0xF0) * 0x40000 + x * 0x1000 + y * 0x40 + z)
  else
    none

/-- Reads characters from the front of `bytes`; `read` holds those already read, last first. -/
def decodeOnto (read : List Char) (bytes : List UInt8) : Option (List Char) :=
  match bytes with
  | [] => some read.reverse
  | a :: rest =>
    if a.toNat < 0x80 then
      decodeOnto (Char.ofNat a.toNat :: read) rest
    else if a.toNat < 0xE0 then
      match rest with
      | b :: rest =>
        match pair? a b with
        | some ch => decodeOnto (ch :: read) rest
        | none => none
      | [] => none
    else if a.toNat < 0xF0 then
      match rest with
      | b :: c :: rest =>
        match triple? a b c with
        | some ch => decodeOnto (ch :: read) rest
        | none => none
      | _ => none
    else
      match rest with
      | b :: c :: d :: rest =>
        match quadruple? a b c d with
        | some ch => decodeOnto (ch :: read) rest
        | none => none
      | _ => none

/-- The text of some bytes, if they are well-formed. -/
def decode (bytes : List UInt8) : Option (List Char) :=
  decodeOnto [] bytes

/-- The bytes of a string. -/
def bytes (s : String) : List UInt8 :=
  encode s.toList

/-- The string of some bytes, if they are well-formed. -/
def text? (bytes : List UInt8) : Option String :=
  (decode bytes).map String.ofList

/-- How many bytes a string takes. -/
def length (s : String) : Nat :=
  (bytes s).length

end Polyfill.Utf8
