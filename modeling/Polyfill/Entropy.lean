import Polyfill.Codec.Hex
import Polyfill.Hash.Bytes
/-!
# Randomness

Random values are drawn from an endless tape of bytes, from the front.  What is drawn depends on
the tape only, so a computation that draws can be repeated.
-/

namespace Polyfill

/-- A tape of random bytes, and how many of them have been used. -/
structure Entropy where
  byte : Nat → UInt8
  used : Nat

namespace Entropy

/-- A tape that begins with the given bytes. -/
def ofBytes (bytes : ByteArray) : Entropy :=
  ⟨fun i => bytes.data.getD i 0, 0⟩

/-- The next bytes of the tape. -/
def draw (e : Entropy) (count : Nat) : List UInt8 × Entropy :=
  ((List.range count).map fun i => e.byte (e.used + i), { e with used := e.used + count })

/-- Sixteen bytes with the marks of a random identifier: version four, variant one. -/
def markUuid (bytes : List UInt8) : List UInt8 :=
  bytes.mapIdx fun i b =>
    if i = 6 then (b &&& 0x0f) ||| 0x40
    else if i = 8 then (b &&& 0x3f) ||| 0x80
    else b

/-- The digits of sixteen bytes in groups of eight, four, four, four and twelve. -/
def uuidText (bytes : List UInt8) : String :=
  let group (start count : Nat) : String := Hex.text ((bytes.drop start).take count)
  String.intercalate "-" [group 0 4, group 4 2, group 6 2, group 8 2, group 10 6]

/-- A random identifier. -/
def uuid (e : Entropy) : String × Entropy :=
  let (bytes, rest) := e.draw 16
  (uuidText (markUuid bytes), rest)

/-- Random bytes, in hexadecimal. -/
def hexBytes (e : Entropy) (count : Nat) : String × Entropy :=
  let (bytes, rest) := e.draw count
  (Hex.text bytes, rest)

/-- A random double in the unit interval, from 53 random bits. -/
def scalar (e : Entropy) : Float × Entropy :=
  let (bytes, rest) := e.draw 8
  (Float.ofNat (Hash.natOfBytes bytes.reverse >>> 11) / 9007199254740992.0, rest)

end Entropy

end Polyfill
