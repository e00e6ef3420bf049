import Polyfill.Hash.Iterated
/-!
# SHA-1

Five words of 32 bits, most significant byte first, and four rounds of twenty steps.
-/

namespace Polyfill.Hash.Sha1

/-- The five words of the state. -/
structure State where
  a : UInt32
  b : UInt32
  c : UInt32
  d : UInt32
  e : UInt32

/-- The eighty words made of a block: its own sixteen, then each from four before it. -/
def schedule (bytes : List UInt8) : List UInt32 :=
  let extend (w : Array UInt32) (i : Nat) : Array UInt32 :=
    w.push (rotl32 (w.getD (i + 13) 0 ^^^ w.getD (i + 8) 0 ^^^ w.getD (i + 2) 0 ^^^ w.getD i 0) 1)
  ((List.range 64).foldl extend (words32 bytes).toArray).toList

/-- The mixing function of a round, with the round's constant added. -/
def mix (round : Nat) (b c d : UInt32) : UInt32 :=
  match round with
  | 0 => ((b &&& c) ||| (~~~b &&& d)) + 0x5a827999
  | 1 => (b ^^^ c ^^^ d) + 0x6ed9eba1
  | 2 => ((b &&& c) ||| (b &&& d) ||| (c &&& d)) + 0x8f1bbcdc
  | _ => (b ^^^ c ^^^ d) + 0xca62c1d6

/-- Step `i` of eighty, with its word. -/
def step (s : State) (w : UInt32) (i : Nat) : State :=
  { a := rotl32 s.a 5 + mix (i / 20) s.b s.c s.d + s.e + w
    b := s.a, c := rotl32 s.b 30, d := s.c, e := s.d }

/-- The state after one more block. -/
def compress (s : State) (bytes : List UInt8) : State :=
  let t := ((schedule bytes).zipIdx).foldl (fun t (w, i) => step t w i) s
  { a := s.a + t.a, b := s.b + t.b, c := s.c + t.c, d := s.d + t.d, e := s.e + t.e }

/-- The twenty bytes of a state. -/
def output (s : State) : List UInt8 :=
  [s.a, s.b, s.c, s.d, s.e].flatMap fun w => bigEndian 4 w.toNat

end Polyfill.Hash.Sha1

namespace Polyfill.Hash

/-- SHA-1 as an iterated hash function. -/
def sha1 : Iterated Sha1.State where
  block := 64
  lengthField := bigEndian 8
  start := { a := 0x67452301, b := 0xefcdab89, c := 0x98badcfe, d := 0x10325476, e := 0xc3d2e1f0 }
  compress := Sha1.compress
  output := Sha1.output

end Polyfill.Hash
