import Polyfill.Hash.Iterated
/-!
# MD5

Four words of 32 bits, least significant byte first, and four rounds of sixteen steps.
-/

namespace Polyfill.Hash.Md5

/-- The four words of the state. -/
structure State where
  a : UInt32
  b : UInt32
  c : UInt32
  d : UInt32

/-- The constant added in each step. -/
def constants : List UInt32 :=
  [0xd76aa478, 0xe8c7b756, 0x242070db, 0xc1bdceee, 0xf57c0faf, 0x4787c62a, 0xa8304613, 0xfd469501,
    0x698098d8, 0x8b44f7af, 0xffff5bb1, 0x895cd7be, 0x6b901122, 0xfd987193, 0xa679438e,
    0x49b40821, 0xf61e2562, 0xc040b340, 0x265e5a51, 0xe9b6c7aa, 0xd62f105d, 0x02441453,
    0xd8a1e681, 0xe7d3fbc8, 0x21e1cde6, 0xc33707d6, 0xf4d50d87, 0x455a14ed, 0xa9e3e905,
    0xfcefa3f8, 0x676f02d9, 0x8d2a4c8a, 0xfffa3942, 0x8771f681, 0x6d9d6122, 0xfde5380c,
    0xa4beea44, 0x4bdecfa9, 0xf6bb4b60, 0xbebfbc70, 0x289b7ec6, 0xeaa127fa, 0xd4ef3085,
    0x04881d05, 0xd9d4d039, 0xe6db99e5, 0x1fa27cf8, 0xc4ac5665, 0xf4292244, 0x432aff97,
    0xab9423a7, 0xfc93a039, 0x655b59c3, 0x8f0ccc92, 0xffeff47d, 0x85845dd1, 0x6fa87e4f,
    0xfe2ce6e0, 0xa3014314, 0x4e0811a1, 0xf7537e82, 0xbd3af235, 0x2ad7d2bb, 0xeb86d391]

/-- By how many bits each step of a round turns; the four amounts repeat. -/
def turns (round step : Nat) : UInt32 :=
  let amounts : List UInt32 :=
    match round with
    | 0 => [7, 12, 17, 22]
    | 1 => [5, 9, 14, 20]
    | 2 => [4, 11, 16, 23]
    | _ => [6, 10, 15, 21]
  amounts.getD (step % 4) 0

/-- The mixing function of a round. -/
def mix (round : Nat) (b c d : UInt32) : UInt32 :=
  match round with
  | 0 => (b &&& c) ||| (~~~b &&& d)
  | 1 => (d &&& b) ||| (~~~d &&& c)
  | 2 => b ^^^ c ^^^ d
  | _ => c ^^^ (b ||| ~~~d)

/-- Which word of the block a step of a round uses. -/
def wordIndex (round step : Nat) : Nat :=
  match round with
  | 0 => step
  | 1 => (5 * step + 1) % 16
  | 2 => (3 * step + 5) % 16
  | _ => 7 * step % 16

/-- Step `i` of sixty-four, on a block of sixteen words. -/
def step (block : Array UInt32) (s : State) (i : Nat) (k : UInt32) : State :=
  let round := i / 16
  let f := mix round s.b s.c s.d + s.a + k + block.getD (wordIndex round (i % 16)) 0
  { a := s.d, b := s.b + rotl32 f (turns round i), c := s.b, d := s.c }

/-- The state after one more block. -/
def compress (s : State) (bytes : List UInt8) : State :=
  let block := (littleWords32 bytes).toArray
  let t := (constants.zipIdx).foldl (fun t (k, i) => step block t i k) s
  { a := s.a + t.a, b := s.b + t.b, c := s.c + t.c, d := s.d + t.d }

/-- The sixteen bytes of a state. -/
def output (s : State) : List UInt8 :=
  [s.a, s.b, s.c, s.d].flatMap fun w => littleEndian 4 w.toNat

end Polyfill.Hash.Md5

namespace Polyfill.Hash

/-- MD5 as an iterated hash function. -/
def md5 : Iterated Md5.State where
  block := 64
  lengthField := littleEndian 8
  start := { a := 0x67452301, b := 0xefcdab89, c := 0x98badcfe, d := 0x10325476 }
  compress := Md5.compress
  output := Md5.output

end Polyfill.Hash
