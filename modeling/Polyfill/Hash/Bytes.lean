/-!
# Words and bytes

Words of 32 and 64 bits from bytes and back, in either order, and the rotations that the hash
functions use.
-/

namespace Polyfill.Hash

/-- The number that bytes spell, most significant first. -/
def natOfBytes (bytes : List UInt8) : Nat :=
  bytes.foldl (fun n b => n * 256 + b.toNat) 0

/-- The last `count` bytes of a number, least significant first. -/
def littleEndian : (count : Nat) → Nat → List UInt8
  | 0, _ => []
  | count + 1, n => UInt8.ofNat n :: littleEndian count (n / 256)

/-- The last `count` bytes of a number, most significant first. -/
def bigEndian (count n : Nat) : List UInt8 :=
  (littleEndian count n).reverse

@[simp] theorem length_littleEndian (count n : Nat) : (littleEndian count n).length = count := by
  induction count generalizing n with
  | zero => rfl
  | succ count ih => simp [littleEndian, ih]

@[simp] theorem length_bigEndian (count n : Nat) : (bigEndian count n).length = count := by
  simp [bigEndian]

/-- The words of a block, four bytes each, most significant first; bytes that fill no word are
left out. -/
def words32 : List UInt8 → List UInt32
  | a :: b :: c :: d :: rest => UInt32.ofNat (natOfBytes [a, b, c, d]) :: words32 rest
  | _ => []

/-- The words of a block, four bytes each, least significant first. -/
def littleWords32 : List UInt8 → List UInt32
  | a :: b :: c :: d :: rest => UInt32.ofNat (natOfBytes [d, c, b, a]) :: littleWords32 rest
  | _ => []

/-- The words of a block, eight bytes each, most significant first. -/
def words64 : List UInt8 → List UInt64
  | a :: b :: c :: d :: e :: f :: g :: h :: rest =>
    UInt64.ofNat (natOfBytes [a, b, c, d, e, f, g, h]) :: words64 rest
  | _ => []

/-- A word turned to the left by `n` bits. -/
def rotl32 (x n : UInt32) : UInt32 :=
  (x <<< n) ||| (x >>> (32 - n))

/-- A word turned to the right by `n` bits. -/
def rotr32 (x n : UInt32) : UInt32 :=
  (x >>> n) ||| (x <<< (32 - n))

/-- A long word turned to the right by `n` bits. -/
def rotr64 (x n : UInt64) : UInt64 :=
  (x >>> n) ||| (x <<< (64 - n))

end Polyfill.Hash
