import Polyfill.Hash.Bytes
/-!
# Iterated hash functions

A message is padded to whole blocks, and a compression function is folded over them.  The padding
is one set bit, then zeros, then the length of the message in bits.
-/

namespace Polyfill.Hash

/-- What tells one iterated hash function from another. -/
structure Iterated (σ : Type) where
  /-- The size of a block, in bytes. -/
  block : Nat
  /-- The bytes at the end of the padding that hold the length of the message. -/
  lengthField : Nat → List UInt8
  /-- The state before the first block. -/
  start : σ
  /-- The state after one more block. -/
  compress : σ → List UInt8 → σ
  /-- The bytes of the last state. -/
  output : σ → List UInt8

/-- Folds `f` over the blocks of `bytes`, each of `size` bytes but perhaps the last. -/
def foldBlocks {σ : Type} (size : Nat) (f : σ → List UInt8 → σ) (s : σ) (bytes : List UInt8) :
    σ :=
  match bytes with
  | [] => s
  | b :: rest => foldBlocks size f (f s (b :: rest.take (size - 1))) (rest.drop (size - 1))
termination_by bytes.length
decreasing_by simp only [List.length_drop, List.length_cons]; omega

namespace Iterated

variable {σ : Type}

/-- The padding of a message of `n` bytes. -/
def padding (h : Iterated σ) (n : Nat) : List UInt8 :=
  let field := h.lengthField (8 * n)
  let used := (n + 1 + field.length) % h.block
  0x80 :: (List.replicate ((h.block - used) % h.block) 0 ++ field)

/-- The digest of a message. -/
def digest (h : Iterated σ) (message : List UInt8) : List UInt8 :=
  h.output (foldBlocks h.block h.compress h.start (message ++ h.padding message.length))

end Iterated

end Polyfill.Hash
