import Mathlib.Data.List.GetD
import Polyfill.Proofs.Hash.Schedule
import Polyfill.Proofs.Hash.Width
/-!
# Keyed digests are digests of digests

A keyed hash can be made of any hash function that works in blocks (`Keyed.mac`).  The key takes one
block; behind its end there are zeros, and a key that is longer than a block is replaced by its
digest first.  Mixed with one mask the key goes in front of the message, and mixed with another in
front of the digest of both.

The key is looked at byte by byte here, as if the zeros went on without end.  So zeros at the end of
a key are no part of it, and a digest that fits into a block stands for any longer key that has this
digest.  All three keyed hash functions are of this kind (`HmacAlgorithm.mac_eq`).
-/

namespace Polyfill

/-! ## Hashing with a key -/

namespace Keyed

/-- A block of `size` bytes: those of a key, then zeros, each mixed with a mask. -/
def block (size : Nat) (key : List UInt8) (mask : UInt8) : List UInt8 :=
  List.ofFn fun i : Fin size => key.getD i 0 ^^^ mask

/-- What is used of a key: the key itself, or its digest if it is longer than a block. -/
def short (digest : List UInt8 → List UInt8) (size : Nat) (key : List UInt8) : List UInt8 :=
  if key.length ≤ size then key else digest key

/-- The keyed hash function made of a hash function with blocks of `size` bytes. -/
def mac (digest : List UInt8 → List UInt8) (size : Nat) (key input : List UInt8) : List UInt8 :=
  let k := short digest size key
  digest (block size k 0x5c ++ digest (block size k 0x36 ++ input))

variable {digest : List UInt8 → List UInt8} {size : Nat} {key : List UInt8}

/-- Filling a key up with zeros and mixing all of it with a mask gives its block. -/
lemma block_eq (h : key.length ≤ size) (mask : UInt8) :
    block size key mask = (key ++ List.replicate (size - key.length) 0).map (· ^^^ mask) := by
  refine List.ext_getElem ?_ fun i hi _ => ?_
  · simp [block]
    omega
  · simp only [block, List.getElem_ofFn, List.getElem_map]
    congr 1
    by_cases hkey : i < key.length
    · rw [List.getElem_append_left hkey, List.getD_eq_getElem _ _ hkey]
    · rw [List.getElem_append_right (by omega), List.getElem_replicate,
        List.getD_eq_default _ _ (by omega)]

/-- Zeros at the end of a key are there anyway. -/
lemma block_append_zeros (n : Nat) (mask : UInt8) :
    block size (key ++ List.replicate n 0) mask = block size key mask := by
  refine congrArg List.ofFn (funext fun i => ?_)
  congr 1
  by_cases hkey : i.val < key.length
  · rw [List.getD_append _ _ _ _ hkey]
  · rw [List.getD_append_right _ _ _ _ (by omega), List.getD_eq_default key _ (by omega),
      List.getD_eq_getElem?_getD, List.getElem?_getD_replicate_default_eq]

lemma mac_append_zeros {n : Nat} (h : key.length + n ≤ size) (input : List UInt8) :
    mac digest size (key ++ List.replicate n 0) input = mac digest size key input := by
  have hlong : short digest size (key ++ List.replicate n 0) = key ++ List.replicate n 0 :=
    if_pos (by rwa [List.length_append, List.length_replicate])
  have hkey : short digest size key = key := if_pos (by omega)
  simp only [mac, hlong, hkey, block_append_zeros]

/-- The digest of a key that is too long is as good as the key. -/
lemma mac_digest (hdigest : (digest key).length ≤ size) (h : size < key.length)
    (input : List UInt8) : mac digest size (digest key) input = mac digest size key input := by
  have hkey : short digest size key = digest key := if_neg (by omega)
  have hshort : short digest size (digest key) = digest key := if_pos hdigest
  simp only [mac, hkey, hshort]

end Keyed

/-! ## The three keyed hash functions -/

namespace HmacAlgorithm

lemma digestLength_le (a : HmacAlgorithm) : a.hash.digestLength ≤ keyBlock := by
  cases a <;> decide

lemma map_blockKey (a : HmacAlgorithm) (key : List UInt8) (mask : UInt8) :
    (a.blockKey key).map (· ^^^ mask) =
      Keyed.block keyBlock (Keyed.short a.hash.digest keyBlock key) mask := by
  unfold blockKey Keyed.short
  by_cases h : keyBlock < key.length
  · rw [if_pos h, if_neg (by omega), Keyed.block_eq]
    rw [HashAlgorithm.length_digest]
    exact a.digestLength_le
  · rw [if_neg h, if_pos (by omega), Keyed.block_eq (by omega)]

/-- Each keyed hash function is the one made of the hash function of the same name. -/
theorem mac_eq (a : HmacAlgorithm) (key input : List UInt8) :
    a.mac key input = Keyed.mac a.hash.digest keyBlock key input := by
  simp only [mac, Keyed.mac, map_blockKey]

/-- A key that just fills a block is not replaced by its digest: sixty-four zeros do not give what
their digest gives as a key. -/
lemma mac_digest_zeros_ne (a : HmacAlgorithm) :
    a.mac (a.hash.digest (List.replicate keyBlock 0)) [] ≠
      a.mac (List.replicate keyBlock 0) [] := by
  simp only [mac_eq]
  -- The digests are computed here, and so with words that are made of words.
  cases a with
  | md5 => decide +kernel
  | sha1 =>
    have hdigest : sha1.hash.digest = Hash.sha1ByWords.digest := Hash.digest_sha1
    rw [hdigest]
    decide +kernel
  | sha256 =>
    have hdigest : sha256.hash.digest = Hash.sha256ByWords.digest := Hash.digest_sha256
    rw [hdigest]
    decide +kernel

end HmacAlgorithm

/-- Keyed digests agree with digests, for keys of every length.  Each of the three keyed hash
functions is the one made of the hash function of the same name, with blocks of sixty-four bytes;
the op writes what it gives for the bytes of the key and of the text.  Hence zeros behind a key
change nothing as long as a block holds both, and the digest of a key of more than sixty-four bytes
can be used in its place.  For a key of just sixty-four bytes that is not so. -/
theorem keyed_digests_agree (a : HmacAlgorithm) :
    a.hash.name = a.name ∧
    (∀ key input, a.mac key input = Keyed.mac a.hash.digest 64 key input) ∧
    (∀ (key text : String) (s : Scene),
      ((OpTable.native.call (.hmac a key text)).perform s).1 =
        .ok (Hex.text (Keyed.mac a.hash.digest 64 (Utf8.bytes key) (Utf8.bytes text)))) ∧
    (∀ key n input, key.length + n ≤ 64 →
      a.mac (key ++ List.replicate n 0) input = a.mac key input) ∧
    (∀ key input, 64 < key.length → a.mac (a.hash.digest key) input = a.mac key input) ∧
    ∃ key input, key.length = 64 ∧ a.mac (a.hash.digest key) input ≠ a.mac key input := by
  refine ⟨by cases a <;> rfl, a.mac_eq, fun key text s => ?_, fun key n input h => ?_,
    fun key input h => ?_, List.replicate HmacAlgorithm.keyBlock 0, [], rfl, a.mac_digest_zeros_ne⟩
  · rw [OpTable.perform_call, ← HmacAlgorithm.mac_eq]
    rfl
  · rw [a.mac_eq, a.mac_eq]
    exact Keyed.mac_append_zeros h input
  · rw [a.mac_eq, a.mac_eq]
    refine Keyed.mac_digest ?_ h input
    rw [HashAlgorithm.length_digest]
    exact a.digestLength_le

end Polyfill
