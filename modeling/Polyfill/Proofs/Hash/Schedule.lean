import Mathlib.Logic.Function.Iterate
import Polyfill.Hash.Algorithm
/-!
# Blocks and the words made of them

A padded message consists of whole blocks (`Iterated.block_dvd_length`), so a digest depends on what
the compression function does to whole blocks only (`Iterated.digest_congr`).

The words made of a whole block follow a recurrence: each is made of four of the sixteen words
before it.  With the latest word in front, these four are found at the same places every time
(`Sha1.schedule_eq`, `Sha256.schedule_eq`).  In this form a digest of given bytes can be computed
within a proof, without an array that grows.
-/

namespace Polyfill.Hash

/-! ## Whole blocks -/

/-- A message and its padding fill whole blocks. -/
lemma Iterated.block_dvd_length {σ : Type} (h : Iterated σ) (hblock : 0 < h.block)
    (message : List UInt8) : h.block ∣ (message ++ h.padding message.length).length := by
  have hfill : ∀ n, (n + (h.block - n % h.block) % h.block) % h.block = 0 := fun n => by
    have hle := Nat.le_of_lt (Nat.mod_lt n hblock)
    rw [Nat.add_mod_mod, ← Nat.mod_add_mod, Nat.add_sub_cancel' hle, Nat.mod_self]
  refine Nat.dvd_of_mod_eq_zero ?_
  rw [← hfill (message.length + 1 + (h.lengthField (8 * message.length)).length)]
  congr 1
  simp only [padding, List.length_append, List.length_cons, List.length_replicate]
  omega

/-- On whole blocks, a fold depends only on what is done to them. -/
lemma foldBlocks_congr {σ : Type} {size : Nat} {f g : σ → List UInt8 → σ}
    (hfg : ∀ s b, b.length = size → f s b = g s b) {bytes : List UInt8}
    (h : size ∣ bytes.length) (s : σ) : foldBlocks size f s bytes = foldBlocks size g s bytes := by
  fun_induction foldBlocks size f s bytes with
  | case1 s => rw [foldBlocks]
  | case2 s b rest ih =>
    have hle := Nat.le_of_dvd (Nat.succ_pos _) h
    have hblock : (b :: rest.take (size - 1)).length = size := by
      simp only [List.length_cons, List.length_take] at hle ⊢
      have := Nat.pos_of_dvd_of_pos h (Nat.succ_pos _)
      omega
    have hrest : size ∣ (rest.drop (size - 1)).length := by
      have hdrop : (rest.drop (size - 1)).length = (b :: rest).length - size := by
        simp only [List.length_cons, List.length_drop, List.length_take] at hblock ⊢
        omega
      rw [hdrop]
      exact Nat.dvd_sub h (Nat.dvd_refl size)
    rw [ih hrest, foldBlocks.eq_def size g s (b :: rest)]
    simp only [hfg s _ hblock]

lemma Iterated.digest_congr {σ : Type} (h : Iterated σ) {compress : σ → List UInt8 → σ}
    (hblock : 0 < h.block)
    (hcompress : ∀ s b, b.length = h.block → h.compress s b = compress s b)
    (message : List UInt8) : h.digest message = { h with compress }.digest message :=
  congrArg h.output (foldBlocks_congr hcompress (h.block_dvd_length hblock message) h.start)

/-! ## Words made of words -/

/-- Words with more of them made one after the other, each by looking at those before it, the latest
of which comes first. -/
def wordsFrom (next : List UInt32 → UInt32) (count : Nat) (words : List UInt32) : List UInt32 :=
  ((fun w => next w :: w)^[count] words.reverse).reverse

variable {next : List UInt32 → UInt32} {words : List UInt32} {w : Array UInt32}

lemma wordsFrom_succ (next : List UInt32 → UInt32) (count : Nat) (words : List UInt32) :
    wordsFrom next (count + 1) words =
      wordsFrom next count words ++ [next (wordsFrom next count words).reverse] := by
  simp only [wordsFrom, Function.iterate_succ_apply', List.reverse_cons, List.reverse_reverse]

lemma length_wordsFrom (next : List UInt32 → UInt32) (count : Nat) (words : List UInt32) :
    (wordsFrom next count words).length = count + words.length := by
  induction count with
  | zero => simp [wordsFrom]
  | succ count ih =>
    rw [wordsFrom_succ, List.length_append, ih, List.length_singleton]
    omega

lemma length_words32 (bytes : List UInt8) : (words32 bytes).length = bytes.length / 4 := by
  fun_induction words32 bytes with
  | case1 a b c d rest ih =>
    simp only [List.length_cons, ih]
    omega
  | case2 bytes h =>
    rcases bytes with _ | ⟨a, _ | ⟨b, _ | ⟨c, _ | ⟨d, rest⟩⟩⟩⟩
    case cons.cons.cons.cons => exact absurd rfl (h a b c d rest)
    all_goals simp

/-- What is at a place of an array is as far from the other end in the reversed list. -/
lemma getD_eq_getD_reverse {i k : Nat} (h : w.size = i + k + 1) :
    w.getD i 0 = w.toList.reverse.getD k 0 := by
  have hk : k < w.toList.length := by
    rw [Array.length_toList]
    omega
  have hi : w.toList.length - 1 - k = i := by
    rw [Array.length_toList]
    omega
  rw [List.getD_eq_getElem?_getD, List.getElem?_reverse hk, hi, Array.getElem?_toList,
    Array.getD_eq_getD_getElem?]

/-- Words that are added to an array at its end are words made of words. -/
lemma toList_foldl_push {add : Array UInt32 → Nat → UInt32}
    (hadd : ∀ w i, w.size = i + 16 → add w i = next w.toList.reverse)
    (hwords : words.length = 16) (count : Nat) :
    ((List.range count).foldl (fun w i => w.push (add w i)) words.toArray).toList =
      wordsFrom next count words := by
  induction count with
  | zero => simp [wordsFrom]
  | succ count ih =>
    rw [List.range_succ, List.foldl_append, List.foldl_cons, List.foldl_nil, Array.toList_push,
      wordsFrom_succ, hadd, ih]
    rw [← Array.length_toList, ih, length_wordsFrom, hwords]

/-! ## The schedules -/

namespace Sha1

/-- The next word, made of those three, eight, fourteen and sixteen places before it. -/
def nextWord (w : List UInt32) : UInt32 :=
  rotl32 (w.getD 2 0 ^^^ w.getD 7 0 ^^^ w.getD 13 0 ^^^ w.getD 15 0) 1

theorem schedule_eq {bytes : List UInt8} (h : bytes.length = 64) :
    schedule bytes = wordsFrom nextWord 64 (words32 bytes) := by
  refine toList_foldl_push (fun w i hw => ?_) (by rw [length_words32, h]) 64
  rw [nextWord, getD_eq_getD_reverse (k := 2) hw, getD_eq_getD_reverse (k := 7) hw,
    getD_eq_getD_reverse (k := 13) hw, getD_eq_getD_reverse (k := 15) hw]

/-- The state after one more block, by the words that are made of it. -/
def compressWords (s : State) (words : List UInt32) : State :=
  let t := words.zipIdx.foldl (fun t (w, i) => step t w i) s
  { a := s.a + t.a, b := s.b + t.b, c := s.c + t.c, d := s.d + t.d, e := s.e + t.e }

end Sha1

namespace Sha256

/-- The next word, made of those two, seven, fifteen and sixteen places before it. -/
def nextWord (w : List UInt32) : UInt32 :=
  let x := w.getD 14 0
  let y := w.getD 1 0
  let s0 := rotr32 x 7 ^^^ rotr32 x 18 ^^^ (x >>> 3)
  let s1 := rotr32 y 17 ^^^ rotr32 y 19 ^^^ (y >>> 10)
  w.getD 15 0 + s0 + w.getD 6 0 + s1

theorem schedule_eq {bytes : List UInt8} (h : bytes.length = 64) :
    schedule bytes = wordsFrom nextWord 48 (words32 bytes) := by
  refine toList_foldl_push (fun w i hw => ?_) (by rw [length_words32, h]) 48
  simp only [nextWord, getD_eq_getD_reverse (k := 1) hw, getD_eq_getD_reverse (k := 6) hw,
    getD_eq_getD_reverse (k := 14) hw, getD_eq_getD_reverse (k := 15) hw]

/-- The state after one more block, by the words that are made of it. -/
def compressWords (s : State) (words : List UInt32) : State :=
  let t := (constants.zip words).foldl (fun t (k, w) => step t k w) s
  { a := s.a + t.a, b := s.b + t.b, c := s.c + t.c, d := s.d + t.d
    e := s.e + t.e, f := s.f + t.f, g := s.g + t.g, h := s.h + t.h }

end Sha256

/-- SHA-1 with words that are made of words. -/
def sha1ByWords : Iterated Sha1.State :=
  { sha1 with
    compress s bytes := Sha1.compressWords s (wordsFrom Sha1.nextWord 64 (words32 bytes)) }

/-- SHA-256 with words that are made of words. -/
def sha256ByWords : Iterated Sha256.State :=
  { sha256 with
    compress s bytes := Sha256.compressWords s (wordsFrom Sha256.nextWord 48 (words32 bytes)) }

theorem digest_sha1 : sha1.digest = sha1ByWords.digest :=
  funext <| sha1.digest_congr (by decide) fun s _ hblock =>
    congrArg (Sha1.compressWords s) (Sha1.schedule_eq hblock)

theorem digest_sha256 : sha256.digest = sha256ByWords.digest :=
  funext <| sha256.digest_congr (by decide) fun s _ hblock =>
    congrArg (Sha256.compressWords s) (Sha256.schedule_eq hblock)

end Polyfill.Hash
