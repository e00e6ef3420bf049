import Mathlib.Data.Bool.AllAny
import Polyfill.Proofs.Builder
import Polyfill.Proofs.Codec.Base64
import Polyfill.Proofs.Codec.Escapes
/-!
# How wide digests are

Whatever is hashed, the bytes of a digest are those of the words of the last state, and a state has
as many words for every message.  So an algorithm gives digests of one width
(`HashAlgorithm.length_digest`), and a keyed one those of the hash function it is made of
(`HmacAlgorithm.length_mac`).

Written in small hexadecimal digits, a digest is a text of ASCII characters.  Its base64 is as long
as its width says, and is read as that text again (`Transcodes`).
-/

namespace Polyfill

/-! ## Bytes -/

namespace Hash

lemma Md5.length_output (s : State) : (output s).length = 16 := by
  simp [output]

lemma Sha1.length_output (s : State) : (output s).length = 20 := by
  simp [output]

lemma Sha256.length_output (s : State) : (output s).length = 32 := by
  simp [output]

lemma Sha512.length_output (s : State) : (output s).length = 64 := by
  simp [output]

end Hash

/-- A digest has the length that the algorithm gives to all of them. -/
@[simp] lemma HashAlgorithm.length_digest (a : HashAlgorithm) (input : List UInt8) :
    (a.digest input).length = a.digestLength := by
  cases a with
  | md5 => exact Hash.Md5.length_output _
  | sha1 => exact Hash.Sha1.length_output _
  | sha256 => exact Hash.Sha256.length_output _
  | sha512 => exact Hash.Sha512.length_output _

@[simp] lemma HmacAlgorithm.length_mac (a : HmacAlgorithm) (key input : List UInt8) :
    (a.mac key input).length = a.hash.digestLength := by
  simp [mac]

/-! ## Texts -/

/-- How many characters a written digest has: in hexadecimal, and in base64 of that. -/
structure DigestWidth where
  hex : Nat
  base64 : Nat

/-- How wide the digests of an algorithm are written. -/
def HashAlgorithm.width : HashAlgorithm → DigestWidth
  | md5 => ⟨32, 44⟩
  | sha1 => ⟨40, 56⟩
  | sha256 => ⟨64, 88⟩
  | sha512 => ⟨128, 172⟩

/-- Each byte takes two digits, and every three of these, and what is left of them, take four. -/
lemma HashAlgorithm.width_eq (a : HashAlgorithm) :
    a.width = ⟨2 * a.digestLength, 4 * ((2 * a.digestLength + 2) / 3)⟩ := by
  cases a <;> rfl

/-- A text of so many small hexadecimal digits. -/
structure IsHexDigest (count : Nat) (h : String) : Prop where
  length : h.length = count
  digits : ∀ c ∈ h.toList, c ∈ Hex.digits

lemma isHexDigest_text {a : HashAlgorithm} {bytes : List UInt8}
    (h : bytes.length = a.digestLength) : IsHexDigest a.width.hex (Hex.text bytes) := by
  constructor
  · rw [Hex.text, String.length_ofList, Hex.length_encode, h, a.width_eq]
  · intro c hc
    rw [Hex.text, String.toList_ofList] at hc
    exact Hex.mem_digits_of_mem_encode hc

/-- Digits are ASCII, so that a text of digits has as many bytes as characters. -/
lemma IsHexDigest.length_bytes {count : Nat} {h : String} (hh : IsHexDigest count h) :
    (Utf8.bytes h).length = count := by
  have hone : ∀ c ∈ Hex.digits, (Utf8.encodeChar c).length = 1 :=
    List.all_iff_forall_prop.mp (by decide)
  rw [Utf8.bytes, Utf8.encode, List.length_flatMap,
    List.map_congr_left fun c hc => hone c (hh.digits c hc)]
  simpa [String.length_toList] using hh.length

/-- A digest that never fails in either encoding: in hexadecimal and in base64 it has the given
widths, and the base64 is read as the hexadecimal. -/
def Transcodes (env : Environment) (digest : DigestEncoding → Act String) (width : DigestWidth) :
    Prop :=
  ∀ s : Scene, ∃ h b,
    ((digest .hex).perform s).1 = .ok h ∧ ((digest .base64).perform s).1 = .ok b ∧
    (∀ s', ((env.atob b).perform s').1 = .ok h) ∧ IsHexDigest width.hex h ∧ b.length = width.base64

/-- One call of an op that answers with the digits of a digest transcodes. -/
lemma transcodes_of_oneShot {env : Environment} (henv : env.ops = .native)
    {digest : DigestEncoding → Act String} (op : TextOp) {bytes : List UInt8} {a : HashAlgorithm}
    (hdigest : ∀ encoding s, (digest encoding).perform s = OpTable.native.oneShot op encoding s)
    (hop : ∀ e, OpTable.native.answer op e = (.ok (Hex.text bytes), e))
    (hbytes : bytes.length = a.digestLength) : Transcodes env digest a.width := by
  intro s
  have hwide := isHexDigest_text hbytes
  refine ⟨Hex.text bytes, Codec.base64.encode (Hex.text bytes), ?_, ?_, fun s' => ?_, hwide, ?_⟩
  · simp only [hdigest, OpTable.oneShot, hop]
  · simp only [hdigest, OpTable.oneShot, hop]
    rfl
  · rw [Environment.atob, henv, OpTable.fst_native_decode]
    exact Codec.decode_base64_eq_ok_iff.mpr rfl
  · rw [Codec.encode, String.length_ofList, Base64.length_encode, hwide.length_bytes, a.width_eq]

/-- Digests of the built-in ops have a fixed shape, and can be written in base64 without loss.  For
every text and every key, an op for a digest never fails, and answers with as many small hexadecimal
digits as its algorithm has.  A builder whose name is that of an algorithm, up to ASCII case, does
not fail either, whatever calls were made on it: its digest in base64 is as long as the algorithm
says, and is read as its digest in hexadecimal. -/
theorem native_digests_transcode (host : Host) (s : Scene) :
    let env : Environment := ⟨host, .native⟩
    (∀ (a : HashAlgorithm) (text : String), ∃ h,
      ((OpTable.native.call (.digest a text)).perform s).1 = .ok h ∧ IsHexDigest a.width.hex h) ∧
    (∀ (a : HmacAlgorithm) (key text : String), ∃ h,
      ((OpTable.native.call (.hmac a key text)).perform s).1 = .ok h ∧
        IsHexDigest a.hash.width.hex h) ∧
    (∀ (a : HashAlgorithm) (name : String), Named name a.name → ∀ calls : List BuilderCall,
      Transcodes env ((env.cryptoUtils.createHash name).run s calls).builder.digest a.width) ∧
    ∀ (a : HmacAlgorithm) (name : String), Named name a.name →
      ∀ (key : String) (calls : List BuilderCall),
        Transcodes env ((env.cryptoUtils.createHmac name key).run s calls).builder.digest
          a.hash.width := by
  intro env
  refine ⟨fun a text => ⟨_, rfl, isHexDigest_text (a.length_digest _)⟩,
    fun a key text => ⟨_, rfl, isHexDigest_text (a.length_mac _ _)⟩,
    fun a name hname calls => ?_, fun a name hname key calls => ?_⟩
  · rw [CryptoUtils.createHash, HashBuilder.builder_run]
    refine transcodes_of_oneShot rfl (.digest a (gathered calls)) (fun encoding s' => ?_)
      (fun e => rfl) (a.length_digest _)
    rw [HashBuilder.digest_eq]
    exact (perform_digestBy HashAlgorithm.finds .native (.digest · (gathered calls))
      (fun _ => rfl) name encoding s').1 a hname
  · rw [CryptoUtils.createHmac, HmacBuilder.builder_run]
    refine transcodes_of_oneShot rfl (.hmac a key (gathered calls)) (fun encoding s' => ?_)
      (fun e => rfl) (a.length_mac _ _)
    rw [HmacBuilder.digest_eq]
    exact (perform_digestBy HmacAlgorithm.finds .native (.hmac · key (gathered calls))
      (fun _ => rfl) name encoding s').1 a hname

end Polyfill
