import Polyfill.Error
import Polyfill.Text.Blank
import Polyfill.Hash.Md5
import Polyfill.Hash.Sha1
import Polyfill.Hash.Sha256
import Polyfill.Hash.Sha512
/-!
# Algorithms by name

The hash functions and the keyed hash functions that can be asked for, the digests they give, and
the two ways to write a digest.  Names are found without regard to ASCII case; an unknown name is
reported as it was given.

A keyed hash hashes twice, with the key mixed into the first block of each.  The block has
sixty-four bytes: a longer key is replaced by its digest, a shorter one filled up with zeros.
-/

namespace Polyfill

/-- A hash function. -/
inductive HashAlgorithm where
  | md5
  | sha1
  | sha256
  | sha512
  deriving DecidableEq, Repr

/-- A keyed hash function. -/
inductive HmacAlgorithm where
  | md5
  | sha1
  | sha256
  deriving DecidableEq, Repr

/-- How a digest is written. -/
inductive DigestEncoding where
  | hex
  | base64
  deriving DecidableEq, Repr

namespace HashAlgorithm

/-- The name that asks for an algorithm. -/
def name : HashAlgorithm → String
  | md5 => "md5"
  | sha1 => "sha1"
  | sha256 => "sha256"
  | sha512 => "sha512"

/-- The name of an algorithm in a description. -/
def label : HashAlgorithm → String
  | md5 => "Md5"
  | sha1 => "Sha1"
  | sha256 => "Sha256"
  | sha512 => "Sha512"

/-- Every hash function. -/
def all : List HashAlgorithm :=
  [md5, sha1, sha256, sha512]

/-- The algorithm with a name, in any ASCII case. -/
def ofName (given : String) : Except Error HashAlgorithm :=
  match all.find? fun a => a.name == Text.asciiLower given with
  | some a => .ok a
  | none => .error (.unsupportedAlgorithm given)

/-- How many bytes a digest has. -/
def digestLength : HashAlgorithm → Nat
  | md5 => 16
  | sha1 => 20
  | sha256 => 32
  | sha512 => 64

/-- The digest of some bytes. -/
def digest : HashAlgorithm → List UInt8 → List UInt8
  | md5, input => Hash.md5.digest input
  | sha1, input => Hash.sha1.digest input
  | sha256, input => Hash.sha256.digest input
  | sha512, input => Hash.sha512.digest input

end HashAlgorithm

namespace HmacAlgorithm

/-- The name that asks for an algorithm. -/
def name : HmacAlgorithm → String
  | md5 => "md5"
  | sha1 => "sha1"
  | sha256 => "sha256"

/-- The name of an algorithm in a description. -/
def label : HmacAlgorithm → String
  | md5 => "Md5"
  | sha1 => "Sha1"
  | sha256 => "Sha256"

/-- Every keyed hash function. -/
def all : List HmacAlgorithm :=
  [md5, sha1, sha256]

/-- The algorithm with a name, in any ASCII case. -/
def ofName (given : String) : Except Error HmacAlgorithm :=
  match all.find? fun a => a.name == Text.asciiLower given with
  | some a => .ok a
  | none => .error (.unsupportedAlgorithm given)

/-- The hash function of the same name. -/
def hash : HmacAlgorithm → HashAlgorithm
  | md5 => .md5
  | sha1 => .sha1
  | sha256 => .sha256

/-- The size of the block that the key fills. -/
abbrev keyBlock : Nat := 64

/-- A key brought to the size of a block: hashed if it is longer, then filled up with zeros. -/
def blockKey (a : HmacAlgorithm) (key : List UInt8) : List UInt8 :=
  let short := if keyBlock < key.length then a.hash.digest key else key
  short ++ List.replicate (keyBlock - short.length) 0

/-- The keyed digest of some bytes. -/
def mac (a : HmacAlgorithm) (key input : List UInt8) : List UInt8 :=
  let k := a.blockKey key
  let inner := a.hash.digest (k.map (· ^^^ 0x36) ++ input)
  a.hash.digest (k.map (· ^^^ 0x5c) ++ inner)

end HmacAlgorithm

namespace DigestEncoding

/-- The encoding with a name.  Only `base64`, in small letters, is other than hexadecimal. -/
def ofName (given : String) : DigestEncoding :=
  if given = "base64" then base64 else hex

/-- The name of an encoding in a description. -/
def label : DigestEncoding → String
  | hex => "Hex"
  | base64 => "Base64"

end DigestEncoding

end Polyfill
