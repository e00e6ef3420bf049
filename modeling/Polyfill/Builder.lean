import Polyfill.Act
import Polyfill.Text.Quoted
/-!
# Builders

A builder gathers text bit by bit and digests what it has so far, as often as it is asked.  The
name of the algorithm is looked up only then, so a wrong name shows at the digest and not before.

A digest in base64 is the base64 of its hexadecimal text, not of its bytes.
-/

namespace Polyfill

/-- Writes a digest, given in hexadecimal, in an encoding. -/
def DigestEncoding.write (encoding : DigestEncoding) (ops : OpTable) (hex : String) : Act String :=
  match encoding with
  | .hex => pure hex
  | .base64 => ops.call (.encode .base64 hex)

/-- A description of a builder: the name as requested and the bytes gathered. -/
def builderText (kind algorithm buffer : String) : String :=
  kind ++ " \x7b algorithm: " ++ Text.quoted algorithm ++ ", buffered: " ++
    toString (Utf8.length buffer) ++ " \x7d"

/-- A digest in the making. -/
structure HashBuilder where
  ops : OpTable
  algorithm : String
  buffer : String

namespace HashBuilder

/-- A builder that has gathered nothing. -/
def new (ops : OpTable) (algorithm : String) : HashBuilder :=
  ⟨ops, algorithm, ""⟩

/-- The builder with more text gathered. -/
def update (b : HashBuilder) (text : String) : HashBuilder :=
  { b with buffer := b.buffer ++ text }

/-- The digest of what has been gathered. -/
def digest (b : HashBuilder) (encoding : DigestEncoding) : Act String := do
  let algorithm ← Act.ofExcept (HashAlgorithm.ofName b.algorithm)
  let hex ← b.ops.call (.digest algorithm b.buffer)
  encoding.write b.ops hex

/-- A description of the builder. -/
def describe (b : HashBuilder) : String :=
  builderText "HashBuilder" b.algorithm b.buffer

end HashBuilder

/-- A keyed digest in the making. -/
structure HmacBuilder where
  ops : OpTable
  algorithm : String
  key : String
  buffer : String

namespace HmacBuilder

/-- A builder with its key that has gathered nothing. -/
def new (ops : OpTable) (algorithm key : String) : HmacBuilder :=
  ⟨ops, algorithm, key, ""⟩

/-- The builder with more text gathered. -/
def update (b : HmacBuilder) (text : String) : HmacBuilder :=
  { b with buffer := b.buffer ++ text }

/-- The keyed digest of what has been gathered. -/
def digest (b : HmacBuilder) (encoding : DigestEncoding) : Act String := do
  let algorithm ← Act.ofExcept (HmacAlgorithm.ofName b.algorithm)
  let hex ← b.ops.call (.hmac algorithm b.key b.buffer)
  encoding.write b.ops hex

/-- A description of the builder. -/
def describe (b : HmacBuilder) : String :=
  builderText "HmacBuilder" b.algorithm b.buffer

end HmacBuilder

end Polyfill
