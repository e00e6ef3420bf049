import Polyfill.Error
import Polyfill.Text.Utf8
import Polyfill.Codec.Hex
import Polyfill.Codec.Base64
import Polyfill.Codec.Percent
/-!
# Codecs on text

Five ways to write a text as another text.  Writing never fails.  Reading fails when the input is
no written form, or when the bytes it stands for are not UTF-8; the first fault is reported before
the second is looked for.  The three percent codecs share one reader.
-/

namespace Polyfill

/-- A way to write text as text. -/
inductive Codec where
  | base64
  | hex
  | url
  | uriComponent
  | uri
  deriving DecidableEq, Repr

namespace Codec

/-- The written form of a text. -/
def encode : Codec → String → String
  | base64, s => String.ofList (Base64.encode (Utf8.bytes s))
  | hex, s => Hex.text (Utf8.bytes s)
  | url, s => String.ofList (Percent.url.encode s.toList)
  | uriComponent, s => String.ofList (Percent.uriComponent.encode s.toList)
  | uri, s => String.ofList (Percent.uri.encode s.toList)

/-- The bytes that a written form stands for. -/
def decodeBytes : Codec → String → Except DecodeFault (List UInt8)
  | base64, t =>
    match Base64.decode t.toList with
    | some bytes => .ok bytes
    | none => .error .base64
  | hex, t =>
    match Hex.decode t.toList with
    | some bytes => .ok bytes
    | none => .error .hex
  | url, t | uriComponent, t | uri, t =>
    match Percent.decode t.toList with
    | .ok bytes => .ok bytes
    | .error offset => .error (.escape offset)

/-- The text that a written form stands for. -/
def decode (c : Codec) (t : String) : Except Error String :=
  match c.decodeBytes t with
  | .error fault => .error (.decode fault)
  | .ok bytes =>
    match Utf8.text? bytes with
    | some s => .ok s
    | none => .error (.decode .notUtf8)

end Codec

end Polyfill
