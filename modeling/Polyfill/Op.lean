import Polyfill.Codec
import Polyfill.Hash.Algorithm
import Polyfill.Entropy
/-!
# Ops

Everything an environment cannot do by itself it asks of a table of ops.  A table is any function
from calls to answers; it may use up randomness.  Whether the caller keeps a record of its calls is
part of the table.

A table need not read whole addresses itself: if it does not, the reader of components is asked.
-/

namespace Polyfill

/-- A call whose answer is a text. -/
inductive TextOp where
  | digest (algorithm : HashAlgorithm) (input : String)
  | hmac (algorithm : HmacAlgorithm) (key input : String)
  | encode (codec : Codec) (input : String)
  | decode (codec : Codec) (input : String)
  | randomUuid
  | randomBytes (count : Nat)
  deriving DecidableEq, Repr

/-- A call of an op. -/
inductive Op where
  | text (op : TextOp)
  | randomScalar
  deriving DecidableEq, Repr

namespace TextOp

/-- The name of the op that a call asks for. -/
def name : TextOp → String
  | digest _ _ => "digest"
  | hmac _ _ _ => "hmac"
  | encode .base64 _ => "base64_encode"
  | encode .hex _ => "hex_encode"
  | encode .url _ => "url_encode"
  | encode .uriComponent _ => "encode_uri_component"
  | encode .uri _ => "encode_uri"
  | decode .base64 _ => "base64_decode"
  | decode .hex _ => "hex_decode"
  | decode .url _ => "url_decode"
  | decode .uriComponent _ => "decode_uri_component"
  | decode .uri _ => "decode_uri"
  | randomUuid => "random_uuid"
  | randomBytes _ => "random_bytes"

/-- The arguments of a call, as texts. -/
def arguments : TextOp → List String
  | digest algorithm input => [algorithm.name, input]
  | hmac algorithm key input => [algorithm.name, key, input]
  | encode _ input => [input]
  | decode _ input => [input]
  | randomUuid => []
  | randomBytes count => [toString count]

end TextOp

namespace Op

/-- The name of the op that a call asks for. -/
def name : Op → String
  | text op => op.name
  | randomScalar => "random_scalar"

/-- The arguments of a call, as texts. -/
def arguments : Op → List String
  | text op => op.arguments
  | randomScalar => []

end Op

/-- A table of ops. -/
structure OpTable where
  /-- Whether the calls are shown in a log. -/
  recorded : Bool
  /-- Whether the table reads whole addresses itself. -/
  decodesUri : Bool
  /-- The answer to a call, and the randomness left. -/
  answer : TextOp → Entropy → Except Error String × Entropy
  /-- A number meant to be in the unit interval. -/
  scalar : Entropy → Except Error Float × Entropy

namespace OpTable

/-- What the built-in ops answer. -/
def nativeAnswer (op : TextOp) (e : Entropy) : Except Error String × Entropy :=
  match op with
  | .digest a input => (.ok (Hex.text (a.digest (Utf8.bytes input))), e)
  | .hmac a key input => (.ok (Hex.text (a.mac (Utf8.bytes key) (Utf8.bytes input))), e)
  | .encode c input => (.ok (c.encode input), e)
  | .decode c input => (c.decode input, e)
  | .randomUuid =>
    let (uuid, rest) := e.uuid
    (.ok uuid, rest)
  | .randomBytes count =>
    let (text, rest) := e.hexBytes count
    (.ok text, rest)

/-- The number that the built-in ops draw. -/
def nativeScalar (e : Entropy) : Except Error Float × Entropy :=
  let (x, rest) := e.scalar
  (.ok x, rest)

/-- The built-in ops. -/
def native : OpTable where
  recorded := false
  decodesUri := false
  answer := nativeAnswer
  scalar := nativeScalar

/-- A fixed answer to an op. -/
inductive Reply where
  | text (s : String)
  | scalar (x : Float)
  /-- A unit for each of the bytes asked for. -/
  | perByte (unit : String)
  | fail (e : Error)

/-- What a fixed answer says to a call; `none` if it has nothing to say. -/
def Reply.answer? (r : Reply) (op : TextOp) : Option (Except Error String) :=
  match r, op with
  | .text s, _ => some (.ok s)
  | .fail e, _ => some (.error e)
  | .perByte unit, .randomBytes count => some (.ok (String.join (List.replicate count unit)))
  | _, _ => none

/-- The built-in ops with some of them replaced by fixed answers, by name.  Calls are recorded. -/
def scripted (replies : List (String × Reply)) : OpTable where
  recorded := true
  decodesUri := (replies.lookup "decode_uri").isSome
  answer op e :=
    match (replies.lookup op.name).bind (·.answer? op) with
    | some answer => (answer, e)
    | none => nativeAnswer op e
  scalar e :=
    match replies.lookup "random_scalar" with
    | some (.scalar x) => (.ok x, e)
    | some (.fail error) => (.error error, e)
    | _ => nativeScalar e

/-- The call that is really made: a table that does not read whole addresses is asked to read a
component. -/
def resolve (t : OpTable) (op : TextOp) : TextOp :=
  match op with
  | .decode .uri input => if t.decodesUri then op else .decode .uriComponent input
  | _ => op

end OpTable

end Polyfill
