import Polyfill.Host
import Polyfill.Builder
/-!
# Environments

An environment fills the gaps of a host.  Some of its functions are always there; each of the
others belongs to a capability and is refused, before anything else happens, if the host provides
that capability itself.

`CryptoUtils` is the part that is always there and knows nothing of the host.
-/

namespace Polyfill

/-- The helpers that are there on every host. -/
structure CryptoUtils where
  ops : OpTable

namespace CryptoUtils

/-- The digest of a text. -/
def digest (u : CryptoUtils) (algorithm : HashAlgorithm) (text : String) : Act String :=
  u.ops.call (.digest algorithm text)

/-- The keyed digest of a text. -/
def hmac (u : CryptoUtils) (algorithm : HmacAlgorithm) (key text : String) : Act String :=
  u.ops.call (.hmac algorithm key text)

/-- The written form of a text. -/
def encode (u : CryptoUtils) (codec : Codec) (text : String) : Act String :=
  u.ops.call (.encode codec text)

/-- The text of a written form. -/
def decode (u : CryptoUtils) (codec : Codec) (text : String) : Act String :=
  u.ops.call (.decode codec text)

/-- A builder for a digest. -/
def createHash (u : CryptoUtils) (algorithm : String) : HashBuilder :=
  HashBuilder.new u.ops algorithm

/-- A builder for a keyed digest. -/
def createHmac (u : CryptoUtils) (algorithm key : String) : HmacBuilder :=
  HmacBuilder.new u.ops algorithm key

/-- A description of the helpers. -/
def describe (_ : CryptoUtils) : String :=
  "CryptoUtils \x7b .. \x7d"

end CryptoUtils

/-- An environment: the host it completes and the ops it runs on. -/
structure Environment where
  host : Host
  ops : OpTable

namespace Environment

/-- The global names that every environment has. -/
def unconditionalNames : List String :=
  ["btoa", "atob", "md5", "sha1", "sha256", "sha512", "CryptoUtils", "cryptoRandom",
    "__WEBSHIM_EXTENSIONS_LOADED__"]

/-- Whether a capability is installed: whether the host lacks it. -/
def isInstalled (env : Environment) (c : Capability) : Bool :=
  !env.host.provides c

/-- The capabilities installed, in the order of installation. -/
def installed (env : Environment) : List Capability :=
  Capability.all.filter env.isInstalled

/-- The global names that the environment defines. -/
def globalNames (env : Environment) : List String :=
  unconditionalNames ++ env.installed.flatMap Capability.globalNames

/-- The message about one capability at installation. -/
def installMessage (host : Host) (c : Capability) : String :=
  if host.provides c then
    "[" ++ c.globalName ++ "] is provided by the host"
  else
    "Installing a polyfill for [" ++ c.globalName ++ "]"

/-- The messages of an installation: one for each capability, and the counts. -/
def installMessages (host : Host) : List String :=
  Capability.all.map (installMessage host) ++
    ["Shim installed: " ++ toString host.lacking.length ++ " polyfill(s), " ++
      toString host.size ++ " host-provided capability(ies)"]

/-- Installs what a host lacks. -/
def install (host : Host) (ops : OpTable) : Act Environment := fun s =>
  (.ok ⟨host, ops⟩, { s with notes := s.notes ++ (installMessages host).map Note.debug })

/-- Refuses to go on if the host provides a capability itself. -/
def require (env : Environment) (c : Capability) : Act Unit :=
  Act.ofExcept (if env.isInstalled c then .ok () else .error (.providedByHost c))

/-- The base64 of a text. -/
def btoa (env : Environment) (text : String) : Act String :=
  env.ops.call (.encode .base64 text)

/-- The text of its base64. -/
def atob (env : Environment) (text : String) : Act String :=
  env.ops.call (.decode .base64 text)

/-- The digest of a text. -/
def digest (env : Environment) (algorithm : HashAlgorithm) (text : String) : Act String :=
  env.ops.call (.digest algorithm text)

/-- The helpers on the ops of the environment. -/
def cryptoUtils (env : Environment) : CryptoUtils :=
  ⟨env.ops⟩

/-- A random number meant to be in the unit interval. -/
def cryptoRandom (env : Environment) : Act Float :=
  env.ops.drawScalar

/-- A text as a component of an address. -/
def encodeUriComponent (env : Environment) (text : String) : Act String := do
  env.require .encodeUriComponent
  env.ops.call (.encode .uriComponent text)

/-- The text of a component of an address. -/
def decodeUriComponent (env : Environment) (text : String) : Act String := do
  env.require .decodeUriComponent
  env.ops.call (.decode .uriComponent text)

/-- A text as a whole address. -/
def encodeUri (env : Environment) (text : String) : Act String := do
  env.require .encodeUri
  env.ops.call (.encode .uri text)

/-- The text of a whole address. -/
def decodeUri (env : Environment) (text : String) : Act String := do
  env.require .decodeUri
  env.ops.call (.decode .uri text)

/-- Leave to use the timers. -/
def timers (env : Environment) : Act Unit :=
  env.require .timers

/-- The number of a worker, from a random number: below a million, whatever the ops answer. -/
def workerNumber (x : Float) : Nat :=
  min (x * 1000000.0).toUInt32.toNat 999999

/-- The number of a new worker. -/
def spawnWorker (env : Environment) (url : String) : Act Nat := do
  env.require .worker
  let id := workerNumber (← env.ops.drawScalar)
  Act.debug ("Worker " ++ toString id ++ " created for [" ++ url ++ "]")
  pure id

/-- A random identifier. -/
def randomUuid (env : Environment) : Act String := do
  env.require .randomUuid
  env.ops.call .randomUuid

/-- The bytes that an op answered for an array of `count` elements, if it answered enough and not
too many. -/
def randomBytesOf (count : Nat) (hex : String) : Except Error (List UInt8) :=
  match Hex.decode hex.toList with
  | none => .error (.internal .malformedRandomBytes)
  | some bytes =>
    if bytes.length = count then .ok bytes
    else .error (.internal (.randomByteCount count bytes.length))

/-- New elements for an array of `count` elements, each from a random byte. -/
def randomElements {α : Type} (env : Environment) (ofByte : UInt8 → α) (count : Nat) :
    Act (List α) := do
  env.require .getRandomValues
  let hex ← env.ops.call (.randomBytes count)
  let bytes ← Act.ofExcept (randomBytesOf count hex)
  pure (bytes.map ofByte)

/-- What became of an array that was to be filled: the outcome and the array after it. -/
structure Filling (α : Type) where
  outcome : Except Error (List α)
  array : List α

/-- Fills an array with random elements, all of it or nothing. -/
def getRandomValues {α : Type} (env : Environment) (ofByte : UInt8 → α) (array : List α)
    (s : Scene) : Filling α × Scene :=
  match (env.randomElements ofByte array.length).perform s with
  | (.ok filled, s) => (⟨.ok filled, filled⟩, s)
  | (.error e, s) => (⟨.error e, array⟩, s)

end Environment

end Polyfill
