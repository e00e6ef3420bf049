import Polyfill.Capability
/-!
# Errors

Why an operation of the library fails, and the text that says so.  A cause carries what its text
needs; the wording of all of them is in `Error.message`.
-/

namespace Polyfill

/-- Why a coded text cannot be read. -/
inductive DecodeFault where
  | base64
  | hex
  | notUtf8
  /-- A `%` that starts no escape, at a byte offset. -/
  | escape (offset : Nat)
  | other (text : String)
  deriving DecidableEq, Repr

/-- What went wrong inside. -/
inductive InternalFault where
  | malformedRandomBytes
  | randomByteCount (expected got : Nat)
  | other (text : String)
  deriving DecidableEq, Repr

/-- What is wrong with a command line. -/
inductive UsageFault where
  | missingKey
  | unknownCodec
  | unknownAction
  | other (text : String)
  deriving DecidableEq, Repr

/-- Why an operation fails. -/
inductive Error where
  | internal (fault : InternalFault)
  /-- No such algorithm; the name is the one given. -/
  | unsupportedAlgorithm (name : String)
  | workerTerminated
  | decode (fault : DecodeFault)
  | providedByHost (capability : Capability)
  /-- An op of the host failed, with a text of its own. -/
  | host (text : String)
  | io
  | utf8
  | invalidArgument
  | usage (fault : UsageFault)
  deriving DecidableEq, Repr

/-- The text of a decoding fault. -/
def DecodeFault.message : DecodeFault → String
  | base64 => "base64: Invalid input for the given encoding"
  | hex => "hex: Invalid input for the given encoding"
  | notUtf8 => "decoded data is not UTF-8"
  | escape offset => "malformed escape sequence at offset " ++ toString offset
  | other text => text

/-- The text of an internal fault. -/
def InternalFault.message : InternalFault → String
  | malformedRandomBytes => "malformed random bytes"
  | randomByteCount expected got =>
    "expected " ++ toString expected ++ " random bytes, got " ++ toString got
  | other text => text

/-- The text of a usage fault. -/
def UsageFault.message : UsageFault → String
  | missingKey => "Missing HMAC key"
  | unknownCodec => "Unknown codec"
  | unknownAction => "Unknown action"
  | other text => text

/-- The text of an error. -/
def Error.message : Error → String
  | internal fault => "Internal error: [" ++ fault.message ++ "]"
  | unsupportedAlgorithm name => "Unsupported algorithm: " ++ name
  | workerTerminated => "Worker has been terminated"
  | decode fault => "Decode error: " ++ fault.message
  | providedByHost capability => "[" ++ capability.globalName ++ "] is provided by the host"
  | host text => "Host op error: " ++ text
  | io => "I/O error"
  | utf8 => "UTF-8 error"
  | invalidArgument => "Invalid argument"
  | usage fault => "Usage error: " ++ fault.message

end Polyfill
