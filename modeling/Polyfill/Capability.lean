/-!
# Capabilities

The parts of the environment that a host may already have.  Each stands for one global name or,
for timers, for a family of four; any name of the family stands for the whole.
-/

namespace Polyfill

/-- A part of the environment that is installed only if the host lacks it. -/
inductive Capability where
  | encodeUriComponent
  | decodeUriComponent
  | encodeUri
  | decodeUri
  | timers
  | worker
  | randomUuid
  | getRandomValues
  deriving DecidableEq, Repr

namespace Capability

/-- Every capability, in the order of installation. -/
def all : List Capability :=
  [encodeUriComponent, decodeUriComponent, encodeUri, decodeUri, timers, worker, randomUuid,
    getRandomValues]

/-- The global names that a capability stands for; the first is its own name. -/
def globalNames : Capability → List String
  | encodeUriComponent => ["encodeURIComponent"]
  | decodeUriComponent => ["decodeURIComponent"]
  | encodeUri => ["encodeURI"]
  | decodeUri => ["decodeURI"]
  | timers => ["setTimeout", "setInterval", "clearTimeout", "clearInterval"]
  | worker => ["Worker"]
  | randomUuid => ["crypto.randomUUID"]
  | getRandomValues => ["crypto.getRandomValues"]

/-- The name under which a capability is reported. -/
def globalName : Capability → String
  | encodeUriComponent => "encodeURIComponent"
  | decodeUriComponent => "decodeURIComponent"
  | encodeUri => "encodeURI"
  | decodeUri => "decodeURI"
  | timers => "setTimeout"
  | worker => "Worker"
  | randomUuid => "crypto.randomUUID"
  | getRandomValues => "crypto.getRandomValues"

/-- The name of a capability in a description of an environment. -/
def label : Capability → String
  | encodeUriComponent => "EncodeUriComponent"
  | decodeUriComponent => "DecodeUriComponent"
  | encodeUri => "EncodeUri"
  | decodeUri => "DecodeUri"
  | timers => "Timers"
  | worker => "Worker"
  | randomUuid => "RandomUuid"
  | getRandomValues => "GetRandomValues"

/-- The capability that a global name belongs to.  Names are compared exactly. -/
def ofGlobalName? (name : String) : Option Capability :=
  all.find? fun c => c.globalNames.contains name

/-- A capability's own name is the first of its names. -/
theorem head?_globalNames (c : Capability) : c.globalNames.head? = some c.globalName := by
  cases c <;> rfl

/-- The list of all capabilities leaves none out. -/
theorem mem_all (c : Capability) : c ∈ all := by
  cases c <;> decide

end Capability

end Polyfill
