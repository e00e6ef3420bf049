import Polyfill.Error
import Polyfill.Text.Blank
/-!
# Hosts

A host is known by the capabilities it provides.  It can be given as a list of global names
separated by commas: blanks around a name and empty names do not matter, and one unknown name
spoils the list.
-/

namespace Polyfill

/-- A host, by what it provides. -/
@[ext]
structure Host where
  provides : Capability → Bool

namespace Host

/-- The host that provides nothing. -/
def none : Host :=
  ⟨fun _ => false⟩

/-- The host that provides everything. -/
def all : Host :=
  ⟨fun _ => true⟩

/-- A host that provides one capability more. -/
def insert (h : Host) (c : Capability) : Host :=
  ⟨fun d => d == c || h.provides d⟩

/-- A host that provides what either of two does. -/
def union (h k : Host) : Host :=
  ⟨fun c => h.provides c || k.provides c⟩

/-- The capabilities provided, in the order of installation. -/
def provided (h : Host) : List Capability :=
  Capability.all.filter h.provides

/-- The capabilities lacking, in the order of installation. -/
def lacking (h : Host) : List Capability :=
  Capability.all.filter fun c => !h.provides c

/-- How many capabilities are provided. -/
def size (h : Host) : Nat :=
  h.provided.length

/-- Whether two hosts provide the same. -/
def same (h k : Host) : Bool :=
  Capability.all.all fun c => h.provides c == k.provides c

/-- The capability with a global name. -/
def capability (name : String) : Except Error Capability :=
  match Capability.ofGlobalName? name with
  | some c => .ok c
  | .none => .error .invalidArgument

/-- The names in a list: its pieces between commas, trimmed, without the empty ones. -/
def names (list : String) : List String :=
  (((Text.splitOn ',' list.toList).map Text.trim).filter fun piece => !piece.isEmpty).map
    String.ofList

/-- A host with the capabilities of some names, added from the left. -/
def insertNames (h : Host) : List String → Except Error Host
  | [] => .ok h
  | name :: rest =>
    match capability name with
    | .ok c => (h.insert c).insertNames rest
    | .error e => .error e

/-- The host that a list of names describes. -/
def parse (list : String) : Except Error Host :=
  none.insertNames (names list)

end Host

end Polyfill
