import Polyfill.Op
/-!
# Acts

A computation of the library may fail, may use up randomness, and leaves notes of what it did: the
ops it called and the messages it logged, in order.  Nothing else of the world changes in an act.
-/

namespace Polyfill

/-- Something worth noting. -/
inductive Note where
  /-- An op was called; `recorded` tells whether a log shows it. -/
  | op (recorded : Bool) (call : Op)
  | debug (text : String)
  | trace (text : String)
  deriving DecidableEq, Repr

/-- What an act reads and leaves behind. -/
structure Scene where
  entropy : Entropy
  notes : List Note

/-- A computation with failure, randomness and notes. -/
abbrev Act := ExceptT Error (StateM Scene)

namespace Act

/-- The outcome of an act and the scene after it. -/
def perform {α : Type} (act : Act α) (s : Scene) : Except Error α × Scene :=
  act.run s

/-- A message for those who debug. -/
def debug (text : String) : Act Unit :=
  fun s => (.ok (), { s with notes := s.notes ++ [.debug text] })

/-- An outcome that is known already. -/
def ofExcept {α : Type} (outcome : Except Error α) : Act α :=
  fun s => (outcome, s)

end Act

namespace OpTable

/-- Calls an op for a text. -/
def call (t : OpTable) (op : TextOp) : Act String := fun s =>
  let op := t.resolve op
  let (outcome, rest) := t.answer op s.entropy
  (outcome, { entropy := rest, notes := s.notes ++ [.op t.recorded (.text op)] })

/-- Calls the op that draws a number. -/
def drawScalar (t : OpTable) : Act Float := fun s =>
  let (outcome, rest) := t.scalar s.entropy
  (outcome, { entropy := rest, notes := s.notes ++ [.op t.recorded .randomScalar] })

end OpTable

end Polyfill
