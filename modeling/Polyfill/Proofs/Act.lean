import Mathlib.Tactic.Common
import Polyfill.Act
/-!
# What acts come to

The outcome of an act made of several, part by part, and the outcome of the acts that are made of
no others.
-/

namespace Polyfill

namespace Act

variable {α β : Type}

@[simp] lemma perform_ofExcept (outcome : Except Error α) (s : Scene) :
    (ofExcept outcome).perform s = (outcome, s) := rfl

/-- An act goes on from where its first part has come to, unless that has failed. -/
lemma perform_bind (act : Act α) (next : α → Act β) (s : Scene) :
    (act >>= next).perform s =
      match act.perform s with
      | (.ok a, s) => (next a).perform s
      | (.error e, s) => (.error e, s) := by
  simp only [perform, bind, ExceptT.bind, ExceptT.mk, ExceptT.run, StateT.bind]
  rcases act s with ⟨outcome, s'⟩
  cases outcome <;> rfl

end Act

/-- A call of an op is noted, and comes to what the table answers. -/
lemma OpTable.perform_call (t : OpTable) (op : TextOp) (s : Scene) :
    (t.call op).perform s = ((t.answer (t.resolve op) s.entropy).1,
      ⟨(t.answer (t.resolve op) s.entropy).2,
        s.notes ++ [.op t.recorded (.text (t.resolve op))]⟩) := rfl

end Polyfill
