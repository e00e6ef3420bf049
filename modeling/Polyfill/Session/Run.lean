import Polyfill.Session.Progress
/-!
# Running a session

A session is run by letting its machine move until it comes to rest.  What it reports is read off
the history it leaves.
-/

namespace Polyfill.Session

/-- The machine at rest that a machine comes to. -/
def Machine.finish (m : Machine) : Machine :=
  match _h : m.next with
  | none => m
  | some m' => m'.finish
termination_by m.weight
decreasing_by exact Machine.weight_next (by assumption)

/-- The history of a whole session. -/
def history (entropy : Entropy) (script : List Step) : List Event :=
  (Machine.start entropy script).finish.world.history

/-- Runs a session and reports on each of its steps. -/
def run (entropy : Entropy) (messages : Bool) (script : List Step) : List Report :=
  reports messages (history entropy script)

/-- Installs an environment and calls one of its functions: what the call comes to, and the log. -/
def runCall (entropy : Entropy) (messages : Bool) (host : Option String) (ops : OpTable)
    (call : Except Complaint Call) : Answer × List Line :=
  match Host.parse (host.getD "") with
  | .error e => (Answer.fault e, [])
  | .ok host =>
    let (outcome, scene) := (Environment.install host ops).perform ⟨entropy, []⟩
    let (answer, scene) : Answer × Scene :=
      match outcome, call with
      | .error e, _ => (Answer.fault e, scene)
      | .ok _, .error complaint => (Answer.complaint complaint, scene)
      | .ok env, .ok call =>
        let (outcome, scene) := (call.perform env).perform scene
        (Answer.ofOutcome outcome, scene)
    (answer, scene.notes.filterMap (noteLine? messages))

end Polyfill.Session
