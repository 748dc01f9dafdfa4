import StakeLedger.Launch

/-!
A node in rehearsal, served on a network where nobody answers. No request arrives there unless the node
is said to be reachable.
-/

namespace StakeLedger.Rehearsal

def alone {α : Type} (session : Session Unit α) : Option α := (session ()).1

structure Serving where
  run : Run Unit
  reachable : Bool := false

namespace Serving

def ofNode (node : Node Unit) (disk : Disk) : Serving := { run := .ofNode node disk }

/-- A request is lost where none arrives, and once no new connections are taken. -/
def request (serving : Serving) (r : Http.Request) : Option Http.Response × Serving :=
  let arrived := if serving.reachable && !serving.run.isEnding then
    alone (serving.run.steps [.request r]) else none
  match arrived with
  | some run => (run.responses.head?, { serving with run })
  | none => (none, serving)

/-- What the run comes back with, if it does. Where the address is taken nothing is served. -/
def outcome (serving : Serving) (told taken : Bool) : Option (Except Run.Error Unit) := do
  let run ← if told then alone (serving.run.steps [.stop]) else some serving.run
  if taken then some (.error .io) else if run.isEnding then some run.close.outcome else none

end Serving

end StakeLedger.Rehearsal
