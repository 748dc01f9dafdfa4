import Mathlib.Logic.Relation
import StakeLedger.Proofs.Application.Callback
import StakeLedger.Proofs.Disk.Attempt

/-!
An application and the disk it saves to, over crashes and restarts. Nothing but commits writes to the
disk, and each of their actions may fail or be the last before a crash.
-/

namespace StakeLedger

open Disk

inductive State.Saves (s : State) (d : Disk) : Disk → Option StateError → Prop
  | unbound (h : s.path = none) : Saves s d d (some (.unbound s.name))
  | bound {path : Path} {e : Disk} {fault : Option Disk.Fault} (h : s.path = some path)
      (performs : Performs (saveActions path s) d e fault) : Saves s d e (fault.map (.io path ·))

theorem State.saves_save (s : State) (d : Disk) : s.Saves d (s.save d).1 (s.save d).2 := by
  rw [save]
  cases h : s.path with
  | none => exact .unbound h
  | some path =>
    have hperforms := performs_performAll (saveActions path s) d
    dsimp only
    generalize d.performAll (saveActions path s) = done at hperforms ⊢
    exact .bound h hperforms

structure Site (σ : Type) where
  disk : Disk
  /-- None while no process runs. -/
  app : Option (Application σ)
  renamed : List State := []

namespace Site

variable {σ : Type}

def rename (s : Site σ) (next : State) (failure : Option StateError) : List State :=
  if failure = none then next :: s.renamed else s.renamed

/-- After a commit on a disk that fails only for its own reasons. -/
def committed (s : Site σ) (app : Application σ) : Site σ :=
  ⟨(app.commit s.disk).2.2, some (app.commit s.disk).2.1,
    s.rename (Application.nextState app.commitState) ((Application.nextState app.commitState).save s.disk).2⟩

inductive Step (store : Store) (allowed : Genesis → Prop) (s : Site σ) : Site σ → Prop
  | call {app app' : Application σ} {disk : Disk} {ε : Type} (call : Callback) (other : call ≠ .commit)
      (read : {α : Type} → Codec α → Except ε α) (env : σ) (answer : Except (Callback.Refusal ε) Json)
      (running : s.app = some app)
      (answered : ((call.perform read (app, s.disk)).run.run env).1 = some (answer, app', disk)) :
      Step store allowed s { s with disk, app := some app' }
  | work {app : Application σ} (staking : Staking.Pipeline) (running : s.app = some app) :
      Step store allowed s { s with app := some { app with staking } }
  | commit {app : Application σ} {disk : Disk} {failure : Option StateError} (running : s.app = some app)
      (saves : (Application.nextState app.commitState).Saves s.disk disk failure) :
      Step store allowed s
        ⟨disk, some (app.conclude failure).2, s.rename (Application.nextState app.commitState) failure⟩
  /-- The process ends during a commit, before it could conclude. -/
  | crash {app : Application σ} {disk : Disk} {failure : Option StateError} (running : s.app = some app)
      (saves : (Application.nextState app.commitState).Saves s.disk disk failure) :
      Step store allowed s ⟨disk, none, s.rename (Application.nextState app.commitState) failure⟩
  | stop : Step store allowed s { s with app := none }
  | start {app : Application σ} (genesis : Genesis) (isAllowed : allowed genesis) (interval : UInt64)
      (staking : Staking.Pipeline) (router : Query.Router σ) (effects : Effects) (down : s.app = none)
      (loaded : Application.new genesis store s.disk interval staking router effects = .ok app) :
      Step store allowed s { s with app := some app }

variable {store : Store} {allowed more : Genesis → Prop} {s s' : Site σ} {app : Application σ}

theorem step_committed (h : s.app = some app) : Step store allowed s (s.committed app) := by
  have hsaves := (Application.nextState app.commitState).saves_save s.disk
  have hstep : Step store allowed s _ := .commit h hsaves
  rw [committed, Application.commit]
  exact hstep

theorem Step.mono (h : ∀ g, allowed g → more g) (hs : Step store allowed s s') : Step store more s s' := by
  cases hs with
  | call call other read env answer running answered => exact .call call other read env answer running answered
  | work staking running => exact .work staking running
  | commit running saves => exact .commit running saves
  | crash running saves => exact .crash running saves
  | stop => exact .stop
  | start genesis isAllowed interval staking router effects down loaded =>
    exact .start genesis (h genesis isAllowed) interval staking router effects down loaded

abbrev Run (store : Store) (allowed : Genesis → Prop) : Site σ → Site σ → Prop :=
  Relation.ReflTransGen (Step store allowed)

theorem Run.mono (h : ∀ g, allowed g → more g) (hr : Run store allowed s s') : Run store more s s' := by
  induction hr with
  | refl => exact .refl
  | tail _ hstep ih => exact ih.tail (hstep.mono h)

end Site

namespace Application

variable {σ : Type} {genesis : Genesis} {store : Store} {disk : Disk} {interval : UInt64}
  {staking : Staking.Pipeline} {router : Query.Router σ} {effects : Effects} {app : Application σ}

theorem new_eq_ok (h : new genesis store disk interval staking router effects = .ok app) :
    app.genesis = genesis ∧ store.load disk .commit genesis = .ok app.commitState := by
  obtain ⟨check, -, hrest⟩ := bind_eq_ok.mp h
  obtain ⟨deliver, -, hrest⟩ := bind_eq_ok.mp hrest
  obtain ⟨commit, hcommit, he⟩ := bind_eq_ok.mp hrest
  cases he
  exact ⟨rfl, hcommit⟩

end Application

end StakeLedger
