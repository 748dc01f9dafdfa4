import StakeLedger.Application.Callback
import StakeLedger.Proofs.Application.Block

namespace StakeLedger.Callback

open Engine

variable {σ ε α β : Type} {env : σ} {host host' : Host σ} {app app' : Application σ}

def Leaves (m : Session σ (β × Application σ)) (P : Application σ → Prop) : Prop :=
  ∀ env y app, (m.run.run env).1 = some (y, app) → P app

theorem leaves_pure {y : β} {P : Application σ → Prop} (h : P app) :
    Leaves (σ := σ) (pure (y, app)) P := by
  intro env _ _ hm
  cases hm
  exact h

theorem leaves_bind {m : Session σ α} {f : α → Session σ (β × Application σ)} {P : Application σ → Prop}
    (h : ∀ x, Leaves (f x) P) : Leaves (m >>= f) P := by
  intro env y app hm
  rw [OptionT.run_bind, Option.elimM, StateT.run_bind] at hm
  generalize StateT.run (OptionT.run m) env = asked at hm
  obtain ⟨_ | x, env⟩ := asked
  · cases hm
  · exact h x env y app hm

theorem ask_run {request : Except ε α} {answer : Codec β} {f : α → Session σ (β × Application σ)}
    {P : Application σ → Prop} (h : ∀ x, Leaves (f x) P) {a : Except (Refusal ε) Json}
    (hm : ((ask request answer host f).run.run env).1 = some (a, host')) :
    host' = host ∨ host'.2 = host.2 ∧ P host'.1 := by
  cases request with
  | error e =>
    cases hm
    exact .inl rfl
  | ok x =>
    refine .inr ?_
    rw [ask] at hm
    dsimp only at hm
    rw [OptionT.run_bind, Option.elimM, StateT.run_bind] at hm
    generalize hasked : StateT.run (OptionT.run (f x)) env = asked at hm
    obtain ⟨_ | ⟨y, app⟩, env'⟩ := asked
    · cases hm
    · cases hm
      exact ⟨rfl, h x env y app (congrArg Prod.fst hasked)⟩

structure Kept (app app' : Application σ) : Prop where
  genesis : app'.genesis = app.genesis
  commitState : app'.commitState = app.commitState

theorem Kept.refl (app : Application σ) : Kept app app := ⟨rfl, rfl⟩

theorem kept_deliverTx (app : Application σ) (request : DeliverTxRequest) :
    Kept app (app.deliverTx request).2 := by
  rw [Application.deliverTx]
  cases Transaction.decode request.tx with
  | error e => exact .refl app
  | ok tx => exact ⟨rfl, rfl⟩

theorem perform_kept {call : Callback} (hcall : call ≠ .commit) (hend : call ≠ .endBlock)
    {read : {α : Type} → Codec α → Except ε α} {a : Except (Refusal ε) Json}
    (hm : ((perform call read host).run.run env).1 = some (a, host')) :
    host'.2 = host.2 ∧ Kept host.1 host'.1 := by
  have hask : host' = host ∨ host'.2 = host.2 ∧ Kept host.1 host'.1 := by
    cases call with
    | info => exact ask_run (fun r => leaves_pure (.refl _)) hm
    | initChain => exact ask_run (fun r => leaves_pure (.refl _)) hm
    | query => exact ask_run (fun r => leaves_bind fun _ => leaves_pure (.refl _)) hm
    | checkTx => exact ask_run (fun r => leaves_pure (.refl _)) hm
    | beginBlock => exact ask_run (fun r => leaves_pure (.refl _)) hm
    | deliverTx => exact ask_run (fun r => leaves_pure (kept_deliverTx host.1 r)) hm
    | endBlock => exact absurd rfl hend
    | commit => exact absurd rfl hcall
    | listSnapshots =>
      cases hm
      exact .inl rfl
    | offerSnapshot => exact ask_run (fun r => leaves_pure (.refl _)) hm
    | loadSnapshotChunk => exact ask_run (fun r => leaves_pure (.refl _)) hm
    | applySnapshotChunk => exact ask_run (fun r => leaves_pure (.refl _)) hm
  rcases hask with rfl | h
  · exact ⟨rfl, .refl _⟩
  · exact h

structure Settled (app app' : Application σ) : Prop where
  genesis : app'.genesis = app.genesis
  commitState : app'.commitState = app.commitState ∨
    ∃ deltas, app'.commitState = (Application.resolveUpdates app.genesis app.commitState deltas).1

theorem Kept.settled (h : Kept app app') : Settled app app' := ⟨h.genesis, .inl h.commitState⟩

theorem Settled.state (h : Settled app app') :
    ∃ validators, app'.commitState = { app.commitState with validators } := by
  rcases h.commitState with hs | ⟨deltas, hs⟩
  · exact ⟨app.commitState.validators, hs⟩
  · rw [hs]
    exact Application.resolveUpdates_state _ _ _

theorem Settled.staking (h : Settled app app') : app'.commitState.staking = app.commitState.staking := by
  obtain ⟨validators, hs⟩ := h.state
  rw [hs]

theorem settled_endBlock (app : Application σ) (request : EndBlockRequest) (env : σ) :
    Settled app ((app.endBlock request).run env).1.2 := by
  obtain ⟨entropy, he⟩ := app.endBlock_run request env
  rw [he]
  exact ⟨rfl, .inr ⟨app.staking.drain.1, rfl⟩⟩

theorem perform_run {call : Callback} (hcall : call ≠ .commit)
    {read : {α : Type} → Codec α → Except ε α} {a : Except (Refusal ε) Json}
    (hm : ((perform call read host).run.run env).1 = some (a, host')) :
    host'.2 = host.2 ∧ Settled host.1 host'.1 := by
  by_cases hend : call = .endBlock
  · subst hend
    have hended : host' = host ∨ host'.2 = host.2 ∧ Settled host.1 host'.1 := by
      refine ask_run (fun r env y app h => ?_) hm
      have hended : ((host.1.endBlock r).run env).1 = (y, app) := Option.some.inj h
      have hsettled := settled_endBlock host.1 r env
      rwa [hended] at hsettled
    rcases hended with rfl | h
    · exact ⟨rfl, (Kept.refl _).settled⟩
    · exact h
  · obtain ⟨hdisk, hkept⟩ := perform_kept hcall hend hm
    exact ⟨hdisk, hkept.settled⟩

end StakeLedger.Callback
