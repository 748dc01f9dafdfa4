import StakeLedger.Application.Basic

namespace StakeLedger.Application

open Engine

variable {σ : Type}

theorem fetchEntropy_run (app : Application σ) (height : Int64) (env : σ) :
    ∃ entropy, ((app.fetchEntropy height).run env).1 = { app with entropy } := by
  rw [fetchEntropy, StateT.run_bind]
  generalize StateT.run (OptionT.run _) env = answered
  obtain ⟨answer, env⟩ := answered
  rcases answer with _ | _ | ⟨code, log, _ | ⟨byte, value⟩, _⟩
  · exact ⟨app.entropy, rfl⟩
  · exact ⟨app.entropy, rfl⟩
  · exact ⟨app.entropy, rfl⟩
  · exact ⟨some (height, byte :: value), rfl⟩

theorem endBlock_run (app : Application σ) (request : EndBlockRequest) (env : σ) :
    ∃ entropy, ((app.endBlock request).run env).1 = { app with entropy }.settleBlock := by
  rw [endBlock]
  by_cases h : Entropy.isFetchHeight request.height app.entropyInterval
  · obtain ⟨entropy, he⟩ := fetchEntropy_run app request.height env
    rw [if_pos h]
    exact ⟨entropy, congrArg settleBlock he⟩
  · rw [if_neg h]
    exact ⟨app.entropy, rfl⟩

theorem applyDeltas_induction {P : State × List ValidatorUpdate → Prop} {state : State}
    {deltas : List StakeDelta} (h0 : P (state, [])) (hdelta : ∀ now, P now → ∀ d ∈ deltas,
      P ((now.1.applyDelta d).1, mergeUpdate now.2 (now.1.applyDelta d).2.update)) :
    P (applyDeltas state deltas) := by
  rw [applyDeltas]
  generalize (state, []) = now at h0 ⊢
  induction deltas generalizing now with
  | nil => exact h0
  | cons d ds ih =>
    rw [List.foldl_cons]
    apply ih
    · intro now hnow d hd
      exact hdelta now hnow d (List.mem_cons_of_mem _ hd)
    · exact hdelta now h0 d List.mem_cons_self

theorem resolveUpdates_fst (genesis : Genesis) (state : State) (deltas : List StakeDelta) :
    (resolveUpdates genesis state deltas).1 = (applyDeltas state deltas).1 := by
  rw [resolveUpdates]
  dsimp only
  split <;> rfl

theorem resolveUpdates_state (genesis : Genesis) (state : State) (deltas : List StakeDelta) :
    ∃ validators, (resolveUpdates genesis state deltas).1 = { state with validators } := by
  rw [resolveUpdates_fst]
  refine applyDeltas_induction (P := fun now => ∃ validators, now.1 = { state with validators }) ?_ ?_
  · exact ⟨state.validators, rfl⟩
  · rintro ⟨now, us⟩ ⟨validators, rfl⟩ d hd
    exact ⟨_, rfl⟩

theorem commit_cases (app : Application σ) (disk : Disk) :
    (app.commit disk).2.1 = { app with commitState := nextState app.commitState } ∨
      (app.commit disk).2.1 = app := by
  rw [commit]
  generalize (nextState app.commitState).save disk = saved
  obtain ⟨disk, _ | e⟩ := saved
  · exact .inl rfl
  · exact .inr rfl

end StakeLedger.Application
