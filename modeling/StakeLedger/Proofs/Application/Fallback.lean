import StakeLedger.Proofs.Application.Block
import StakeLedger.Proofs.Validator.Power

/-! When the validators of the genesis document come back. Main statement: `power_is_capped_sum`. -/

namespace StakeLedger

open Engine

namespace Application

theorem resolveUpdates_eq (g : Genesis) (state : State) (deltas : List StakeDelta) :
    let now := applyDeltas state deltas
    resolveUpdates g state deltas = (now.1,
      if ∃ v ∈ now.1.validators, 0 < v.stake then now.2 else mergeUpdates now.2 g.defaultUpdates) := by
  intro now
  have hpower : now.1.totalPower ≠ 0 ↔ ∃ v ∈ now.1.validators, 0 < v.stake := Roster.totalPower_ne_zero_iff
  by_cases htotal : now.1.totalPower = 0
  · rw [if_neg fun hsome => hpower.mpr hsome htotal]
    exact if_pos htotal
  · rw [if_pos (hpower.mp htotal)]
    exact if_neg htotal

end Application

namespace Roster

/-- The total is the exact sum of the stakes, one below zero counting as zero, stopped at the greatest word. So it is
the same in any order of the roster, the sum on the way never falls, and neither does the total when stakes grow, when
somebody is added, or by a delta that takes nothing away. It is zero exactly when nobody has a stake above zero, and
only then do the validators of the genesis document come back. -/
theorem power_is_capped_sum (roster : Roster) :
    roster.totalPower.toInt = min Int64.maxValue.toInt roster.exactPower ∧
      (∀ other : Roster, other.Perm roster → other.totalPower = roster.totalPower) ∧
      (∀ n, 0 ≤ totalPower (roster.take n) ∧ totalPower (roster.take n) ≤ roster.totalPower) ∧
      (∀ other, roster.Grows other → roster.totalPower ≤ other.totalPower) ∧
      (∀ delta : StakeDelta, 0 ≤ delta.amount → roster.totalPower ≤ (roster.apply delta).1.totalPower) ∧
      (roster.totalPower = 0 ↔ ∀ v ∈ roster, ¬ 0 < v.stake) ∧
      ∀ (g : Genesis) (state : State) (deltas : List StakeDelta),
        let now := Application.applyDeltas state deltas
        now.1.validators = roster → Application.resolveUpdates g state deltas = (now.1,
          if ∃ v ∈ roster, 0 < v.stake then now.2 else mergeUpdates now.2 g.defaultUpdates) := by
  refine ⟨toInt_totalPower roster, fun other hperm => ?_, fun n => ?_, fun other hgrows => ?_,
    fun delta hamount => ?_, totalPower_eq_zero_iff, ?_⟩
  · exact totalPower_perm hperm
  · have hgrows := grows_append (roster.take n) (roster.drop n)
    rw [List.take_append_drop] at hgrows
    exact ⟨totalPower_nonneg _, hgrows.totalPower_le⟩
  · exact hgrows.totalPower_le
  · exact (grows_apply hamount).totalPower_le
  · intro g state deltas now hroster
    rw [← hroster]
    exact Application.resolveUpdates_eq g state deltas

/-- The stakes above zero come to twice the greatest word and two, where a sum of words would be back at zero. -/
theorem power_past_greatest_word :
    let v (address : String) (stake : Int64) : Validator := ⟨none, address, [], stake⟩
    let front : Roster := [v "a" Int64.maxValue, v "b" Int64.minValue, v "c" Int64.maxValue]
    let roster : Roster := front ++ [v "d" 2]
    let turned : Roster := v "d" 2 :: front
    let larger : Roster := front ++ [v "e" 7, v "d" 3]
    let state : State := { State.empty .commit with validators := front ++ [v "d" 0] }
    let delta : StakeDelta := ⟨"d", [], 2⟩
    let now := Application.applyDeltas state [delta]
    (turned.Perm roster ∧ turned.totalPower = roster.totalPower) ∧
      (roster.Grows larger ∧ roster.totalPower ≤ larger.totalPower) ∧
      (0 ≤ delta.amount ∧ roster.totalPower ≤ (roster.apply delta).1.totalPower) ∧
      (roster.exactPower = 2 * Int64.maxValue.toInt + 2 ∧ roster.totalPower = Int64.maxValue) ∧
      now.1.validators = roster ∧ Application.resolveUpdates .default state [delta] = now := by
  intro v front roster turned larger state delta now
  obtain ⟨hsum, hperm, -, hgrows, hdelta, -, hresolve⟩ := power_is_capped_sum roster
  have hturned : turned.Perm roster := @List.perm_append_comm _ [v "d" 2] front
  have hlarger : roster.Grows larger := Grows.append_left front (.cons_right (.cons (by decide) .nil))
  have hexact : roster.exactPower = 2 * Int64.maxValue.toInt + 2 := by decide
  have hnow : now.1.validators = roster := by decide
  refine ⟨⟨hturned, hperm turned hturned⟩, ⟨hlarger, hgrows larger hlarger⟩,
    ⟨by decide, hdelta delta (by decide)⟩, ⟨hexact, ?_⟩, hnow, ?_⟩
  · rw [← Int64.toInt_inj, hsum, hexact]
    decide
  · have hsome : ∃ v ∈ roster, 0 < v.stake := ⟨v "d" 2, by decide, by decide⟩
    have h := hresolve .default state [delta] hnow
    rwa [if_pos hsome] at h

end Roster

end StakeLedger
