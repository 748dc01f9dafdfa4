import Mathlib.Algebra.Ring.Int.Defs
import Mathlib.Data.List.Forall2
import StakeLedger.Proofs.Validator.Roster

/-!
The stake that a list of changes leaves. As long as it stays below the greatest word, what was withdrawn beyond the
balance is forgiven and all that follows counts in full. Main statement: `stake_of_changes`.
-/

namespace StakeLedger.Validator

variable {v w : Validator} {amount other : Int64} {amounts others : List Int64}

def adjustAll (v : Validator) (amounts : List Int64) : Validator := amounts.foldl adjust v

def total (amounts : List Int64) : Int := (amounts.map Int64.toInt).sum

def Fits (v : Validator) : List Int64 → Prop
  | [] => True
  | amount :: rest =>
    v.stake.toInt + amount.toInt ≤ Int64.maxValue.toInt ∧ (v.adjust amount).Fits rest

theorem total_cons (amount : Int64) (amounts : List Int64) :
    total (amount :: amounts) = amount.toInt + total amounts := by
  simp [total]

theorem stake_adjustAll (h : v.Fits amounts) : (v.adjustAll amounts).stake.toInt =
    (amounts.tails.tail.map total).foldl max (v.stake.toInt + total amounts) := by
  induction amounts generalizing v with
  | nil => simp [adjustAll, total]
  | cons amount rest ih =>
    obtain ⟨hfirst, hrest⟩ := h
    have hstep : (v.adjust amount).stake.toInt = max (v.stake.toInt + amount.toInt) 0 := by
      rw [toInt_stake_adjust]
      omega
    -- The first change joins two of the balances into one: that of the start, and that of a start at zero after it.
    have hstart : max (v.stake.toInt + total (amount :: rest)) (total rest) =
        (v.adjust amount).stake.toInt + total rest := by
      rw [hstep, total_cons]
      omega
    change ((v.adjust amount).adjustAll rest).stake.toInt = (rest.tails.map total).foldl max _
    rw [ih hrest, ← hstart]
    cases rest <;> rfl

theorem stake_adjust_mono (hv : v.stake ≤ w.stake) (ha : amount ≤ other) :
    (v.adjust amount).stake ≤ (w.adjust other).stake := by
  rw [Int64.le_iff_toInt_le] at hv ha ⊢
  rw [toInt_stake_adjust, toInt_stake_adjust]
  omega

theorem stake_adjustAll_mono (hv : v.stake ≤ w.stake) (ha : List.Forall₂ (· ≤ ·) amounts others) :
    (v.adjustAll amounts).stake ≤ (w.adjustAll others).stake := by
  induction ha generalizing v w with
  | nil => exact hv
  | cons hfirst _ ih =>
    apply ih
    exact stake_adjust_mono hv hfirst

theorem stake_adjust_near (v w : Validator) (amount : Int64) :
    ((v.adjust amount).stake.toInt - (w.adjust amount).stake.toInt).natAbs ≤
      (v.stake.toInt - w.stake.toInt).natAbs := by
  rw [toInt_stake_adjust, toInt_stake_adjust]
  omega

theorem stake_adjustAll_near (v w : Validator) (amounts : List Int64) :
    ((v.adjustAll amounts).stake.toInt - (w.adjustAll amounts).stake.toInt).natAbs ≤
      (v.stake.toInt - w.stake.toInt).natAbs := by
  induction amounts generalizing v w with
  | nil => exact Nat.le_refl _
  | cons amount rest ih =>
    apply Nat.le_trans
    · exact ih (v.adjust amount) (w.adjust amount)
    · exact stake_adjust_near v w amount

/-- Every change counts exactly up to the two ends, whatever the stake was before it. Where the upper end is not met,
the stake after all of them is the greatest of the exact balance and of the sums of what follows each change. It grows
with the stake at the start and with each change, and two stakes come no further apart. -/
theorem stake_of_changes (v : Validator) (amounts : List Int64) :
    (∀ amount, (v.adjust amount).stake.toInt =
      max 0 (min Int64.maxValue.toInt (v.stake.toInt + amount.toInt))) ∧
    (v.Fits amounts → (v.adjustAll amounts).stake.toInt =
      (amounts.tails.tail.map total).foldl max (v.stake.toInt + total amounts)) ∧
    (∀ (w : Validator) others, v.stake ≤ w.stake → List.Forall₂ (· ≤ ·) amounts others →
      (v.adjustAll amounts).stake ≤ (w.adjustAll others).stake) ∧
    ∀ w : Validator, ((v.adjustAll amounts).stake.toInt - (w.adjustAll amounts).stake.toInt).natAbs ≤
      (v.stake.toInt - w.stake.toInt).natAbs := by
  refine ⟨toInt_stake_adjust v, fun hfits => ?_, fun w others hv ha => ?_, fun w => ?_⟩
  · exact stake_adjustAll hfits
  · exact stake_adjustAll_mono hv ha
  · exact stake_adjustAll_near v w amounts

/-- Two of the nine withdrawn were not there. -/
theorem stake_of_changes_past_zero :
    let v : Validator := ⟨none, "", [], 2⟩
    let amounts : List Int64 := [5, -9, 3, 4]
    v.Fits amounts ∧ v.stake.toInt + total amounts = 5 ∧ (v.adjustAll amounts).stake.toInt = 7 := by
  intro v amounts
  have hfits : v.Fits amounts := ⟨by decide, by decide, by decide, by decide, trivial⟩
  obtain ⟨-, hclosed, -, -⟩ := stake_of_changes v amounts
  refine ⟨hfits, by decide, ?_⟩
  rw [hclosed hfits]
  decide

end StakeLedger.Validator
