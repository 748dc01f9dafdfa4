import Mathlib.Algebra.BigOperators.Group.List.Basic
import Mathlib.Algebra.Ring.Int.Defs
import Mathlib.Data.List.Forall2
import StakeLedger.Proofs.Validator.Roster

/-! The sum of all voting power. No summand is negative, so stopping at the greatest word on the way comes to the same
as stopping there once, at the end. -/

namespace StakeLedger.Roster

variable {roster other : Roster} {delta : StakeDelta}

def exactPower (roster : Roster) : Int := (roster.map fun v => max 0 v.stake.toInt).sum

/-- The same validators in the same order, each with at least its stake, and others anywhere between them. -/
def Grows (roster other : Roster) : Prop := List.SublistForall₂ (fun v w => v.stake ≤ w.stake) roster other

theorem exactPower_cons (v : Validator) (roster : Roster) :
    exactPower (v :: roster) = max 0 v.stake.toInt + roster.exactPower := List.sum_cons

theorem exactPower_nonneg (roster : Roster) : 0 ≤ roster.exactPower := by
  induction roster with
  | nil => exact Int.le_refl 0
  | cons v rest ih =>
    rw [exactPower_cons]
    omega

theorem exactPower_perm (h : other.Perm roster) : other.exactPower = roster.exactPower :=
  (h.map _).sum_eq

theorem Grows.exactPower_le (h : roster.Grows other) : roster.exactPower ≤ other.exactPower := by
  induction h with
  | nil => exact exactPower_nonneg _
  | cons hstake _ ih =>
    rw [Int64.le_iff_toInt_le] at hstake
    rw [exactPower_cons, exactPower_cons]
    omega
  | cons_right _ ih =>
    rw [exactPower_cons]
    omega

theorem Grows.append_left (front : Roster) (h : roster.Grows other) : Grows (front ++ roster) (front ++ other) := by
  induction front with
  | nil => exact h
  | cons v front ih => exact .cons (Int64.le_refl v.stake) ih

theorem grows_append (front back : Roster) : front.Grows (front ++ back) := by
  have hnil : Grows [] back := .nil
  have h := hnil.append_left front
  rwa [List.append_nil] at h

theorem grows_apply (h : 0 ≤ delta.amount) : roster.Grows (roster.apply delta).1 := by
  rcases apply_cases roster delta with ⟨front, v, back, rfl, -, -, happly⟩ | ⟨-, happly⟩
  · have hstake : v.stake ≤ (v.adjust delta.amount).stake := by
      have hle := v.stake.toInt_le
      rw [Int64.le_iff_toInt_le, Int64.toInt_zero] at h
      rw [Int64.le_iff_toInt_le, Validator.toInt_stake_adjust]
      omega
    have hback : Grows back back := by simpa using grows_append back []
    rw [happly]
    exact Grows.append_left front (.cons hstake hback)
  · rw [happly]
    exact grows_append roster [delta.joined]

theorem exactPower_eq_zero_iff : roster.exactPower = 0 ↔ ∀ v ∈ roster, ¬ 0 < v.stake := by
  induction roster with
  | nil => exact ⟨fun _ => nofun, fun _ => rfl⟩
  | cons v rest ih =>
    have hrest := exactPower_nonneg rest
    rw [exactPower_cons, List.forall_mem_cons, ← ih, Int64.lt_iff_toInt_lt, Int64.toInt_zero]
    omega

theorem toInt_foldl_power (roster : Roster) (sum : Int64) (hs : 0 ≤ sum.toInt) :
    (roster.foldl (fun sum v => Saturating.add sum v.votingPower) sum).toInt =
      min Int64.maxValue.toInt (sum.toInt + roster.exactPower) := by
  induction roster generalizing sum with
  | nil =>
    have hsum : sum.toInt + exactPower [] = sum.toInt := Int.add_zero _
    rw [hsum, Int.min_eq_right sum.toInt_le]
    rfl
  | cons v rest ih =>
    have hle := sum.toInt_le
    have hrest := exactPower_nonneg rest
    have hadd : (Saturating.add sum v.votingPower).toInt =
        min Int64.maxValue.toInt (sum.toInt + max 0 v.stake.toInt) := by
      rw [Saturating.toInt_add, Validator.toInt_votingPower, Saturating.least, Saturating.greatest,
        Int64.toInt_maxValue]
      omega
    rw [List.foldl_cons, ih _ (by omega), hadd, exactPower_cons]
    -- Once the sum has stopped at the greatest word, nothing that follows takes it away from there.
    omega

theorem toInt_totalPower (roster : Roster) :
    roster.totalPower.toInt = min Int64.maxValue.toInt roster.exactPower := by
  rw [totalPower, toInt_foldl_power roster 0 (Int.le_refl 0), Int64.toInt_zero, Int.zero_add]

theorem totalPower_nonneg (roster : Roster) : 0 ≤ roster.totalPower := by
  have hexact := exactPower_nonneg roster
  rw [Int64.le_iff_toInt_le, toInt_totalPower, Int64.toInt_maxValue, Int64.toInt_zero]
  omega

theorem totalPower_perm (h : other.Perm roster) : other.totalPower = roster.totalPower := by
  rw [← Int64.toInt_inj, toInt_totalPower, toInt_totalPower, exactPower_perm h]

theorem Grows.totalPower_le (h : roster.Grows other) : roster.totalPower ≤ other.totalPower := by
  have hexact := h.exactPower_le
  rw [Int64.le_iff_toInt_le, toInt_totalPower, toInt_totalPower]
  omega

theorem totalPower_eq_zero_iff : roster.totalPower = 0 ↔ ∀ v ∈ roster, ¬ 0 < v.stake := by
  rw [← exactPower_eq_zero_iff, ← Int64.toInt_inj, toInt_totalPower, Int64.toInt_maxValue, Int64.toInt_zero]
  omega

theorem totalPower_ne_zero_iff : roster.totalPower ≠ 0 ↔ ∃ v ∈ roster, 0 < v.stake := by
  rw [ne_eq, totalPower_eq_zero_iff]
  simp only [not_forall, not_not, exists_prop]

end StakeLedger.Roster
