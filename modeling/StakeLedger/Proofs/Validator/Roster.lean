import StakeLedger.Proofs.Keyed
import StakeLedger.Validator.Roster

namespace StakeLedger

theorem toInt_max (a b : Int64) : (max a b).toInt = max a.toInt b.toInt := by
  change (if a ≤ b then b else a).toInt = _
  split
  · next h => rw [Int.max_eq_right (Int64.le_iff_toInt_le.mp h)]
  · next h =>
    rw [Int64.le_iff_toInt_le] at h
    omega

namespace Validator

theorem toInt_votingPower (v : Validator) : v.votingPower.toInt = max v.stake.toInt 0 :=
  toInt_max v.stake 0

theorem toInt_stake_adjust (v : Validator) (amount : Int64) :
    (v.adjust amount).stake.toInt = max 0 (min Int64.maxValue.toInt (v.stake.toInt + amount.toInt)) := by
  change (max (Saturating.add v.stake amount) 0).toInt = _
  rw [toInt_max, Saturating.toInt_add, Saturating.least, Saturating.greatest, Int64.toInt_maxValue, Int64.toInt_zero]
  omega

theorem address_adjust (v : Validator) (delta : Int64) : (v.adjust delta).address = v.address := by
  rw [adjust]

theorem adjust_nonneg (v : Validator) (delta : Int64) : 0 ≤ (v.adjust delta).stake.toInt := by
  rw [toInt_stake_adjust]
  exact Int.le_max_left _ _

theorem votingPower_of_nonneg {v : Validator} (h : 0 ≤ v.stake.toInt) : v.votingPower = v.stake := by
  rw [← Int64.toInt_inj, toInt_votingPower]
  exact Int.max_eq_left h

end Validator

/-- A delta for the address of its own key. -/
def StakeDelta.IsBuilt (d : StakeDelta) : Prop := d = .new d.publicKey d.amount

def StakeDelta.joined (d : StakeDelta) : Validator := (Validator.new d.publicKey 0).adjust d.amount

theorem StakeDelta.IsBuilt.address_joined {d : StakeDelta} (h : d.IsBuilt) : d.joined.address = d.address :=
  (congrArg StakeDelta.address h).symm

namespace Roster

variable {roster : Roster} {delta : StakeDelta}

def powerAt (roster : Roster) (address : String) : Int64 := (roster.find? address).elim 0 (·.votingPower)

structure Sound (roster : Roster) : Prop where
  distinct : (roster.map Validator.address).Nodup
  nonneg : ∀ v ∈ roster, 0 ≤ v.stake.toInt

theorem sound_nil : Sound [] := ⟨List.nodup_nil, nofun⟩

theorem find?_cons (v : Validator) (roster : Roster) (address : String) :
    find? (v :: roster) address = if v.address = address then some v else roster.find? address :=
  Keyed.find?_cons Validator.address v roster address

/-- All that a delta can do: the first entry at its address is adjusted, or somebody joins. -/
theorem apply_cases (roster : Roster) (delta : StakeDelta) :
    (∃ front v back, roster = front ++ v :: back ∧ (∀ u ∈ front, u.address ≠ delta.address) ∧
      v.address = delta.address ∧
      roster.apply delta = (front ++ v.adjust delta.amount :: back, v.adjust delta.amount)) ∨
    (∀ v ∈ roster, v.address ≠ delta.address) ∧ roster.apply delta = (roster ++ [delta.joined], delta.joined) := by
  induction roster with
  | nil => exact .inr ⟨nofun, rfl⟩
  | cons v rest ih =>
    rw [apply]
    by_cases hv : v.address = delta.address
    · rw [if_pos hv]
      exact .inl ⟨[], v, rest, rfl, nofun, hv, rfl⟩
    · rw [if_neg hv]
      rcases ih with ⟨front, w, back, rfl, hfront, hw, h⟩ | ⟨habsent, h⟩
      · rw [h]
        exact .inl ⟨v :: front, w, back, rfl, List.forall_mem_cons.mpr ⟨hv, hfront⟩, hw, rfl⟩
      · rw [h]
        exact .inr ⟨List.forall_mem_cons.mpr ⟨hv, habsent⟩, rfl⟩

theorem find?_append (front back : Roster) (address : String) :
    find? (front ++ back) address = (front.find? address).or (back.find? address) := List.find?_append

theorem find?_eq_none_iff {address : String} : roster.find? address = none ↔ ∀ v ∈ roster, v.address ≠ address := by
  rw [find?, List.find?_eq_none]
  simp

theorem address_apply (hd : delta.IsBuilt) : (roster.apply delta).2.address = delta.address := by
  rcases apply_cases roster delta with ⟨front, v, back, -, -, hv, h⟩ | ⟨-, h⟩
  · rw [h]
    exact hv
  · rw [h]
    exact hd.address_joined

theorem find?_apply (hd : delta.IsBuilt) (address : String) :
    (roster.apply delta).1.find? address =
      if delta.address = address then some (roster.apply delta).2 else roster.find? address := by
  rcases apply_cases roster delta with ⟨front, v, back, rfl, hfront, hv, h⟩ | ⟨habsent, h⟩
  · rw [h, find?_append, find?_append, find?_cons, find?_cons, Validator.address_adjust, hv]
    split
    · next ha =>
      rw [find?_eq_none_iff.mpr (ha ▸ hfront)]
      rfl
    · rfl
  · rw [h, find?_append, find?_cons, hd.address_joined]
    split
    · next ha =>
      rw [find?_eq_none_iff.mpr (ha ▸ habsent)]
      rfl
    · exact Option.or_none

theorem addresses_apply (hd : delta.IsBuilt) :
    (roster.apply delta).1.map Validator.address =
      if delta.address ∈ roster.map Validator.address then roster.map Validator.address
      else roster.map Validator.address ++ [delta.address] := by
  rcases apply_cases roster delta with ⟨front, v, back, rfl, -, hv, h⟩ | ⟨habsent, h⟩
  · rw [h]
    simp [hv, Validator.address_adjust]
  · have hnot : delta.address ∉ roster.map Validator.address := by simpa using habsent
    rw [h, if_neg hnot, List.map_append, List.map_singleton, hd.address_joined]

theorem forall_mem_apply {P : Validator → Prop} (hall : ∀ v ∈ roster, P v)
    (hadjust : ∀ v, P v → P (v.adjust delta.amount)) (hjoined : P delta.joined) :
    ∀ v ∈ (roster.apply delta).1, P v := by
  rcases apply_cases roster delta with ⟨front, v, back, rfl, -, -, h⟩ | ⟨-, h⟩
  · rw [List.forall_mem_append, List.forall_mem_cons] at hall
    rw [h, List.forall_mem_append, List.forall_mem_cons]
    exact ⟨hall.1, hadjust v hall.2.1, hall.2.2⟩
  · rw [h, List.forall_mem_append, List.forall_mem_singleton]
    exact ⟨hall, hjoined⟩

theorem nonneg_apply (h : ∀ v ∈ roster, 0 ≤ v.stake.toInt) :
    ∀ v ∈ (roster.apply delta).1, 0 ≤ v.stake.toInt :=
  forall_mem_apply h (fun v _ => Validator.adjust_nonneg v _) (Validator.adjust_nonneg _ _)

theorem nodup_apply (hn : (roster.map Validator.address).Nodup) (hd : delta.IsBuilt) :
    ((roster.apply delta).1.map Validator.address).Nodup := by
  rw [addresses_apply hd]
  split
  · exact hn
  · next hnew => exact Keyed.nodup_concat hn hnew

theorem Sound.apply (h : roster.Sound) (hd : delta.IsBuilt) : (roster.apply delta).1.Sound :=
  ⟨nodup_apply h.distinct hd, nonneg_apply h.nonneg⟩

theorem powerAt_apply (hd : delta.IsBuilt) (address : String) :
    (roster.apply delta).1.powerAt address =
      if delta.address = address then (roster.apply delta).2.votingPower else roster.powerAt address := by
  rw [powerAt, find?_apply hd]
  split <;> rfl

theorem find?_of_mem (hn : (roster.map Validator.address).Nodup) {v : Validator} (hv : v ∈ roster) :
    roster.find? v.address = some v := Keyed.find?_of_mem hn hv

theorem Sound.powerAt_eq (h : roster.Sound) {v : Validator} (hv : v ∈ roster) :
    roster.powerAt v.address = v.stake := by
  rw [powerAt, find?_of_mem h.distinct hv]
  exact Validator.votingPower_of_nonneg (h.nonneg v hv)

theorem powerAt_eq_zero (h : ∀ v ∈ roster, ¬ 0 < v.stake) (address : String) :
    roster.powerAt address = 0 := by
  rw [powerAt]
  cases hv : roster.find? address with
  | none => rfl
  | some v =>
    have hstake := h v (List.mem_of_find?_eq_some hv)
    rw [Int64.lt_iff_toInt_lt, Int64.toInt_zero] at hstake
    rw [Option.elim_some, ← Int64.toInt_inj, Validator.toInt_votingPower]
    exact Int.max_eq_right (Int.not_lt.mp hstake)

end Roster

end StakeLedger
