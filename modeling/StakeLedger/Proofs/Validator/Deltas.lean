import StakeLedger.Proofs.Validator.Roster

namespace StakeLedger

def StakeDelta.own (address : String) (deltas : List StakeDelta) : List StakeDelta :=
  deltas.filter (·.address == address)

/-- The stake that deltas leave to somebody who had none. -/
def Validator.stakeAfter (deltas : List StakeDelta) : Int64 :=
  deltas.foldl (fun stake d => adjusted stake d.amount) 0

namespace StakeDelta

/-- The stake that deltas lead to, in exact integers: each of them stops at zero and at the greatest word. -/
def exactStake (stake : Int) (deltas : List StakeDelta) : Int :=
  deltas.foldl (fun stake d => max 0 (min Int64.maxValue.toInt (stake + d.amount.toInt))) stake

variable {d e : StakeDelta} {front back : List StakeDelta}

theorem own_concat (address : String) (deltas : List StakeDelta) (d : StakeDelta) :
    own address (deltas ++ [d]) =
      if d.address = address then own address deltas ++ [d] else own address deltas := by
  rw [own, own, List.filter_append, List.filter_cons, List.filter_nil]
  by_cases h : d.address = address
  · simp [h]
  · simp [h]

theorem exactStake_concat (stake : Int) (deltas : List StakeDelta) (d : StakeDelta) :
    exactStake stake (deltas ++ [d]) =
      max 0 (min Int64.maxValue.toInt (exactStake stake deltas + d.amount.toInt)) :=
  List.foldl_append

theorem own_swap (hne : d.address ≠ e.address) (address : String) :
    own address (front ++ d :: e :: back) = own address (front ++ e :: d :: back) := by
  simp only [own, List.filter_append, List.filter_cons]
  by_cases hd : d.address = address
  · have he : e.address ≠ address := fun he => hne (hd.trans he.symm)
    simp [hd, he]
  · simp [hd]

end StakeDelta

theorem Validator.stakeAfter_concat (deltas : List StakeDelta) (d : StakeDelta) :
    stakeAfter (deltas ++ [d]) = adjusted (stakeAfter deltas) d.amount :=
  List.foldl_append

namespace Roster

variable {roster : Roster} {deltas : List StakeDelta} {d : StakeDelta}

def stakeAt (roster : Roster) (address : String) : Int64 := (roster.find? address).elim 0 (·.stake)

def applyAll (roster : Roster) (deltas : List StakeDelta) : Roster :=
  deltas.foldl (fun roster d => (roster.apply d).1) roster

theorem applyAll_append (roster : Roster) (ds es : List StakeDelta) :
    roster.applyAll (ds ++ es) = (roster.applyAll ds).applyAll es := List.foldl_append

theorem stake_apply (roster : Roster) (d : StakeDelta) :
    (roster.apply d).2.stake = Validator.adjusted (roster.stakeAt d.address) d.amount := by
  rw [stakeAt]
  rcases apply_cases roster d with ⟨front, v, back, rfl, hfront, hv, h⟩ | ⟨habsent, h⟩
  · rw [h, find?_append, find?_eq_none_iff.mpr hfront, find?_cons, if_pos hv]
    rfl
  · rw [h, find?_eq_none_iff.mpr habsent]
    rfl

theorem stakeAt_apply (hd : d.IsBuilt) (address : String) :
    (roster.apply d).1.stakeAt address =
      if d.address = address then Validator.adjusted (roster.stakeAt address) d.amount
      else roster.stakeAt address := by
  rw [stakeAt, find?_apply hd]
  split
  · next ha => rw [← ha, Option.elim_some, stake_apply]
  · rfl

theorem toInt_stakeAt_apply (hd : d.IsBuilt) (address : String) :
    ((roster.apply d).1.stakeAt address).toInt =
      if d.address = address then
        max 0 (min Int64.maxValue.toInt ((roster.stakeAt address).toInt + d.amount.toInt))
      else (roster.stakeAt address).toInt := by
  rw [stakeAt_apply hd]
  split
  · exact Validator.toInt_stake_adjust ⟨none, address, [], roster.stakeAt address⟩ d.amount
  · rfl

structure Joined (deltas : List StakeDelta) (roster : Roster) : Prop where
  distinct : (roster.map Validator.address).Nodup
  addressed : ∀ v ∈ roster, v.address = Validator.addressOf v.publicKey
  order : roster.map Validator.address = (deltas.map StakeDelta.address).eraseDups
  range : ∀ v ∈ roster, 0 ≤ v.stake.toInt ∧ v.stake.toInt ≤ Int64.maxValue.toInt
  /-- The deltas for others do not count. -/
  stake : ∀ a, roster.stakeAt a = Validator.stakeAfter (StakeDelta.own a deltas)

theorem joined_nil : Joined [] [] := ⟨List.nodup_nil, nofun, rfl, nofun, fun _ => rfl⟩

theorem Joined.sound (h : roster.Joined deltas) : roster.Sound := ⟨h.distinct, fun v hv => (h.range v hv).1⟩

theorem Joined.apply (h : roster.Joined deltas) (hd : d.IsBuilt) : (roster.apply d).1.Joined (deltas ++ [d]) := by
  have hsound := h.sound.apply hd
  refine ⟨hsound.distinct, ?_, ?_, fun v hv => ⟨hsound.nonneg v hv, v.stake.toInt_le⟩, fun a => ?_⟩
  · exact forall_mem_apply h.addressed (fun v hv => hv) rfl
  · rw [addresses_apply hd, h.order, List.map_append, List.map_singleton, Keyed.eraseDups_concat]
    simp only [List.mem_eraseDups]
  · rw [stakeAt_apply hd, h.stake, StakeDelta.own_concat]
    split
    · rw [Validator.stakeAfter_concat]
    · rfl

theorem Joined.applyAll (h : roster.Joined deltas) {more : List StakeDelta} (hm : ∀ d ∈ more, d.IsBuilt) :
    (roster.applyAll more).Joined (deltas ++ more) := by
  induction more generalizing roster deltas with
  | nil => rwa [List.append_nil]
  | cons d ds ih =>
    obtain ⟨hd, hds⟩ := List.forall_mem_cons.mp hm
    have hrest := ih (h.apply hd) hds
    rwa [List.append_assoc, List.singleton_append] at hrest

end Roster

end StakeLedger
