import Mathlib.Data.List.Induction
import StakeLedger.Proofs.Application.Powers
import StakeLedger.Proofs.Engine.Updates
import StakeLedger.Proofs.Validator.Deltas

/-! The list of updates that a block reports. Main statement: `updates_of_block`. -/

namespace StakeLedger

open Engine

def StakeDelta.named (deltas : List StakeDelta) : List String := (deltas.map StakeDelta.address).eraseDups

theorem Roster.mem_apply_of_ne {roster : Roster} {d : StakeDelta} {v : Validator} (hv : v ∈ roster)
    (hne : v.address ≠ d.address) : v ∈ (roster.apply d).1 := by
  rcases apply_cases roster d with ⟨front, w, back, rfl, -, hw, h⟩ | ⟨-, h⟩
  · have hother : v ≠ w := fun he => hne (he ▸ hw)
    rw [List.mem_append, List.mem_cons] at hv
    rw [h, List.mem_append, List.mem_cons]
    exact hv.imp_right fun hback => .inr (hback.resolve_left hother)
  · rw [h]
    exact List.mem_append_left _ hv

namespace Application

variable {state : State} {deltas : List StakeDelta} {now : State × List ValidatorUpdate} {g : Genesis} {d : StakeDelta}

theorem applyDeltas_concat (state : State) (deltas : List StakeDelta) (d : StakeDelta) :
    applyDeltas state (deltas ++ [d]) =
      (((applyDeltas state deltas).1.applyDelta d).1,
        mergeUpdate (applyDeltas state deltas).2 ((applyDeltas state deltas).1.applyDelta d).2.update) := by
  rw [applyDeltas, List.foldl_append]
  rfl

/-- The updates collected while deltas were applied: one for each address that they name, and it tells of the
entry that stands there now. -/
structure Collected (before : Roster) (deltas : List StakeDelta) (now : State × List ValidatorUpdate) : Prop where
  distinct : (now.1.validators.map Validator.address).Nodup
  order : now.2.map ValidatorUpdate.address = StakeDelta.named deltas
  unique : (now.2.map ValidatorUpdate.address).Nodup
  current : ∀ a ∈ deltas.map StakeDelta.address,
    Updates.first? now.2 a = (now.1.validators.find? a).map Validator.update
  untouched : ∀ v ∈ before, v.address ∉ deltas.map StakeDelta.address → v ∈ now.1.validators
  stake : ∀ a, (now.1.validators.stakeAt a).toInt =
    StakeDelta.exactStake (before.stakeAt a).toInt (StakeDelta.own a deltas)

theorem Collected.start (h : (state.validators.map Validator.address).Nodup) :
    Collected state.validators [] (state, []) :=
  ⟨h, rfl, List.nodup_nil, nofun, fun _ hv _ => hv, fun _ => rfl⟩

theorem Collected.delta {before : Roster} (h : Collected before deltas now) (hd : d.IsBuilt) :
    Collected before (deltas ++ [d])
      ((now.1.applyDelta d).1, mergeUpdate now.2 (now.1.applyDelta d).2.update) := by
  have haddress : (now.1.applyDelta d).2.update.address = d.address := Roster.address_apply hd
  refine ⟨Roster.nodup_apply h.distinct hd, ?_, nodup_mergeUpdate _ h.unique, fun a ha => ?_, fun v hv hnot => ?_,
    fun a => ?_⟩
  · rw [addresses_mergeUpdate, h.order, haddress, StakeDelta.named, StakeDelta.named, List.map_append,
      List.map_singleton, Keyed.eraseDups_concat]
    simp only [List.mem_eraseDups]
  · have hfind : (now.1.applyDelta d).1.validators.find? a =
        if d.address = a then some (now.1.applyDelta d).2 else now.1.validators.find? a := Roster.find?_apply hd a
    rw [Updates.first?_mergeUpdate, haddress, hfind]
    by_cases hda : d.address = a
    · rw [if_pos hda, if_pos hda]
      rfl
    · rw [if_neg hda, if_neg hda]
      simp only [List.map_append, List.map_singleton, List.mem_append, List.mem_singleton, Ne.symm hda,
        or_false] at ha
      exact h.current a ha
  · simp only [List.map_append, List.map_singleton, List.mem_append, List.mem_singleton, not_or] at hnot
    exact Roster.mem_apply_of_ne (h.untouched v hv hnot.1) hnot.2
  · change ((now.1.validators.apply d).1.stakeAt a).toInt = _
    rw [Roster.toInt_stakeAt_apply hd, h.stake, StakeDelta.own_concat]
    split
    · rw [StakeDelta.exactStake_concat]
    · rfl

theorem collected_applyDeltas (h : (state.validators.map Validator.address).Nodup)
    (hd : ∀ d ∈ deltas, d.IsBuilt) : Collected state.validators deltas (applyDeltas state deltas) := by
  -- A block goes on at the end of the list, and what is collected speaks of all deltas before.
  induction deltas using List.reverseRecOn with
  | nil => exact .start h
  | append_singleton deltas d ih =>
    obtain ⟨hds, hd⟩ := List.forall_mem_append.mp hd
    rw [applyDeltas_concat]
    exact (ih hds).delta (hd d List.mem_cons_self)

theorem Collected.entry {before : Roster} (h : Collected before deltas now) {u : ValidatorUpdate} {a : String}
    (hu : Updates.first? now.2 a = some u) :
    ∃ v ∈ now.1.validators, u = ⟨v.address, .ed25519 v.publicKey, max v.stake 0⟩ := by
  have hmem : a ∈ now.2.map ValidatorUpdate.address := Keyed.find?_isSome.mp (Option.isSome_of_eq_some hu)
  rw [h.order, StakeDelta.named, List.mem_eraseDups] at hmem
  rw [h.current a hmem] at hu
  obtain ⟨v, hv, rfl⟩ := Option.map_eq_some_iff.mp hu
  exact ⟨v, List.mem_of_find?_eq_some hv, rfl⟩

theorem Collected.fallback {before : Roster} (h : Collected before deltas now) :
    ∀ u ∈ mergeUpdates now.2 g.defaultUpdates,
      if u.address ∈ g.addresses then Updates.last? g.defaultUpdates u.address = some u
      else ∃ v ∈ now.1.validators, u = ⟨v.address, .ed25519 v.publicKey, max v.stake 0⟩ := by
  intro u hu
  have hfirst : Updates.first? (mergeUpdates now.2 g.defaultUpdates) u.address = some u :=
    Keyed.find?_of_mem (nodup_mergeUpdates _ h.unique) hu
  rw [Updates.first?_mergeUpdates] at hfirst
  split
  · next ha =>
    obtain ⟨w, hw⟩ := Option.isSome_iff_exists.mp (Updates.last?_isSome.mpr ha)
    rw [hw, Option.some_or] at hfirst
    rw [hw, hfirst]
  · next ha =>
    have hnone : Updates.last? g.defaultUpdates u.address = none :=
      Option.not_isSome_iff_eq_none.mp fun hs => ha (Updates.last?_isSome.mp hs)
    rw [hnone, Option.none_or] at hfirst
    exact h.entry hfirst

theorem Collected.fallback_order {before : Roster} (h : Collected before deltas now) (g : Genesis) :
    (mergeUpdates now.2 g.defaultUpdates).map ValidatorUpdate.address =
      StakeDelta.named deltas ++ (g.addresses.filter (· ∉ StakeDelta.named deltas)).eraseDups := by
  have hnamed : ∀ a, a ∈ StakeDelta.named deltas ↔ a ∈ deltas.map StakeDelta.address := fun _ => List.mem_eraseDups
  rw [Updates.addresses_mergeUpdates g.defaultUpdates h.order, List.eraseDups_append, List.removeAll]
  simp only [hnamed, List.elem_eq_mem, decide_not]
  rfl

/-- What a block reports, for a roster without two entries for one address. Each address that deltas name gets the
key of its entry after the block and the voting power that the block leaves it, in the order in which they name
them. Only when nobody has stake after the block do the validators of the genesis document follow: the last one for
an address takes the place of the update for it, and the addresses that are not there yet come at the end. Other
entries of the roster are not reported. -/
theorem updates_of_block (g : Genesis) (distinct : (state.validators.map Validator.address).Nodup)
    (built : ∀ d ∈ deltas, d.IsBuilt) :
    let roster := (resolveUpdates g state deltas).1.validators
    let updates := (resolveUpdates g state deltas).2
    let named := StakeDelta.named deltas
    (updates.map ValidatorUpdate.address).Nodup ∧ (roster.map Validator.address).Nodup ∧
      (∀ v ∈ state.validators, v.address ∉ named → v ∈ roster) ∧
      (∀ a, (roster.stakeAt a).toInt =
        StakeDelta.exactStake (Roster.stakeAt state.validators a).toInt (StakeDelta.own a deltas)) ∧
      ((∃ v ∈ roster, 0 < v.stake) →
        updates.map ValidatorUpdate.address = named ∧
        ∀ u ∈ updates, ∃ v ∈ roster, u = ⟨v.address, .ed25519 v.publicKey, max v.stake 0⟩) ∧
      ((∀ v ∈ roster, ¬ 0 < v.stake) →
        updates.map ValidatorUpdate.address = named ++ (g.addresses.filter (· ∉ named)).eraseDups ∧
        ∀ u ∈ updates,
          if u.address ∈ g.addresses then Updates.last? g.defaultUpdates u.address = some u
          else ∃ v ∈ roster, u = ⟨v.address, .ed25519 v.publicKey, max v.stake 0⟩) := by
  have h := collected_applyDeltas distinct built
  have hpower := @Roster.totalPower_eq_zero_iff (applyDeltas state deltas).1.validators
  rw [resolveUpdates]
  generalize applyDeltas state deltas = now at h hpower ⊢
  obtain ⟨after, us⟩ := now
  have huntouched : ∀ v ∈ state.validators, v.address ∉ StakeDelta.named deltas → v ∈ after.validators := by
    intro v hv hnot
    exact h.untouched v hv fun hm => hnot (List.mem_eraseDups.mpr hm)
  by_cases htotal : after.totalPower = 0
  · have hnobody := hpower.mp htotal
    dsimp only
    rw [if_pos htotal]
    refine ⟨nodup_mergeUpdates _ h.unique, h.distinct, huntouched, h.stake, fun hsome => ?_, fun _ => ?_⟩
    · obtain ⟨v, hv, hpos⟩ := hsome
      exact absurd hpos (hnobody v hv)
    · exact ⟨h.fallback_order g, h.fallback⟩
  · dsimp only
    rw [if_neg htotal]
    refine ⟨h.unique, h.distinct, huntouched, h.stake, fun _ => ⟨h.order, fun u hu => ?_⟩, fun hnobody => ?_⟩
    · exact h.entry (Keyed.find?_of_mem h.unique hu)
    · exact absurd (hpower.mpr hnobody) htotal

/-- A block that takes all stake away. The genesis document has two validators for the address of the first
delta, and one for an address that no delta names. -/
theorem updates_past_repeated_genesis :
    let key (n : UInt8) : Bytes := List.replicate 32 n
    let member (n : UInt8) (power : Int64) : Genesis.Member := ⟨"", ⟨"", Base64.encode (key n)⟩, power, ""⟩
    let g : Genesis := { Genesis.default with validators := [member 1 2, member 9 4, member 1 3] }
    let state : State := { State.empty .commit with validators := [.new (key 1) 5, .new (key 2) 0] }
    let deltas : List StakeDelta := [.new (key 1) (-7), .new (key 3) 4, .new (key 3) (-4)]
    let roster := (resolveUpdates g state deltas).1.validators
    let updates := (resolveUpdates g state deltas).2
    (∀ v ∈ roster, ¬ 0 < v.stake) ∧ updates.map ValidatorUpdate.power = [3, 0, 4] ∧
      updates.map ValidatorUpdate.address = [1, 3, 9].map fun n => Validator.addressOf (key n) := by
  intro key member g state deltas roster updates
  have hdistinct : (state.validators.map Validator.address).Nodup := by decide +kernel
  have hbuilt : ∀ d ∈ deltas, d.IsBuilt := by simp [deltas, StakeDelta.IsBuilt, StakeDelta.new]
  have hnobody : ∀ v ∈ roster, ¬ 0 < v.stake := by decide +kernel
  obtain ⟨-, -, -, -, -, hfallback⟩ := updates_of_block g hdistinct hbuilt
  refine ⟨hnobody, by decide +kernel, (hfallback hnobody).1.trans ?_⟩
  decide +kernel

end Application

end StakeLedger
