import Mathlib.Tactic.ByContra
import StakeLedger.Proofs.Application.Block
import StakeLedger.Proofs.Engine.Powers
import StakeLedger.Proofs.Validator.Power

namespace StakeLedger

open Engine

namespace Application

variable {deltas : List StakeDelta} {state : State} {us : List ValidatorUpdate}

def Tracks (before : Roster) (p : Powers) (after : Roster) (q : Powers) : Prop :=
  ∀ a, q a = after.powerAt a ∨ q a = p a ∧ after.powerAt a = before.powerAt a

structure Applied (before : Roster) (p : Powers) (now : State × List ValidatorUpdate) : Prop where
  sound : now.1.validators.Sound
  distinct : (now.2.map ValidatorUpdate.address).Nodup
  tracks : Tracks before p now.1.validators (p.take now.2)

theorem Applied.start {p : Powers} (h : state.validators.Sound) :
    Applied state.validators p (state, []) :=
  ⟨h, List.nodup_nil, fun _ => .inr ⟨rfl, rfl⟩⟩

theorem Applied.delta {before : Roster} {p : Powers} {d : StakeDelta}
    (h : Applied before p (state, us)) (hd : d.IsBuilt) :
    Applied before p ((state.applyDelta d).1, mergeUpdate us (state.applyDelta d).2.update) := by
  refine ⟨h.sound.apply hd, nodup_mergeUpdate _ h.distinct, fun a => ?_⟩
  have haddress : (state.applyDelta d).2.update.address = d.address := Roster.address_apply hd
  have hpower : (state.applyDelta d).1.validators.powerAt a =
      if d.address = a then (state.applyDelta d).2.votingPower else state.validators.powerAt a :=
    Roster.powerAt_apply hd a
  rw [Powers.take_mergeUpdate _ h.distinct, Powers.set, haddress, hpower]
  by_cases ha : d.address = a
  · rw [if_pos ha.symm, if_pos ha]
    exact .inl rfl
  · rw [if_neg (Ne.symm ha), if_neg ha]
    exact h.tracks a

theorem applied_applyDeltas (p : Powers) (h : state.validators.Sound) (hd : ∀ d ∈ deltas, d.IsBuilt) :
    Applied state.validators p (applyDeltas state deltas) := by
  apply applyDeltas_induction
  · exact .start h
  · intro now hnow d hmem
    exact hnow.delta (hd d hmem)

end Application

namespace Genesis

def powers (g : Genesis) : Powers := Powers.zero.take g.defaultUpdates

def addresses (g : Genesis) : List String := g.defaultUpdates.map ValidatorUpdate.address

theorem powers_of_not_mem {g : Genesis} {a : String} (h : a ∉ g.addresses) : g.powers a = 0 := by
  rw [powers, Powers.take_apply]
  exact if_neg h

end Genesis

namespace Engine

variable {g : Genesis} {roster : Roster} {p : Powers}

/-- Powers and a roster at the end of a block. An address either has the power that the roster gives it,
or nobody has stake there and it is left with its power in the genesis document. -/
structure Agrees (g : Genesis) (roster : Roster) (p : Powers) : Prop where
  sound : roster.Sound
  power : ∀ a, p a = roster.powerAt a ∨ roster.powerAt a = 0 ∧ a ∈ g.addresses ∧ p a = g.powers a
  fallback : roster.totalPower = 0 → ∀ a ∈ g.addresses, p a = g.powers a

theorem agrees_genesis (g : Genesis) : Agrees g [] g.powers := by
  refine ⟨Roster.sound_nil, fun a => ?_, fun _ _ _ => rfl⟩
  by_cases ha : a ∈ g.addresses
  · exact .inr ⟨rfl, ha, rfl⟩
  · exact .inl (Genesis.powers_of_not_mem ha)

theorem Agrees.tracks {after : Roster} {q : Powers} (h : Agrees g roster p)
    (ht : Application.Tracks roster p after q) (a : String) :
    q a = after.powerAt a ∨ after.powerAt a = 0 ∧ a ∈ g.addresses ∧ q a = g.powers a := by
  rcases ht a with hq | ⟨hq, hafter⟩
  · exact .inl hq
  · rw [hq, hafter]
    exact h.power a

theorem Agrees.resolve {state : State} {deltas : List StakeDelta} (h : Agrees g state.validators p)
    (hd : ∀ d ∈ deltas, d.IsBuilt) :
    Agrees g (Application.resolveUpdates g state deltas).1.validators
      (p.take (Application.resolveUpdates g state deltas).2) := by
  have happlied := Application.applied_applyDeltas p h.sound hd
  have htracks := h.tracks happlied.tracks
  rw [Application.resolveUpdates]
  generalize Application.applyDeltas state deltas = now at happlied htracks ⊢
  obtain ⟨after, us⟩ := now
  by_cases htotal : after.totalPower = 0
  · dsimp only
    rw [if_pos htotal]
    have hgenesis : ∀ a, p.take (mergeUpdates us g.defaultUpdates) a =
        if a ∈ g.addresses then g.powers a else p.take us a := by
      intro a
      rw [Powers.take_mergeUpdates _ happlied.distinct, Powers.take_apply]
      rfl
    have hnobody : ∀ a, after.validators.powerAt a = 0 :=
      Roster.powerAt_eq_zero (Roster.totalPower_eq_zero_iff.mp htotal)
    refine ⟨happlied.sound, fun a => ?_, fun _ a ha => ?_⟩
    · rw [hgenesis]
      by_cases ha : a ∈ g.addresses
      · rw [if_pos ha]
        exact .inr ⟨hnobody a, ha, rfl⟩
      · rw [if_neg ha]
        exact .inl ((htracks a).resolve_right fun hin => ha hin.2.1)
    · rw [hgenesis, if_pos ha]
  · dsimp only
    rw [if_neg htotal]
    exact ⟨happlied.sound, htracks, fun h0 => absurd h0 htotal⟩

theorem Agrees.stake (h : Agrees g roster p) {v : Validator} (hv : v ∈ roster) (hpos : 0 < v.stake) :
    p v.address = v.stake := by
  have hpower := h.sound.powerAt_eq hv
  rcases h.power v.address with hp | ⟨h0, -⟩
  · exact hp.trans hpower
  · rw [← hpower, h0] at hpos
    exact absurd hpos (by decide)

theorem Agrees.differs (h : Agrees g roster p) {a : String} (ha : p a ≠ roster.powerAt a) :
    a ∈ g.addresses ∧ p a = g.powers a :=
  ((h.power a).resolve_left ha).2

theorem Agrees.exists_power (h : Agrees g roster p) (hg : ∃ a, 0 < g.powers a) : ∃ a, 0 < p a := by
  by_cases htotal : roster.totalPower = 0
  · obtain ⟨a, ha⟩ := hg
    have hmem : a ∈ g.addresses := by
      by_contra hnot
      rw [Genesis.powers_of_not_mem hnot] at ha
      exact absurd ha (by decide)
    exact ⟨a, h.fallback htotal a hmem ▸ ha⟩
  · obtain ⟨v, hv, hpos⟩ := Roster.totalPower_ne_zero_iff.mp htotal
    exact ⟨v.address, (h.stake hv hpos).symm ▸ hpos⟩

end Engine

end StakeLedger
