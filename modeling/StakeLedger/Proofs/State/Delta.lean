import StakeLedger.Proofs.Validator.Roster
import StakeLedger.State.Basic

/-!
What one delta does to a view of the ledger, whoever is on its roster: addresses may be repeated or belong to other
keys, and stakes may be negative. Main statement: `delta_changes_one_entry`.
-/

namespace StakeLedger

theorem StakeDelta.toInt_stake_joined (d : StakeDelta) : d.joined.stake.toInt = max 0 d.amount.toInt := by
  have hle := d.amount.toInt_le
  have hnew : (Validator.new d.publicKey 0).stake.toInt = 0 := rfl
  rw [joined, Validator.toInt_stake_adjust, hnew]
  omega

theorem Roster.find?_of_first {front back : Roster} {v : Validator} {address : String}
    (hfront : ∀ u ∈ front, u.address ≠ address) (hv : v.address = address) :
    find? (front ++ v :: back) address = some v := by
  rw [find?_append, find?_eq_none_iff.mpr hfront, find?_cons, if_pos hv]
  rfl

theorem Roster.isSome_find?_joined {roster : Roster} {d : StakeDelta} (h : ∀ v ∈ roster, v.address ≠ d.address) :
    (find? (roster ++ [d.joined]) d.address).isSome ↔ d.address = Validator.addressOf d.publicKey := by
  have hnot : d.address ∉ roster.map Validator.address := by simpa using h
  rw [find?, Keyed.find?_isSome, List.map_append, List.mem_append, or_iff_right hnot]
  exact List.mem_singleton

namespace State

/-- A delta changes the stake of the first entry at its address and nothing else. Where there is none it adds one, for
the address of its key, under which alone it can be found. The entry that comes with the state is the one written. -/
theorem delta_changes_one_entry (s : State) (d : StakeDelta) :
    let next := (s.applyDelta d).1
    let written := (s.applyDelta d).2
    ((∃ v ∈ s.validators, v.address = d.address) →
      ∃ front v back, s.validators = front ++ v :: back ∧ (∀ u ∈ front, u.address ≠ d.address) ∧
        v.address = d.address ∧
        written = { v with stake := written.stake } ∧
        written.stake.toInt = max 0 (min Int64.maxValue.toInt (v.stake.toInt + d.amount.toInt)) ∧
        next = { s with validators := front ++ written :: back } ∧
        s.validator? d.address = some v ∧ next.validator? d.address = some written) ∧
    ((∀ v ∈ s.validators, v.address ≠ d.address) →
      written = ⟨none, Validator.addressOf d.publicKey, d.publicKey, written.stake⟩ ∧
        written.stake.toInt = max 0 d.amount.toInt ∧
        next = { s with validators := s.validators ++ [written] } ∧
        ((next.validator? d.address).isSome ↔ d.address = Validator.addressOf d.publicKey)) := by
  rcases Roster.apply_cases s.validators d with ⟨front, v, back, hs, hfront, hv, h⟩ | ⟨habsent, h⟩
  · rw [applyDelta, h]
    refine ⟨fun _ => ⟨front, v, back, hs, hfront, hv, rfl, v.toInt_stake_adjust d.amount, rfl, ?_, ?_⟩, fun habsent => ?_⟩
    · rw [validator?, hs]
      exact Roster.find?_of_first hfront hv
    · exact Roster.find?_of_first hfront hv
    · exact absurd hv (habsent v (hs ▸ List.mem_append_right front List.mem_cons_self))
  · rw [applyDelta, h]
    refine ⟨fun ⟨v, hv, ha⟩ => absurd ha (habsent v hv), fun _ => ⟨rfl, d.toInt_stake_joined, rfl, ?_⟩⟩
    exact Roster.isSome_find?_joined habsent

/-- An address that stands twice on the roster, the first time below zero, and a delta for an address that is not its
key's. -/
theorem delta_past_repeated_address :
    let s : State := ⟨none, "commit", 7, [], none, [⟨some "first", "A", [1], -5⟩, ⟨none, "A", [2], 3⟩]⟩
    (∃ v ∈ s.validators, v.address = "A") ∧ (∀ v ∈ s.validators, v.address ≠ "B") ∧
      (s.applyDelta ⟨"A", [9], 7⟩).1.validator? "A" = some ⟨some "first", "A", [1], 2⟩ ∧
      (s.applyDelta ⟨"B", [9], 4⟩).1.validators.length = 3 ∧
      (s.applyDelta ⟨"B", [9], 4⟩).1.validator? "B" = none := by
  intro s
  have hfound : ∃ v ∈ s.validators, v.address = "A" := ⟨_, List.mem_cons_self, rfl⟩
  have habsent : ∀ v ∈ s.validators, v.address ≠ "B" := by decide
  obtain ⟨front, v, back, -, -, -, hwritten, hstake, -, hbefore, hafter⟩ :=
    (delta_changes_one_entry s ⟨"A", [9], 7⟩).1 hfound
  obtain ⟨-, -, hnext, hlookup⟩ := (delta_changes_one_entry s ⟨"B", [9], 4⟩).2 habsent
  refine ⟨hfound, habsent, ?_, ?_, ?_⟩
  · obtain rfl : ⟨some "first", "A", [1], -5⟩ = v := Option.some.inj hbefore
    have htwo : (s.applyDelta ⟨"A", [9], 7⟩).2.stake = 2 := Int64.toInt_inj.mp hstake
    rw [hafter, hwritten, htwo]
  · rw [hnext]
    rfl
  · have hkey : ¬ "B" = Validator.addressOf [9] := by decide +kernel
    rwa [← Option.not_isSome_iff_eq_none, hlookup]

end State

end StakeLedger
