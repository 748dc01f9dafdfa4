import Mathlib.Data.List.Basic
import StakeLedger.Genesis.Load
import StakeLedger.Staking.Event

/-!
The validators that a genesis document falls back to. They can carry a chain only where every key of a member that
can be read is one of the engine's, and powers fit: nothing in the document is looked at but whether the key can be
read. Main statement: `usable_iff_members`.
-/

namespace StakeLedger.Genesis

open Engine

variable {g : Genesis} {m : Member} {u : ValidatorUpdate}

structure Usable (us : List ValidatorUpdate) : Prop where
  powered : ∃ u ∈ us, 0 < u.power
  nonneg : ∀ u ∈ us, 0 ≤ u.power
  keys : ∀ u ∈ us, u.publicKey.bytes.length = Staking.keyLength
  addressed : ∀ u ∈ us, u.address = Validator.addressOf u.publicKey.bytes

def Member.key? (m : Member) : Option Bytes := Base64.decode m.publicKey.value.toList

theorem Member.update?_eq_some : m.update? = some u ↔ ∃ key, m.key? = some key ∧ updateOf key m.power = u :=
  Option.map_eq_some_iff

theorem exists_bootstrapUpdates :
    ∃ key, bootstrapUpdates = [Member.updateOf key bootstrapPower] ∧ key.length = Staking.keyLength := by
  have hlength : (Base64.decode bootstrapKey.toList).map List.length = some Staking.keyLength := by decide +kernel
  obtain ⟨key, hkey, hlength⟩ := Option.map_eq_some_iff.mp hlength
  refine ⟨key, ?_, hlength⟩
  rw [bootstrapUpdates, hkey]
  rfl

/-- Either no key can be read and the bootstrap validator stands in, or every member whose key can be read is
there with the power it was given. -/
theorem defaultUpdates_cases (g : Genesis) :
    (∀ m ∈ g.validators, m.key? = none) ∧ g.defaultUpdates = bootstrapUpdates ∨
      (∃ m ∈ g.validators, m.key?.isSome) ∧
        ∀ u, u ∈ g.defaultUpdates ↔ ∃ m ∈ g.validators, ∃ key, m.key? = some key ∧ Member.updateOf key m.power = u := by
  have hmem : ∀ u, u ∈ g.validators.filterMap Member.update? ↔
      ∃ m ∈ g.validators, ∃ key, m.key? = some key ∧ Member.updateOf key m.power = u := by
    intro u
    simp only [List.mem_filterMap, Member.update?_eq_some]
  rw [defaultUpdates]
  cases hlist : g.validators.filterMap Member.update? with
  | nil =>
    refine .inl ⟨fun m hm => ?_, rfl⟩
    have hnone := List.filterMap_eq_nil_iff.mp hlist m hm
    exact Option.map_eq_none_iff.mp hnone
  | cons u us =>
    rw [hlist] at hmem
    obtain ⟨m, hm, key, hkey, -⟩ := (hmem u).mp List.mem_cons_self
    exact .inr ⟨⟨m, hm, Option.isSome_of_eq_some hkey⟩, hmem⟩

theorem usable_bootstrapUpdates : Usable bootstrapUpdates := by
  have hpower : 0 < bootstrapPower := by decide
  obtain ⟨key, hkey, hlength⟩ := exists_bootstrapUpdates
  rw [hkey]
  refine ⟨⟨_, List.mem_singleton_self _, hpower⟩, ?_, ?_, ?_⟩
  all_goals
    intro u hu
    rw [List.mem_singleton.mp hu]
  · exact Int64.le_of_lt hpower
  · exact hlength
  · rfl

theorem addressed_defaultUpdates (g : Genesis) :
    ∀ u ∈ g.defaultUpdates, u.address = Validator.addressOf u.publicKey.bytes := by
  rcases g.defaultUpdates_cases with ⟨-, hlist⟩ | ⟨-, hmem⟩
  · rw [hlist]
    exact usable_bootstrapUpdates.addressed
  · intro u hu
    obtain ⟨m, -, key, -, rfl⟩ := (hmem u).mp hu
    rfl

theorem defaultUpdates_ne_nil (g : Genesis) : g.defaultUpdates ≠ [] := by
  rcases g.defaultUpdates_cases with ⟨-, hlist⟩ | ⟨⟨m, hm, hkey⟩, hmem⟩
  · rw [hlist]
    obtain ⟨u, hu, -⟩ := usable_bootstrapUpdates.powered
    exact List.ne_nil_of_mem hu
  · obtain ⟨key, hkey⟩ := Option.isSome_iff_exists.mp hkey
    exact List.ne_nil_of_mem ((hmem _).mpr ⟨m, hm, key, hkey, rfl⟩)

/-- A genesis document always names validators for its chain, at the addresses of their keys. They can carry the
chain exactly where the members whose keys can be read have keys of the engine's length, no negative power, and
one of them, if there is any, has power: neither is looked at when the document is read, nor is the kind of key. -/
theorem usable_iff_members (g : Genesis) :
    g.defaultUpdates ≠ [] ∧ (∀ u ∈ g.defaultUpdates, u.address = Validator.addressOf u.publicKey.bytes) ∧
      (Usable g.defaultUpdates ↔
        (∀ m ∈ g.validators, ∀ key, m.key? = some key → key.length = Staking.keyLength ∧ 0 ≤ m.power) ∧
          ((∃ m ∈ g.validators, m.key?.isSome) → ∃ m ∈ g.validators, m.key?.isSome ∧ 0 < m.power)) := by
  refine ⟨g.defaultUpdates_ne_nil, addressed_defaultUpdates g, ?_⟩
  rcases g.defaultUpdates_cases with ⟨hnone, hlist⟩ | ⟨hsome, hmem⟩
  · rw [hlist]
    refine ⟨fun _ => ⟨fun m hm key hkey => ?_, fun ⟨m, hm, hkey⟩ => ?_⟩, fun _ => usable_bootstrapUpdates⟩
    · rw [hnone m hm] at hkey
      cases hkey
    · rw [hnone m hm] at hkey
      cases hkey
  · constructor
    · intro h
      refine ⟨fun m hm key hkey => ?_, fun _ => ?_⟩
      · have hu := (hmem _).mpr ⟨m, hm, key, hkey, rfl⟩
        exact ⟨h.keys _ hu, h.nonneg _ hu⟩
      · obtain ⟨u, hu, hpos⟩ := h.powered
        obtain ⟨m, hm, key, hkey, rfl⟩ := (hmem u).mp hu
        exact ⟨m, hm, Option.isSome_of_eq_some hkey, hpos⟩
    · rintro ⟨hall, hpower⟩
      obtain ⟨m, hm, hkey, hpos⟩ := hpower hsome
      obtain ⟨key, hkey⟩ := Option.isSome_iff_exists.mp hkey
      refine ⟨⟨_, (hmem _).mpr ⟨m, hm, key, hkey, rfl⟩, hpos⟩, ?_, ?_, addressed_defaultUpdates g⟩
      · intro u hu
        obtain ⟨m, hm, key, hkey, rfl⟩ := (hmem u).mp hu
        exact (hall m hm key hkey).2
      · intro u hu
        obtain ⟨m, hm, key, hkey, rfl⟩ := (hmem u).mp hu
        exact (hall m hm key hkey).1

/-- A document is accepted whose one validator has a key of three bytes and a negative power, and nobody stands in
for it: the engine is told of nobody who has power. -/
theorem unusable_past_negative_power :
    let content := Bytes.ofString
      "\x7b\"validators\":[\x7b\"pub_key\":\x7b\"type\":\"tendermint/PubKeyEd25519\",\"value\":\"AQID\"\x7d,\"power\":\"-5\"\x7d]\x7d"
    ∃ g, parse content = .ok g ∧ g.defaultUpdates = [Member.updateOf [1, 2, 3] (-5)] ∧ ¬ Usable g.defaultUpdates := by
  intro content
  let g : Genesis :=
    ⟨"", "", 1, none, [⟨"", ⟨"tendermint/PubKeyEd25519", "AQID"⟩, -5, ""⟩], "", .null⟩
  have hparse : parse content = .ok g := by decide +kernel
  have hlist : g.defaultUpdates = [Member.updateOf [1, 2, 3] (-5)] := by decide +kernel
  refine ⟨g, hparse, hlist, fun h => ?_⟩
  obtain ⟨u, hu, hpos⟩ := h.powered
  rw [hlist, List.mem_singleton] at hu
  subst hu
  exact absurd hpos (by decide)

end StakeLedger.Genesis
