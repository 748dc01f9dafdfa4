import StakeLedger.Proofs.Disk.Place
import StakeLedger.Proofs.State.Snapshot

namespace StakeLedger

open Json Codec

namespace Genesis

/-- A document that was read, or one made up here around an application state that was read by itself. -/
inductive Sourced : Genesis → Prop
  | document {g : Genesis} {content : Bytes} (h : codec.ofBytes content = .ok g) : Sourced g
  | synthesized {appState : Opaque} {content : Bytes} (chainId genesisTime : String)
      (h : opaqueValue.ofBytes content = .ok appState) : Sourced (synthesize chainId genesisTime appState)

variable {g : Genesis}

theorem Sourced.depth_appState (h : g.Sourced) : g.appState.value.depth ≤ Json.room := by
  cases h with
  | document hg =>
    obtain ⟨t, ht⟩ := read_of_ofBytes hg
    obtain ⟨-, row, rfl, -, -, -, -, -, -, happState, -⟩ := origin_of_read ht
    have hbounded : (Field.orElse "app_state" opaqueValue .null).Bounded 0 :=
      Field.bounded_orElse bounded_opaqueValue (Nat.le_refl 0)
    exact Nat.le_trans (hbounded.origin happState) (by decide)
  | synthesized chainId genesisTime happState =>
    obtain ⟨t, ht⟩ := read_of_ofBytes happState
    exact bounded_opaqueValue (k := 0) _ t _ ht

theorem staking_of_applicationParams {params : Staking.ApplicationParams}
    (h : g.applicationParams = .ok params) :
    (∀ p ∈ params.staking, p.contract ≠ some .null) ∧
      ((optional Staking.Params.codec).write params.staking).depth + 1 ≤ max 5 g.appState.value.depth := by
  rw [applicationParams] at h
  split at h
  · cases h
    exact ⟨nofun, by change 1 ≤ _; omega⟩
  · obtain ⟨h0, ⟨staking, -⟩, rfl, horigin, -⟩ := origin_of_read h
    have hbounded : (Field.orElse "staking" (optional Staking.Params.codec) none).Bounded 4 :=
      Field.bounded_orElse Staking.Params.bounded.optional (Nat.zero_le 4)
    have hdepth : ((optional Staking.Params.codec).write staking).depth ≤ _ := hbounded.origin horigin
    exact ⟨State.contractNotNull_of_origin horigin, by dsimp only; omega⟩

end Genesis

namespace Store

variable {store : Store} {phase : Phase} {g : Genesis} {disk : Disk} {s : State}

theorem load_cases (h : store.load disk phase g = .ok s) :
    (disk.holds (store.path phase) = false ∧ s = store.fresh phase g) ∨
      ∃ content decoded, disk.read (store.path phase) = .ok content ∧
        State.codec.ofBytes content = .ok decoded ∧ s = { decoded with path := some (store.path phase) } := by
  rw [load] at h
  split at h
  · split at h
    · cases h
    · next content hread =>
      split at h
      · cases h
      · next decoded hdecode =>
        cases h
        exact .inr ⟨content, decoded, hread, hdecode, rfl⟩
  · next hholds =>
    cases h
    exact .inl ⟨Bool.eq_false_iff.mpr hholds, rfl⟩

theorem load_of_absent (h : disk.holds (store.path phase) = false) (g : Genesis) :
    store.load disk phase g = .ok (store.fresh phase g) := by
  rw [load, h]
  rfl

theorem load_of_read {content : Bytes} (hr : disk.read (store.path phase) = .ok content)
    (hd : State.codec.ofBytes content = .ok s) (g : Genesis) :
    store.load disk phase g = .ok { s with path := some (store.path phase) } := by
  have hholds : disk.holds (store.path phase) = true :=
    Disk.holds_eq_true.mpr ⟨_, Disk.read_eq_ok.mp hr⟩
  rw [load, if_pos hholds, hr]
  dsimp only
  rw [hd]

theorem path_of_load (h : store.load disk phase g = .ok s) : s.path = some (store.path phase) := by
  rcases load_cases h with ⟨-, rfl⟩ | ⟨content, decoded, -, -, rfl⟩ <;> rfl

theorem fresh_staking (store : Store) (phase : Phase) (g : Genesis) :
    (store.fresh phase g).ContractNotNull ∧
      (store.fresh phase g).stakingNesting + 1 ≤ max 5 g.appState.value.depth := by
  rw [fresh]
  cases hparams : g.applicationParams with
  | error e => exact ⟨nofun, by change 1 ≤ _; omega⟩
  | ok params => exact Genesis.staking_of_applicationParams hparams

theorem nesting_fresh (store : Store) (phase : Phase) (g : Genesis) :
    (store.fresh phase g).nesting ≤ max 5 g.appState.value.depth := by
  have hle := (store.fresh phase g).nesting_le
  have hstaking := (fresh_staking store phase g).2
  omega

theorem storable_fresh (hg : g.Sourced) : (store.fresh phase g).Storable := by
  have hnesting := nesting_fresh store phase g
  have hdepth := hg.depth_appState
  refine ⟨(fresh_staking store phase g).1, ?_⟩
  rw [Json.room] at hdepth ⊢
  omega

theorem storable_of_load (hg : g.Sourced) (h : store.load disk phase g = .ok s) : s.Storable := by
  rcases load_cases h with ⟨-, rfl⟩ | ⟨content, decoded, -, hdecode, rfl⟩
  · exact storable_fresh hg
  · exact (State.storable_of_ofBytes hdecode).of_staking rfl

end Store

end StakeLedger
