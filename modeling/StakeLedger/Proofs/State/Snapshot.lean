import StakeLedger.Proofs.Json.Tree
import StakeLedger.Proofs.Staking.Params
import StakeLedger.State.Store

namespace StakeLedger

open Json Codec

theorem Validator.readsBack (v : Validator) : Validator.codec.ReadsBack v :=
  readsBack_record (by decide) rfl
    ⟨Staking.shown_optionalField fun s _ => ⟨readsBack_text s, nofun⟩, ⟨nofun, readsBack_text _⟩,
      ⟨nofun, readsBack_bytes _⟩, ⟨nofun, (readsBack_int64 _).nullable nofun⟩, trivial⟩

theorem Validator.bounded : Validator.codec.Bounded 1 :=
  Bounded.record (fun _ => rfl)
    ⟨Staking.bounded_optionalField bounded_text, Field.bounded_required bounded_text,
      Field.bounded_required bounded_bytes, Field.bounded_orElse (bounded_int64.nullable (Nat.le_refl 0))
        (Nat.le_refl 0), trivial⟩

theorem Validator.depth_write (v : Validator) : (Validator.codec.write v).depth ≤ 1 :=
  Nat.succ_le_succ (Fields.depthMembers_write
    ⟨by cases v.name <;> exact Nat.le_refl 0, Nat.le_refl 0, Nat.le_refl 0, Nat.le_refl 0, trivial⟩)

theorem Validator.exact_write (v : Validator) : (Validator.codec.write v).isExact = true :=
  Fields.membersExact_write ⟨exact_optional fun _ _ => rfl, rfl, rfl, rfl, trivial⟩

namespace State

variable {s t : State} {bytes : Bytes} {room : Nat}

/-- Whether no number in the staking section is a double. -/
def isExact (s : State) : Bool := s.staking.all Staking.Params.isExact

def ContractNotNull (s : State) : Prop := ∀ p ∈ s.staking, p.contract ≠ some .null

def nesting (s : State) : Nat := (codec.write s).depth

def stakingNesting (s : State) : Nat := ((optional Staking.Params.codec).write s.staking).depth

theorem readsBack (h : s.ContractNotNull) : codec.ReadsBack { s with path := none } := by
  have hstaking : (optional Staking.Params.codec).ReadsBack s.staking := by
    cases hs : s.staking with
    | none => exact readsBack_none
    | some p => exact (Staking.Params.readsBack (h p hs)).some nofun
  exact readsBack_record (by decide) rfl
    ⟨⟨nofun, readsBack_text _⟩, ⟨nofun, readsBack_int64 _⟩, ⟨nofun, readsBack_bytes _⟩, ⟨nofun, hstaking⟩,
      ⟨nofun, readsBack_list fun v _ => v.readsBack⟩, trivial⟩

theorem bounded : codec.Bounded 5 :=
  Bounded.record (fun _ => rfl)
    ⟨Field.bounded_required bounded_text, Field.bounded_required bounded_int64,
      Field.bounded_orElse bounded_bytes (Nat.zero_le 4),
      Field.bounded_orElse Staking.Params.bounded.optional (Nat.zero_le 4),
      Field.bounded_orElse (Validator.bounded.list.mono (by decide)) (by decide), trivial⟩

theorem exact_write (h : s.isExact = true) : (codec.write s).isExact = true := by
  have hvalidators := itemsExact_map Validator.codec s.validators fun v _ => v.exact_write
  exact Fields.membersExact_write
    ⟨rfl, rfl, rfl, exact_optional fun _ hp => Staking.Params.exact_write ((Option.all_eq_true _ _).mp h _ hp),
      hvalidators, trivial⟩

theorem nesting_le (s : State) : s.nesting ≤ max 3 (s.stakingNesting + 1) := by
  have hvalidators := depthItems_map Validator.codec s.validators fun v _ => v.depth_write
  have hmembers : s.nesting ≤ max 2 s.stakingNesting + 1 := Nat.succ_le_succ (Fields.depthMembers_write
    ⟨Nat.zero_le _, Nat.zero_le _, Nat.zero_le _, Nat.le_max_right _ _,
      Nat.le_trans (Nat.succ_le_succ hvalidators) (Nat.le_max_left _ _), trivial⟩)
  omega

theorem stakingNesting_lt (s : State) : s.stakingNesting < s.nesting :=
  Nat.succ_le_succ (depth_le_of_mem (m := ("staking", (optional Staking.Params.codec).write s.staking))
    (.tail _ (.tail _ (.tail _ (.head _)))))

structure Storable (s : State) : Prop where
  contract : s.ContractNotNull
  nesting : s.nesting ≤ Json.room

theorem Storable.of_staking (hs : s.Storable) (h : t.staking = s.staking) : t.Storable := by
  refine ⟨fun p hp => hs.contract p (h ▸ hp), ?_⟩
  have ht := t.nesting_le
  have hlt := s.stakingNesting_lt
  have hroom := hs.nesting
  rw [stakingNesting, h] at ht
  rw [stakingNesting] at hlt
  rw [Json.room] at hroom ⊢
  omega

theorem Storable.ofBytes_pretty (hs : s.Storable) (he : s.isExact = true) :
    codec.ofBytes (Bytes.ofString (codec.pretty s)) = .ok { s with path := none } := by
  have hread := readsBack hs.contract Json.room hs.nesting
  rw [Codec.ofBytes, Codec.pretty, Json.ofBytes_pretty (exact_write he), ofDocument]
  change (do let x ← codec.read Json.room (codec.write { s with path := none }).toTree; _) = _
  rw [hread]
  rfl

theorem contractNotNull_of_origin {staking : Option Staking.Params}
    (h : (Field.orElse "staking" (optional Staking.Params.codec) none).Origin room staking) :
    ∀ p ∈ staking, p.contract ≠ some .null := by
  rcases h with ha | hb | ⟨t, ht⟩
  · cases ha
    exact nofun
  · cases hb
    exact nofun
  · by_cases hnull : t = .null
    · subst hnull
      cases ht
      exact nofun
    · change (optional Staking.Params.codec).read _ t = _ at ht
      rw [read_optional hnull] at ht
      obtain ⟨p, hp, rfl⟩ := map_eq_ok.mp ht
      rintro _ ⟨⟩
      exact Staking.Params.contract_of_read hp

theorem storable_of_ofBytes (h : codec.ofBytes bytes = .ok s) : s.Storable := by
  obtain ⟨t, ht⟩ := read_of_ofBytes h
  refine ⟨?_, Nat.le_trans (bounded _ t s ht) (by decide)⟩
  obtain ⟨-, ⟨name, height, root, staking, validators, -⟩, rfl, -, -, -, hstaking, -⟩ := origin_of_read ht
  exact contractNotNull_of_origin hstaking

theorem path_of_ofBytes (h : codec.ofBytes bytes = .ok s) : s.path = none := by
  obtain ⟨t, ht⟩ := read_of_ofBytes h
  obtain ⟨-, row, rfl, -⟩ := origin_of_read ht
  rfl

theorem ofBytes_pretty_of_ofBytes (h : codec.ofBytes bytes = .ok s) (he : s.isExact = true) :
    codec.ofBytes (Bytes.ofString (codec.pretty s)) = .ok s := by
  have hback := (storable_of_ofBytes h).ofBytes_pretty he
  rwa [← path_of_ofBytes h] at hback

end State

end StakeLedger
