import StakeLedger.Proofs.Json.Record
import StakeLedger.Staking.Params

namespace StakeLedger.Staking

open Json Codec

variable {α : Type} {c : Codec α} {name : String} {k room : Nat}

theorem shown_optionalField {x : Option α} (h : ∀ y, x = some y → c.ReadsBack y ∧ c.write y ≠ .null) :
    ((optionalField name c).hidden x = true → (optionalField name c).absent = some x) ∧
      (optionalField name c).codec.ReadsBack x := by
  cases x with
  | none => exact ⟨fun _ => rfl, readsBack_none⟩
  | some y =>
    obtain ⟨hy, hn⟩ := h y rfl
    exact ⟨nofun, hy.some hn⟩

theorem bounded_optionalField (h : c.Bounded k) : (optionalField name c).Bounded k := by
  refine ⟨h.optional, fun x hx => ?_, fun x hx => ?_⟩
  · cases hx
    exact Nat.zero_le k
  · cases hx
    exact Nat.zero_le k

/-! ### What is written is read back -/

theorem Deployment.readsBack (d : Deployment) : Deployment.codec.ReadsBack d :=
  readsBack_record (by decide) rfl
    ⟨shown_optionalField fun s _ => ⟨readsBack_text s, nofun⟩,
      ⟨nofun, readsBack_list fun x _ => readsBack_opaqueValue x⟩, trivial⟩

theorem Networks.readsBack (n : Networks) : Networks.codec.ReadsBack n :=
  readsBack_record (by decide) rfl ⟨shown_optionalField fun d _ => ⟨d.readsBack, nofun⟩, trivial⟩

theorem Params.readsBack {p : Params} (h : p.contract ≠ some .null) : Params.codec.ReadsBack p := by
  refine readsBack_record (by decide) rfl
    ⟨shown_optionalField fun x hx => ⟨readsBack_opaqueValue x, fun hn => h ?_⟩,
      shown_optionalField fun n _ => ⟨n.readsBack, nofun⟩, trivial⟩
  obtain ⟨value, canonical⟩ := x
  cases hn
  exact hx

/-! ### What is read nests no deeper than it did -/

theorem Deployment.bounded : Deployment.codec.Bounded 2 :=
  Bounded.record (fun _ => rfl)
    ⟨bounded_optionalField bounded_text, Field.bounded_orElse bounded_opaqueValue.list (Nat.le_refl 1), trivial⟩

theorem Networks.bounded : Networks.codec.Bounded 3 :=
  Bounded.record (fun _ => rfl) ⟨bounded_optionalField Deployment.bounded, trivial⟩

theorem Params.bounded : Params.codec.Bounded 4 :=
  Bounded.record (fun _ => rfl)
    ⟨bounded_optionalField bounded_opaqueValue, bounded_optionalField Networks.bounded, trivial⟩

theorem Params.contract_of_read {t : Tree} {p : Params} (h : Params.codec.read room t = .ok p) :
    p.contract ≠ some .null := by
  obtain ⟨-, ⟨contract, networks, -⟩, rfl, hcontract, -⟩ := origin_of_read h
  rintro rfl
  rcases hcontract with ha | hb | ⟨t, ht⟩
  · cases ha
  · cases hb
  · by_cases hnull : t = .null
    · subst hnull
      cases ht
    · change (optional opaqueValue).read _ t = _ at ht
      rw [read_optional hnull] at ht
      obtain ⟨x, hx, he⟩ := map_eq_ok.mp ht
      cases he
      exact hnull (eq_null_of_value (Opaque.value_of_read hx))

/-! ### Parameters without doubles -/

def Deployment.isExact (d : Deployment) : Bool := d.argv.all (·.value.isExact)

def Networks.isExact (n : Networks) : Bool := n.ropsten.all Deployment.isExact

/-- Whether no number in the opaque values is a double. -/
def Params.isExact (p : Params) : Bool :=
  p.contract.all (·.value.isExact) && p.networks.all Networks.isExact

theorem Deployment.exact_write {d : Deployment} (h : d.isExact = true) :
    (Deployment.codec.write d).isExact = true := by
  have hargv := itemsExact_map opaqueValue d.argv fun x hx => List.all_eq_true.mp h x hx
  exact Fields.membersExact_write ⟨exact_optional fun _ _ => rfl, hargv, trivial⟩

theorem Networks.exact_write {n : Networks} (h : n.isExact = true) :
    (Networks.codec.write n).isExact = true :=
  Fields.membersExact_write
    ⟨exact_optional fun _ hd => Deployment.exact_write ((Option.all_eq_true _ _).mp h _ hd), trivial⟩

theorem Params.exact_write {p : Params} (h : p.isExact = true) :
    (Params.codec.write p).isExact = true := by
  rw [Params.isExact, Bool.and_eq_true] at h
  exact Fields.membersExact_write
    ⟨exact_optional fun _ hx => (Option.all_eq_true _ _).mp h.1 _ hx,
      exact_optional fun _ hn => Networks.exact_write ((Option.all_eq_true _ _).mp h.2 _ hn), trivial⟩

end StakeLedger.Staking
