import StakeLedger.Proofs.Genesis.Integers
import StakeLedger.Proofs.Json.Tree

/-! A genesis document is read back from what is written of it. Main statement: `parse_compact`. -/

namespace StakeLedger.Genesis

open Json Codec

variable {g : Genesis}

theorem readsBack_integer (n : Int64) : integer.ReadsBack n := by
  intro room _
  exact read_integer_iff.mpr (.number (bounded_toInt n))

theorem BlockParams.readsBack (p : BlockParams) : BlockParams.codec.ReadsBack p :=
  readsBack_record (by decide) rfl
    ⟨⟨nofun, readsBack_integer _⟩, ⟨nofun, readsBack_integer _⟩, ⟨nofun, readsBack_integer _⟩, trivial⟩

theorem EvidenceParams.readsBack (p : EvidenceParams) : EvidenceParams.codec.ReadsBack p :=
  readsBack_record (by decide) rfl
    ⟨⟨nofun, readsBack_integer _⟩, ⟨nofun, readsBack_integer _⟩, ⟨nofun, readsBack_integer _⟩, trivial⟩

theorem VersionParams.readsBack (p : VersionParams) : VersionParams.codec.ReadsBack p :=
  readsBack_record (by decide) rfl ⟨⟨nofun, readsBack_integer _⟩, trivial⟩

theorem readsBack_validatorParams (p : Engine.ValidatorParams) : Engine.ValidatorParams.codec.ReadsBack p :=
  readsBack_record (by decide) rfl ⟨⟨nofun, readsBack_list fun s _ => readsBack_text s⟩, trivial⟩

theorem ConsensusParams.readsBack (p : ConsensusParams) : ConsensusParams.codec.ReadsBack p :=
  readsBack_record (by decide) rfl
    ⟨⟨nofun, p.block.readsBack⟩, ⟨nofun, p.evidence.readsBack⟩, ⟨nofun, readsBack_validatorParams p.validator⟩,
      ⟨nofun, p.version.readsBack⟩, trivial⟩

theorem PublicKey.readsBack (k : PublicKey) : PublicKey.codec.ReadsBack k :=
  readsBack_record (by decide) rfl ⟨⟨nofun, readsBack_text _⟩, ⟨nofun, readsBack_text _⟩, trivial⟩

theorem Member.readsBack (m : Member) : Member.codec.ReadsBack m :=
  readsBack_record (by decide) rfl
    ⟨⟨nofun, readsBack_text _⟩, ⟨nofun, m.publicKey.readsBack⟩, ⟨nofun, readsBack_integer _⟩,
      ⟨nofun, readsBack_text _⟩, trivial⟩

theorem readsBack (g : Genesis) : codec.ReadsBack g := by
  have hparams : (optional ConsensusParams.codec).ReadsBack g.consensusParams := by
    cases g.consensusParams with
    | none => exact readsBack_none
    | some p => exact p.readsBack.some nofun
  exact readsBack_record (by decide) rfl
    ⟨⟨nofun, readsBack_text _⟩, ⟨nofun, readsBack_text _⟩, ⟨nofun, readsBack_integer _⟩, ⟨nofun, hparams⟩,
      ⟨nofun, readsBack_list fun m _ => m.readsBack⟩, ⟨nofun, readsBack_text _⟩, ⟨nofun, readsBack_opaqueValue _⟩,
      trivial⟩

theorem ConsensusParams.exact_write (p : ConsensusParams) : (ConsensusParams.codec.write p).isExact = true := by
  have hintegers : ∀ {as : List Type} {fields : Fields as} {row : Row as},
      fields.All (fun f x => (f.codec.write x).isExact = true) row → (Json.record (fields.write row)).isExact = true :=
    Fields.membersExact_write
  have htypes := itemsExact_map text p.validator.publicKeyTypes fun _ _ => rfl
  exact Fields.membersExact_write
    ⟨hintegers ⟨rfl, rfl, rfl, trivial⟩, hintegers ⟨rfl, rfl, rfl, trivial⟩, hintegers ⟨htypes, trivial⟩,
      hintegers ⟨rfl, trivial⟩, trivial⟩

theorem Member.exact_write (m : Member) : (Member.codec.write m).isExact = true :=
  Fields.membersExact_write ⟨rfl, Fields.membersExact_write ⟨rfl, rfl, trivial⟩, rfl, rfl, trivial⟩

theorem exact_write (h : g.appState.value.isExact = true) : (codec.write g).isExact = true := by
  have hmembers := itemsExact_map Member.codec g.validators fun m _ => m.exact_write
  exact Fields.membersExact_write
    ⟨rfl, rfl, rfl, exact_optional fun p _ => p.exact_write, hmembers, rfl, h, trivial⟩

variable {content : Bytes}

theorem parse_eq_ok_iff : parse content = .ok g ↔
    codec.read Json.room (Document.ofBytes content).tree = .ok g ∧ (Document.ofBytes content).trailing = false := by
  rw [← ofBytes_eq_ok, parse]
  cases codec.ofBytes content with
  | ok x => exact ⟨fun h => congrArg Except.ok (Except.ok.inj h), fun h => congrArg Except.ok (Except.ok.inj h)⟩
  | error e => exact ⟨nofun, nofun⟩

theorem parse_of_ofBytes (hd : (codec.write g).depth ≤ Json.room)
    (h : Document.ofBytes content = ⟨(codec.write g).toTree, false⟩) : parse content = .ok g := by
  rw [parse_eq_ok_iff, h]
  exact ⟨g.readsBack Json.room hd, rfl⟩

theorem parse_compact (he : g.appState.value.isExact = true) (hd : (codec.write g).depth ≤ Json.room) :
    parse (Bytes.ofString (codec.compact g)) = .ok g :=
  parse_of_ofBytes hd ((Json.ofBytes_ofString _).trans (ofString_compact (exact_write he)))

theorem parse_pretty (he : g.appState.value.isExact = true) (hd : (codec.write g).depth ≤ Json.room) :
    parse (Bytes.ofString (codec.pretty g)) = .ok g :=
  parse_of_ofBytes hd (Json.ofBytes_pretty (exact_write he))

end StakeLedger.Genesis
