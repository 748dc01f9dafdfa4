import StakeLedger.Engine.Catalogue
import StakeLedger.Application.Basic
import StakeLedger.Proofs.Json.Spelling

/-!
All that passes between the engine and the application is read back from its text, in whatever way the engine writes
it. Main statement: `read_however_written`.
-/

namespace StakeLedger.Engine

open Json Codec Codec.FaithfulField

variable {k : Nat}

theorem PublicKey.faithful : PublicKey.codec.Faithful (k + 1) :=
  faithful_tagged.mapped (fun _ => rfl) fun _ => rfl

theorem ValidatorUpdate.faithful : ValidatorUpdate.codec.Faithful (k + 2) :=
  .record (by decide) (fun _ => rfl)
    ⟨required faithful_text, required PublicKey.faithful, required faithful_int64, trivial⟩

theorem EventAttribute.faithful : EventAttribute.codec.Faithful (k + 1) :=
  .record (by decide) (fun _ => rfl)
    ⟨required faithful_text, required faithful_text, orElse faithful_bool, trivial⟩

theorem Event.faithful : Event.codec.Faithful (k + 3) :=
  .record (by decide) (fun _ => rfl) ⟨required faithful_text, orElse EventAttribute.faithful.list, trivial⟩

theorem BlockVersion.faithful : BlockVersion.codec.Faithful (k + 1) :=
  .record (by decide) (fun _ => rfl) ⟨orElse faithful_uint64, orElse faithful_uint64, trivial⟩

theorem Header.faithful : Header.codec.Faithful (k + 2) :=
  .record (by decide) (fun _ => rfl)
    ⟨orElse BlockVersion.faithful, orElse faithful_text, orElse faithful_int64, orElse faithful_text,
      orElse faithful_text, orElse faithful_text, orElse faithful_text, orElse faithful_text, orElse faithful_text,
      orElse faithful_text, orElse faithful_text, orElse faithful_text, orElse faithful_text, trivial⟩

theorem BlockParams.faithful : BlockParams.codec.Faithful (k + 1) :=
  .record (by decide) (fun _ => rfl) ⟨orElse faithful_int64, orElse faithful_int64, trivial⟩

theorem EvidenceParams.faithful : EvidenceParams.codec.Faithful (k + 1) :=
  .record (by decide) (fun _ => rfl)
    ⟨orElse faithful_int64, orElse faithful_uint64, orElse faithful_int64, trivial⟩

theorem ValidatorParams.faithful : ValidatorParams.codec.Faithful (k + 2) :=
  .record (by decide) (fun _ => rfl) ⟨orElse faithful_text.list, trivial⟩

theorem VersionParams.faithful : VersionParams.codec.Faithful (k + 1) :=
  .record (by decide) (fun _ => rfl) ⟨orElse faithful_uint64, trivial⟩

theorem ConsensusParams.faithful : ConsensusParams.codec.Faithful (k + 3) :=
  .record (by decide) (fun _ => rfl)
    ⟨orElse BlockParams.faithful, orElse EvidenceParams.faithful, orElse ValidatorParams.faithful,
      orElse VersionParams.faithful, trivial⟩

theorem InfoRequest.faithful : InfoRequest.codec.Faithful (k + 1) :=
  .record (by decide) (fun _ => rfl)
    ⟨orElse faithful_text, orElse faithful_uint64, orElse faithful_uint64, trivial⟩

theorem InfoResponse.faithful : InfoResponse.codec.Faithful (k + 1) :=
  .record (by decide) (fun _ => rfl)
    ⟨required faithful_text, required faithful_text, required faithful_uint64, required faithful_int64,
      required faithful_bytes, trivial⟩

theorem InitChainRequest.faithful : InitChainRequest.codec.Faithful (k + 4) :=
  .record (by decide) (fun _ => rfl)
    ⟨orElse faithful_text, orElse faithful_text, orElse (ConsensusParams.faithful.optional fun _ => nofun),
      orElse ValidatorUpdate.faithful.list, orElse faithful_bytes, orElse faithful_int64, trivial⟩

theorem InitChainResponse.faithful : InitChainResponse.codec.Faithful (k + 4) :=
  .record (by decide) (fun _ => rfl)
    ⟨⟨fun _ => rfl, ConsensusParams.faithful.optional fun _ => nofun⟩, required ValidatorUpdate.faithful.list,
      required faithful_bytes, trivial⟩

theorem QueryRequest.faithful : QueryRequest.codec.Faithful (k + 1) :=
  .record (by decide) (fun _ => rfl)
    ⟨orElse faithful_bytes, orElse faithful_text, orElse faithful_int64, orElse faithful_bool, trivial⟩

theorem QueryResponse.faithful : QueryResponse.codec.Faithful (k + 1) :=
  .record (by decide) (fun _ => rfl)
    ⟨required faithful_uint32, required faithful_text, required faithful_bytes, required faithful_int64, trivial⟩

theorem CheckKind.faithful : CheckKind.codec.Faithful k :=
  faithful_choice fun x => by cases x <;> rfl

theorem CheckTxRequest.faithful : CheckTxRequest.codec.Faithful (k + 1) :=
  .record (by decide) (fun _ => rfl) ⟨orElse faithful_bytes, orElse CheckKind.faithful, trivial⟩

theorem CheckTxResponse.faithful : CheckTxResponse.codec.Faithful (k + 1) :=
  .record (by decide) (fun _ => rfl)
    ⟨required faithful_uint32, required faithful_text, required faithful_int64, required faithful_int64, trivial⟩

theorem DeliverTxRequest.faithful : DeliverTxRequest.codec.Faithful (k + 1) :=
  .record (by decide) (fun _ => rfl) ⟨orElse faithful_bytes, trivial⟩

theorem DeliverTxResponse.faithful : DeliverTxResponse.codec.Faithful (k + 5) :=
  .record (by decide) (fun _ => rfl)
    ⟨required faithful_uint32, required faithful_text, required Event.faithful.list, trivial⟩

theorem BeginBlockRequest.faithful : BeginBlockRequest.codec.Faithful (k + 3) :=
  .record (by decide) (fun _ => rfl) ⟨orElse faithful_text, orElse Header.faithful, trivial⟩

theorem BeginBlockResponse.faithful : BeginBlockResponse.codec.Faithful (k + 5) :=
  .record (by decide) (fun _ => rfl) ⟨required Event.faithful.list, trivial⟩

theorem EndBlockRequest.faithful : EndBlockRequest.codec.Faithful (k + 1) :=
  .record (by decide) (fun _ => rfl) ⟨required faithful_int64, trivial⟩

theorem EndBlockResponse.faithful : EndBlockResponse.codec.Faithful (k + 5) :=
  .record (by decide) (fun _ => rfl)
    ⟨required ValidatorUpdate.faithful.list, required Event.faithful.list, trivial⟩

theorem CommitResponse.faithful : CommitResponse.codec.Faithful (k + 1) :=
  .record (by decide) (fun _ => rfl) ⟨required faithful_bytes, required faithful_int64, trivial⟩

theorem Snapshot.faithful : Snapshot.codec.Faithful (k + 1) :=
  .record (by decide) (fun _ => rfl)
    ⟨required faithful_uint64, required faithful_uint32, required faithful_uint32, required faithful_bytes,
      required faithful_bytes, trivial⟩

theorem ListSnapshotsResponse.faithful : ListSnapshotsResponse.codec.Faithful (k + 3) :=
  .record (by decide) (fun _ => rfl) ⟨required Snapshot.faithful.list, trivial⟩

theorem OfferSnapshotRequest.faithful : OfferSnapshotRequest.codec.Faithful (k + 2) :=
  .record (by decide) (fun _ => rfl)
    ⟨orElse (Snapshot.faithful.optional fun _ => nofun), orElse faithful_bytes, trivial⟩

theorem SnapshotResult.faithful : SnapshotResult.codec.Faithful k :=
  faithful_choice fun x => by cases x <;> rfl

theorem OfferSnapshotResponse.faithful : OfferSnapshotResponse.codec.Faithful (k + 1) :=
  .record (by decide) (fun _ => rfl) ⟨required SnapshotResult.faithful, trivial⟩

theorem LoadSnapshotChunkRequest.faithful : LoadSnapshotChunkRequest.codec.Faithful (k + 1) :=
  .record (by decide) (fun _ => rfl)
    ⟨orElse faithful_uint64, orElse faithful_uint32, orElse faithful_uint32, trivial⟩

theorem LoadSnapshotChunkResponse.faithful : LoadSnapshotChunkResponse.codec.Faithful (k + 1) :=
  .record (by decide) (fun _ => rfl) ⟨required faithful_bytes, trivial⟩

theorem ApplySnapshotChunkRequest.faithful : ApplySnapshotChunkRequest.codec.Faithful (k + 1) :=
  .record (by decide) (fun _ => rfl)
    ⟨orElse faithful_uint32, orElse faithful_bytes, orElse faithful_text, trivial⟩

theorem ApplySnapshotChunkResponse.faithful : ApplySnapshotChunkResponse.codec.Faithful (k + 2) :=
  .record (by decide) (fun _ => rfl)
    ⟨required SnapshotResult.faithful, required faithful_uint32.list, required faithful_text.list, trivial⟩

def contract : List Kind := ⟨PublicKey.codec⟩ :: catalogue.map Prod.snd

theorem faithful_contract : ∀ kind ∈ contract, kind.codec.Faithful Json.room := by
  simp only [contract, catalogue, List.map_cons, List.map_nil, List.forall_mem_cons]
  exact ⟨PublicKey.faithful, ValidatorUpdate.faithful, EventAttribute.faithful, Event.faithful, BlockVersion.faithful,
    Header.faithful, BlockParams.faithful, EvidenceParams.faithful, ValidatorParams.faithful, VersionParams.faithful,
    ConsensusParams.faithful, InfoRequest.faithful, InfoResponse.faithful, InitChainRequest.faithful,
    InitChainResponse.faithful, QueryRequest.faithful, QueryResponse.faithful, CheckKind.faithful,
    CheckTxRequest.faithful, CheckTxResponse.faithful, DeliverTxRequest.faithful, DeliverTxResponse.faithful,
    BeginBlockRequest.faithful, BeginBlockResponse.faithful, EndBlockRequest.faithful, EndBlockResponse.faithful,
    CommitResponse.faithful, Snapshot.faithful, ListSnapshotsResponse.faithful, OfferSnapshotRequest.faithful,
    SnapshotResult.faithful, OfferSnapshotResponse.faithful, LoadSnapshotChunkRequest.faithful,
    LoadSnapshotChunkResponse.faithful, ApplySnapshotChunkRequest.faithful, ApplySnapshotChunkResponse.faithful, nofun⟩

/-- Every value of the contract is read back from its text, from any document that writes it down in another way,
and from the text of any such value. A block's header is the one attribute of the one event that its begin answers
with, and is read back from there, before and after the answer has been written and read itself. -/
theorem read_however_written :
    (∀ kind ∈ contract, ∀ x, kind.codec.ofString (kind.codec.compact x) = .ok x ∧
      (∀ content t, Document.ofBytes content = ⟨t, false⟩ → Spells kind.codec x t →
        kind.codec.ofBytes content = .ok x) ∧
      ∀ j : Json, j.isExact = true → Spells kind.codec x j.toTree →
        kind.codec.ofBytes (Bytes.ofString j.compact) = .ok x) ∧
      ∀ {σ : Type} (app : Application σ) (request : BeginBlockRequest),
        ∃ text, app.beginBlock request = ⟨[⟨"block", [⟨"header", text, false⟩]⟩]⟩ ∧
          Header.codec.ofString text = .ok request.header ∧
          BeginBlockResponse.codec.ofString (BeginBlockResponse.codec.compact (app.beginBlock request)) =
            .ok ⟨[⟨"block", [⟨"header", text, false⟩]⟩]⟩ := by
  refine ⟨fun kind hkind x => ?_, fun app request => ⟨Header.codec.compact request.header, rfl, ?_, ?_⟩⟩
  · have h := faithful_contract kind hkind
    exact ⟨h.ofString_compact x, fun content t => h.ofBytes, fun j => h.ofBytes_compact⟩
  · exact Header.faithful.ofString_compact request.header
  · exact BeginBlockResponse.faithful.ofString_compact (app.beginBlock request)

/-- The start of a chain with one validator, its members out of order, one unknown, and the most left out. The value of
the key stands before its type. -/
theorem read_start_out_of_order :
    let key : PublicKey := .ed25519 [0, 1, 2, 255]
    let request : InitChainRequest := { chainId := "ledger", validators := [⟨"A\"B", key, Int64.minValue⟩] }
    let document : Json := .record [
      ("validators", .list [.record [
        ("power", .ofInt64 Int64.minValue),
        ("pub_key", .record [("value", .text "AAEC/w=="), ("curve", .null), ("type", .text "ed25519")]),
        ("address", .text "A\"B")]]),
      ("extra", .record [("time", .list [])]),
      ("chain_id", .text "ledger")]
    InitChainRequest.codec.ofBytes (Bytes.ofString document.compact) = .ok request ∧
      InitChainRequest.codec.ofBytes (Bytes.ofString document.pretty) = .ok request := by
  intro key request document
  have hbase64 : "AAEC/w==" = Base64.encode [0, 1, 2, 255] := by decide +kernel
  have hkey : Spells PublicKey.codec key
      (Json.record [("value", .text "AAEC/w=="), ("curve", .null), ("type", .text "ed25519")]).toTree := by
    rw [hbase64]
    exact .mapped rfl (.tagged (told_memberTrees (by decide)) rfl rfl)
  have hupdate : Spells ValidatorUpdate.codec ⟨"A\"B", key, Int64.minValue⟩ (Json.record [
      ("power", .ofInt64 Int64.minValue),
      ("pub_key", .record [("value", .text "AAEC/w=="), ("curve", .null), ("type", .text "ed25519")]),
      ("address", .text "A\"B")]).toTree :=
    .of_fields ⟨by decide, fun _ => rfl, fun _ => rfl, fun _ => rfl, fun _ => rfl, trivial⟩
      (told_memberTrees (by decide)) ⟨.shown rfl .text, .shown rfl hkey, .shown rfl .int64, trivial⟩
  have hrequest : Spells InitChainRequest.codec request document.toTree :=
    .of_fields
      ⟨by decide, fun _ => rfl, fun _ => rfl, fun _ => rfl, fun _ => rfl, fun _ => rfl, fun _ => rfl, fun _ => rfl,
        trivial⟩
      (told_memberTrees (by decide))
      ⟨.left_out rfl rfl, .shown rfl .text, .left_out rfl rfl,
        .shown rfl (.list rfl (List.forall_mem_singleton.mpr hupdate)), .left_out rfl rfl, .left_out rfl rfl, trivial⟩
  have hexact : document.isExact = true := rfl
  have hmem : ⟨InitChainRequest.codec⟩ ∈ contract := List.mem_of_getElem? (i := 13) rfl
  obtain ⟨-, hdocument, hvalue⟩ := read_however_written.1 _ hmem request
  exact ⟨hvalue document hexact hrequest, hdocument _ _ (ofBytes_pretty hexact) hrequest⟩

end StakeLedger.Engine
