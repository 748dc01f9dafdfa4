import StakeLedger.Genesis.Load
import StakeLedger.Proofs.Json.Agreement

/-!
A genesis document is the same whether it is read from a file or taken from a server, and whether the server
answers with the document or wraps it. Main statement: `sources_agree`.
-/

namespace StakeLedger.Genesis

open Json Codec

theorem agrees_integer : integer.Agrees := by
  refine ⟨fun {room depth t j n} h hk hd => ?_⟩
  change (Opaque.read depth j.toTree >>= _) = _ ↔ (Opaque.read room t >>= _) = _
  rw [bind_eq_ok, bind_eq_ok]
  exact exists_congr fun x => and_congr_left fun _ => agrees_opaqueValue.read h hk hd

theorem BlockParams.agrees : BlockParams.codec.Agrees :=
  .record (by decide) ⟨agrees_integer, agrees_integer, agrees_integer, trivial⟩

theorem EvidenceParams.agrees : EvidenceParams.codec.Agrees :=
  .record (by decide) ⟨agrees_integer, agrees_integer, agrees_integer, trivial⟩

theorem agrees_validatorParams : Engine.ValidatorParams.codec.Agrees :=
  .record (by decide) ⟨agrees_text.list, trivial⟩

theorem VersionParams.agrees : VersionParams.codec.Agrees :=
  .record (by decide) ⟨agrees_integer, trivial⟩

theorem ConsensusParams.agrees : ConsensusParams.codec.Agrees :=
  .record (by decide)
    ⟨BlockParams.agrees, EvidenceParams.agrees, agrees_validatorParams, VersionParams.agrees, trivial⟩

theorem PublicKey.agrees : PublicKey.codec.Agrees :=
  .record (by decide) ⟨agrees_text, agrees_text, trivial⟩

theorem Member.agrees : Member.codec.Agrees :=
  .record (by decide) ⟨agrees_text, PublicKey.agrees, agrees_integer, agrees_text, trivial⟩

theorem agrees : codec.Agrees :=
  .record (by decide)
    ⟨agrees_text, agrees_text, agrees_integer, ConsensusParams.agrees.optional, Member.agrees.list, agrees_text,
      agrees_opaqueValue, trivial⟩

/-- Two ways lead to the same document, or neither finds one. -/
def Alike (x y : Except LoadError Genesis) : Prop :=
  (∃ g, x = .ok g ∧ y = .ok g) ∨ ∃ e e', x = .error (.parse e) ∧ y = .error (.parse e')

theorem alike_of_iff {x y : Except Fault Genesis} (h : ∀ g, x = .ok g ↔ y = .ok g) :
    Alike (x.mapError .parse) (y.mapError .parse) := by
  cases x with
  | ok g =>
    rw [(h g).mp rfl]
    exact .inl ⟨g, rfl, rfl⟩
  | error e =>
    cases y with
    | ok g => exact nomatch (h g).mpr rfl
    | error e' => exact .inr ⟨e, e', rfl, rfl⟩

def Wraps (body : Opaque) (document : Json) : Prop :=
  ∃ ms rs, body.value = .record ms ∧ ("result", .record rs) ∈ ms ∧ ("genesis", document) ∈ rs

theorem get?_of_mem {ms : List (String × Json)} {name : String} {x : Json} (h : (Json.record ms).isCanonical = true)
    (hm : (name, x) ∈ ms) : (Json.record ms).get? name = some x := by
  rw [isCanonical, Bool.and_eq_true] at h
  exact lookup_of_mem h.1 hm

theorem Wraps.ofResponse {body : Opaque} {document : Json} (h : Wraps body document) :
    ofResponse body = (codec.ofJson document).mapError .parse := by
  obtain ⟨ms, rs, hbody, hresult, hgenesis⟩ := h
  have hms := body.canonical
  rw [hbody] at hms
  have hrs : (Json.record rs).isCanonical = true := by
    rw [isCanonical, Bool.and_eq_true] at hms
    exact canonical_of_mem hms.2 hresult
  rw [Genesis.ofResponse, hbody, get?_of_mem hms hresult, Option.bind_some, get?_of_mem hrs hgenesis, Option.getD_some]

/-- A text that stands for a value in which no record has two members of one name: as a file it gives the document
that a server gives by answering with the value, or both are refused. And a server that wraps a value gives what the
value is read as. -/
theorem sources_agree :
    (∀ content body, Codec.opaqueValue.ofBytes content = .ok body →
      (Document.ofBytes content).tree.keysDistinct = true →
      (body.value.get? "result").bind (·.get? "genesis") = none → Alike (parse content) (ofResponse body)) ∧
    ∀ body document, Wraps body document → ofResponse body = (codec.ofJson document).mapError .parse := by
  refine ⟨fun content body hvalue hk hbare => ?_, fun body document hw => hw.ofResponse⟩
  obtain ⟨hread, htrailing⟩ := ofBytes_eq_ok.mp hvalue
  rw [ofResponse, hbare, Option.getD_none, parse]
  refine alike_of_iff fun g => ?_
  rw [ofBytes_eq_ok, and_iff_left htrailing]
  exact (agrees.read (Opaque.value_of_read hread) hk (Nat.le_refl _)).symm

/-- Fields out of order, an unknown one, a validator given as a list and its power as a string. -/
theorem sources_agree_past_unknown_field :
    let content := Bytes.ofString
      "\x7b\"validators\": [[\"a\", [\"k\", \"v\"], \" 5 \"]], \"note\": 0, \"chain_id\": \"x\"\x7d"
    let member := Json.list [.text "a", .list [.text "k", .text "v"], .text " 5 "]
    let document := Json.record [("chain_id", .text "x"), ("note", .ofInt64 0), ("validators", .list [member])]
    let wrapper := Json.record [("id", .ofInt64 1), ("result", .record [("genesis", document)])]
    let g := { default with chainId := "x", validators := [⟨"a", ⟨"k", "v"⟩, 5, ""⟩] }
    ∃ body wrapped : Opaque, body.value = document ∧ wrapped.value = wrapper ∧
      Codec.opaqueValue.ofBytes content = .ok body ∧ (Document.ofBytes content).tree.keysDistinct = true ∧
      parse content = .ok g ∧ ofResponse body = .ok g ∧
      ofResponse wrapped = (codec.ofJson document).mapError .parse := by
  intro content member document wrapper g
  let body : Opaque := ⟨document, by decide⟩
  let wrapped : Opaque := ⟨wrapper, by decide⟩
  have hvalue : Codec.opaqueValue.ofBytes content = .ok body := by decide +kernel
  have hk : (Document.ofBytes content).tree.keysDistinct = true := by decide +kernel
  have hparse : parse content = .ok g := by decide +kernel
  obtain ⟨htext, hwrapped⟩ := sources_agree
  refine ⟨body, wrapped, rfl, rfl, hvalue, hk, hparse, ?_,
    hwrapped wrapped document ⟨_, _, rfl, .tail _ (.head _), .head _⟩⟩
  rcases htext content body hvalue hk rfl with ⟨g', hg, hresponse⟩ | ⟨e, e', he, -⟩
  · rwa [Except.ok.inj (hparse.symm.trans hg)]
  · exact nomatch hparse.symm.trans he

end StakeLedger.Genesis
