import StakeLedger.Proofs.Outcome
import StakeLedger.Staking.Target

/-!
Which contract is followed, over all settings and genesis documents. The settings come first; a network that is not
known is refused only where there is an address, or a list of networks, to look it up for.
Main statement: `resolve_outcomes`.
-/

namespace StakeLedger.Staking

variable {network id : String}

theorem platformNetworkId_eq_ok :
    platformNetworkId network = .ok id ↔ network = ropsten ∧ id = "66d44f30-9092-4182-a3c4-bc02736d6ae5" := by
  rw [platformNetworkId]
  by_cases hn : network = ropsten
  · rw [if_pos hn, Except.ok.injEq]
    exact ⟨fun h => ⟨hn, h.symm⟩, fun h => h.2.symm⟩
  · rw [if_neg hn]
    exact ⟨nofun, fun h => absurd h.1 hn⟩

theorem platformNetworkId_ne {e : NetworkError} (h : platformNetworkId network = .error e) :
    e = .unrecognized network := by
  rw [platformNetworkId] at h
  split at h
  · cases h
  · exact (Except.error.inj h).symm

namespace Target

variable {settings : Settings} {genesis : Option Params} {address : String} {target : Target} {e : NetworkError}

inductive Deploys : Option Params → String → Prop
  | entry {artifact : Opaque} {address : String} {argv : List Opaque} :
      Deploys (some ⟨some artifact, some ⟨some ⟨some address, argv⟩⟩⟩) address

inductive Lacking (network : String) : Option Params → Prop
  | noSection : Lacking network none
  | noContract {networks : Option Networks} : Lacking network (some ⟨none, networks⟩)
  | noNetworks {contract : Option Opaque} : Lacking network (some ⟨contract, none⟩)
  | noEntry {contract : Option Opaque} (known : network = ropsten) : Lacking network (some ⟨contract, some ⟨none⟩⟩)
  | noAddress {contract : Option Opaque} {argv : List Opaque} (known : network = ropsten) :
      Lacking network (some ⟨contract, some ⟨some ⟨none, argv⟩⟩⟩)

structure Located (settings : Settings) (genesis : Option Params) (target : Target) : Prop where
  known : settings.network = some ropsten
  network : target.network = ropsten
  networkId : target.networkId = "66d44f30-9092-4182-a3c4-bc02736d6ae5"
  address : settings.contractAddress = some target.address ∨
    settings.contractAddress = none ∧ Deploys genesis target.address

inductive Unconfigured (settings : Settings) (genesis : Option Params) : Prop
  | noNetwork (network : settings.network = none)
  | noAddress {network : String} (told : settings.network = some network) (address : settings.contractAddress = none)
      (lacking : Lacking network genesis)

theorem genesisAddress_listed {artifact : Opaque} {networks : Networks} :
    genesisAddress (some ⟨some artifact, some networks⟩) network =
      if network = ropsten then .ok (networks.ropsten.bind Deployment.address) else .error (.unrecognized network) := by
  obtain ⟨entry⟩ := networks
  by_cases hn : network = ropsten
  · cases entry <;> simp [genesisAddress, Params.deployment, Networks.deployment, hn]
  · simp [genesisAddress, Params.deployment, Networks.deployment, hn]

theorem genesisAddress_eq_some :
    genesisAddress genesis network = .ok (some address) ↔ network = ropsten ∧ Deploys genesis address := by
  constructor
  · intro h
    rcases genesis with _ | ⟨_ | artifact, _ | networks⟩
    case some.some.some =>
      rw [genesisAddress_listed] at h
      split at h
      · next hn =>
        obtain ⟨_ | ⟨address', argv⟩⟩ := networks <;> cases h
        exact ⟨hn, .entry⟩
      · cases h
    all_goals cases h
  · rintro ⟨rfl, ⟨⟩⟩
    rfl

theorem genesisAddress_eq_none : genesisAddress genesis network = .ok none ↔ Lacking network genesis := by
  constructor
  · intro h
    rcases genesis with _ | ⟨_ | artifact, _ | networks⟩
    case none => exact .noSection
    case some.none.none | some.none.some => exact .noContract
    case some.some.none => exact .noNetworks
    case some.some.some =>
      rw [genesisAddress_listed] at h
      split at h
      · next hn =>
        obtain ⟨_ | ⟨address, argv⟩⟩ := networks
        · exact .noEntry hn
        · cases h
          exact .noAddress hn
      · cases h
  · rintro (_ | _ | @⟨_ | artifact⟩ | @⟨_ | artifact, rfl⟩ | @⟨_ | artifact, argv, rfl⟩) <;> rfl

theorem genesisAddress_ne (h : genesisAddress genesis network = .error e) : e = .unrecognized network := by
  rcases genesis with _ | ⟨_ | artifact, _ | networks⟩
  case some.some.some =>
    rw [genesisAddress_listed] at h
    split at h
    · cases h
    · exact (Except.error.inj h).symm
  all_goals cases h

def addressOn (settings : Settings) (genesis : Option Params) (network : String) :
    Except NetworkError (Option String) :=
  settings.contractAddress.elim (genesisAddress genesis network) fun address => .ok (some address)

theorem resolve_eq (hn : settings.network = some network) : resolve settings genesis =
    addressOn settings genesis network >>= fun found =>
      match found with
      | none => .ok none
      | some address => (platformNetworkId network).map fun id => some ⟨network, id, address⟩ := by
  rw [resolve, hn, addressOn]
  cases settings.contractAddress <;> rfl

theorem addressOn_eq_some : addressOn settings genesis network = .ok (some address) ↔
    settings.contractAddress = some address ∨
      settings.contractAddress = none ∧ network = ropsten ∧ Deploys genesis address := by
  rw [addressOn]
  cases settings.contractAddress with
  | none => simp [genesisAddress_eq_some]
  | some configured => simp

theorem addressOn_eq_none : addressOn settings genesis network = .ok none ↔
    settings.contractAddress = none ∧ Lacking network genesis := by
  rw [addressOn]
  cases settings.contractAddress with
  | none => simp [genesisAddress_eq_none]
  | some configured => simp

theorem addressOn_ne (h : addressOn settings genesis network = .error e) : e = .unrecognized network := by
  rw [addressOn] at h
  cases hc : settings.contractAddress with
  | none =>
    rw [hc] at h
    exact genesisAddress_ne h
  | some configured =>
    rw [hc] at h
    cases h

theorem resolve_eq_some : resolve settings genesis = .ok (some target) ↔ Located settings genesis target := by
  constructor
  · intro h
    cases hn : settings.network with
    | none =>
      rw [resolve, hn] at h
      cases h
    | some network =>
      rw [resolve_eq hn] at h
      obtain ⟨_ | address, haddress, h⟩ := bind_eq_ok.mp h
      · cases h
      · obtain ⟨id, hid, he⟩ := map_eq_ok.mp h
        cases he
        obtain ⟨rfl, rfl⟩ := platformNetworkId_eq_ok.mp hid
        refine ⟨hn, rfl, rfl, ?_⟩
        exact (addressOn_eq_some.mp haddress).imp_right fun ⟨hc, _, hd⟩ => ⟨hc, hd⟩
  · obtain ⟨network, id, address⟩ := target
    rintro ⟨hn, rfl, rfl, haddress⟩
    rw [resolve_eq hn, bind_eq_ok]
    refine ⟨some address, addressOn_eq_some.mpr (haddress.imp_right fun ⟨hc, hd⟩ => ⟨hc, rfl, hd⟩), rfl⟩

theorem resolve_eq_none : resolve settings genesis = .ok none ↔ Unconfigured settings genesis := by
  constructor
  · intro h
    cases hn : settings.network with
    | none => exact .noNetwork hn
    | some network =>
      rw [resolve_eq hn] at h
      obtain ⟨_ | address, haddress, h⟩ := bind_eq_ok.mp h
      · obtain ⟨hc, hl⟩ := addressOn_eq_none.mp haddress
        exact .noAddress hn hc hl
      · obtain ⟨id, -, he⟩ := map_eq_ok.mp h
        cases he
  · rintro (hn | ⟨hn, hc, hl⟩)
    · rw [resolve, hn]
    · rw [resolve_eq hn, bind_eq_ok]
      exact ⟨none, addressOn_eq_none.mpr ⟨hc, hl⟩, rfl⟩

theorem unrecognized_of_resolve (h : resolve settings genesis = .error e) :
    ∃ network, settings.network = some network ∧ e = .unrecognized network := by
  cases hn : settings.network with
  | none =>
    rw [resolve, hn] at h
    cases h
  | some network =>
    refine ⟨network, rfl, ?_⟩
    rw [resolve_eq hn] at h
    cases haddress : addressOn settings genesis network with
    | error e' =>
      rw [haddress] at h
      cases h
      exact addressOn_ne haddress
    | ok found =>
      rw [haddress, ok_bind] at h
      cases found with
      | none => cases h
      | some address => exact platformNetworkId_ne (map_eq_error.mp h)

/-- There is a target exactly where a known network and an address on it are given, none exactly where the network or
the address is not, and in every other case the network is refused by its name. -/
theorem resolve_outcomes (settings : Settings) (genesis : Option Params) :
    (∀ target, resolve settings genesis = .ok (some target) ↔ Located settings genesis target) ∧
    (resolve settings genesis = .ok none ↔ Unconfigured settings genesis) ∧
    ∀ e, resolve settings genesis = .error e ↔
      (∃ network, settings.network = some network ∧ e = .unrecognized network) ∧
        ¬ Unconfigured settings genesis ∧ ∀ target, ¬ Located settings genesis target := by
  refine ⟨fun target => resolve_eq_some, resolve_eq_none, fun e => ⟨fun h => ?_, ?_⟩⟩
  · simp only [← resolve_eq_some, ← resolve_eq_none, h]
    exact ⟨unrecognized_of_resolve h, nofun, nofun⟩
  · -- What is left is an error, and none but this can be raised.
    rintro ⟨⟨network, hn, rfl⟩, hnone, hsome⟩
    cases h : resolve settings genesis with
    | error e =>
      obtain ⟨network', hn', rfl⟩ := unrecognized_of_resolve h
      cases hn.symm.trans hn'
      rfl
    | ok found =>
      cases found with
      | none => exact absurd (resolve_eq_none.mp h) hnone
      | some target => exact absurd (resolve_eq_some.mp h) (hsome target)

end Target

end StakeLedger.Staking
