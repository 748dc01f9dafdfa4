import Mathlib.Data.List.Forall2
import StakeLedger.Config.Environment
import StakeLedger.Proofs.Number.Decimal

/-!
What the variables of an environment make of a configuration: each sets one field, and reading stops at the first
number that is none.

Main statement: `overrides_of_environment`.
-/

namespace StakeLedger.Config

open Decimal (StandsFor Words words_uint64 words_uint16)

/-- New values for the fields that an environment may override, as far as it has any. -/
structure Changes where
  chainId : Option String := none
  logLevel : Option String := none
  genesisUrl : Option String := none
  genesisStateUrl : Option String := none
  genesisTime : Option String := none
  stakingNetwork : Option String := none
  stakingAddress : Option String := none
  entropyAddress : Option String := none
  entropyInterval : Option UInt64 := none
  rpcPort : Option UInt16 := none
  refreshToken : Option String := none

namespace Changes

def apply (e : Changes) (c : Config) : Config :=
  { c with
    node := { c.node with
      chainId := e.chainId.getD c.node.chainId
      logLevel := e.logLevel.getD c.node.logLevel
      genesisUrl := e.genesisUrl.or c.node.genesisUrl
      genesisStateUrl := e.genesisStateUrl.or c.node.genesisStateUrl
      genesisTime := e.genesisTime.or c.node.genesisTime
      rpcPort := e.rpcPort.getD c.node.rpcPort }
    staking := { c.staking with
      network := e.stakingNetwork.or c.staking.network
      contractAddress := e.stakingAddress.or c.staking.contractAddress }
    entropy := { c.entropy with
      contractAddress := e.entropyAddress.or c.entropy.contractAddress
      interval := e.entropyInterval.getD c.entropy.interval }
    platform := { c.platform with refreshToken := e.refreshToken.or c.platform.refreshToken } }

/-- Later values count before earlier ones. -/
def andThen (e later : Changes) : Changes where
  chainId := later.chainId.or e.chainId
  logLevel := later.logLevel.or e.logLevel
  genesisUrl := later.genesisUrl.or e.genesisUrl
  genesisStateUrl := later.genesisStateUrl.or e.genesisStateUrl
  genesisTime := later.genesisTime.or e.genesisTime
  stakingNetwork := later.stakingNetwork.or e.stakingNetwork
  stakingAddress := later.stakingAddress.or e.stakingAddress
  entropyAddress := later.entropyAddress.or e.entropyAddress
  entropyInterval := later.entropyInterval.or e.entropyInterval
  rpcPort := later.rpcPort.or e.rpcPort
  refreshToken := later.refreshToken.or e.refreshToken

theorem apply_andThen (e later : Changes) (c : Config) : (e.andThen later).apply c = later.apply (e.apply c) := by
  simp only [apply, andThen, Option.getD_or, Option.or_assoc]

theorem andThen_self (e : Changes) : e.andThen e = e := by simp only [andThen, Option.or_self]

theorem apply_apply (e : Changes) (c : Config) : e.apply (e.apply c) = e.apply c := by
  rw [← apply_andThen, andThen_self]

end Changes

def texts (lookup : String → Option String) : Changes where
  chainId := lookup "BASELEDGER_CHAIN_ID"
  logLevel := lookup "BASELEDGER_LOG_LEVEL"
  genesisUrl := lookup "BASELEDGER_GENESIS_URL"
  genesisStateUrl := lookup "BASELEDGER_GENESIS_STATE_URL"
  genesisTime := lookup "BASELEDGER_GENESIS_TIMESTAMP"
  stakingNetwork := lookup "BASELEDGER_STAKING_NETWORK"
  stakingAddress := lookup "BASELEDGER_STAKING_CONTRACT_ADDRESS"
  entropyAddress := lookup "BASELEDGER_ENTROPY_CONTRACT_ADDRESS"

inductive Says (lookup : String → Option String) : Changes → Prop
  | intro {interval : Option UInt64} {port : Option UInt16} :
    Option.Rel (StandsFor UInt64.toNat) (lookup "BASELEDGER_ENTROPY_INTERVAL") interval →
    Option.Rel (StandsFor UInt16.toNat) (lookup "BASELEDGER_RPC_PORT") port →
    Says lookup { texts lookup with
      entropyInterval := interval
      rpcPort := port
      refreshToken := lookup "PROVIDE_REFRESH_TOKEN" }

structure Readable (lookup : String → Option String) : Prop where
  interval : ∀ v ∈ lookup "BASELEDGER_ENTROPY_INTERVAL", ∃ n, StandsFor UInt64.toNat v n
  port : ∀ v ∈ lookup "BASELEDGER_RPC_PORT", ∃ n, StandsFor UInt16.toNat v n

variable {α : Type} {lookup : String → Option String} {o : Override} {rest : List Override} {c : Config} {e : Changes}
  {v text : String} {r : Decimal.Range} {toNat : α → Nat} {ofNat : Nat → α} {n : α}

theorem readInteger_of_standsFor (hw : Words r toNat ofNat) (h : StandsFor toNat text n) :
    readInteger r text = .ok (toNat n) := by
  rw [readInteger, hw.parse_eq_ok_iff.mpr h]
  rfl

theorem readInteger_eq_error {fault : Decimal.Fault} (h : Decimal.parse r text.toList = .error fault) :
    readInteger r text = .error (.integer fault) := by
  rw [readInteger, h]

inductive Gives (lookup : String → Option String) (o : Override) : Changes → Prop
  | unset : lookup o.name = none → Gives lookup o {}
  | set {v : String} {e : Changes} : lookup o.name = some v → (∀ c, o.apply v c = .ok (e.apply c)) → Gives lookup o e

theorem Gives.applyAll (h : Gives lookup o e) (c : Config) (rest : List Override) :
    applyAll lookup c (o :: rest) = applyAll lookup (e.apply c) rest := by
  cases h with
  | unset hv =>
    simp only [Config.applyAll, hv]
    rfl
  | set hv hset => simp only [Config.applyAll, hv, hset]

theorem applyAll_refused {fault : Fault} (hv : lookup o.name = some v) (h : o.apply v c = .error fault) :
    applyAll lookup c (o :: rest) = (c, some ⟨o.name, v, fault⟩) := by
  simp only [applyAll, hv, h]

theorem applyAll_append {os : List Override} {es : List Changes} (h : List.Forall₂ (Gives lookup) os es) (c : Config)
    (rest : List Override) :
    applyAll lookup c (os ++ rest) = applyAll lookup ((es.foldr Changes.andThen {}).apply c) rest := by
  induction h generalizing c with
  | nil => rfl
  | cons hgives _ ih =>
    rw [List.cons_append, hgives.applyAll, ih, List.foldr_cons, Changes.apply_andThen]

theorem gives_text (change : Option String → Changes) (hnone : change none = {})
    (hsome : ∀ v c, o.apply v c = .ok ((change (some v)).apply c)) : Gives lookup o (change (lookup o.name)) := by
  cases hv : lookup o.name with
  | none => exact hnone ▸ .unset hv
  | some v => exact .set hv (hsome v)

theorem gives_number {x : Option α} (hw : Words r toNat ofNat) (change : Option α → Changes)
    (hnone : change none = {})
    (hsome : ∀ v c, o.apply v c = (readInteger r v).map fun k => (change (some (ofNat k))).apply c)
    (h : Option.Rel (StandsFor toNat) (lookup o.name) x) : Gives lookup o (change x) := by
  generalize hv : lookup o.name = value at h
  cases h with
  | none => exact hnone ▸ .unset hv
  | some hn =>
    refine .set hv fun c => ?_
    rw [hsome, readInteger_of_standsFor hw hn, Except.map, hw.ofNat_toNat]

theorem refused_number (hw : Words r toNat ofNat) {change : Nat → Config → Config}
    (hsome : ∀ v c, o.apply v c = (readInteger r v).map fun k => change k c) (hv : lookup o.name = some v)
    (h : ∀ n, ¬ StandsFor toNat v n) (c : Config) (rest : List Override) :
    ∃ fault, Decimal.parse r v.toList = .error fault ∧
      applyAll lookup c (o :: rest) = (c, some ⟨o.name, v, .integer fault⟩) := by
  obtain ⟨fault, hparse⟩ := hw.parse_eq_error h
  have hread := readInteger_eq_error hparse
  exact ⟨fault, hparse, applyAll_refused hv ((hsome v c).trans (map_eq_error.mpr hread))⟩

theorem applyAll_texts (lookup : String → Option String) (c : Config) :
    c.applyEnvironment lookup = applyAll lookup ((texts lookup).apply c) (overrides.drop 8) := by
  have hgives : List.Forall₂ (Gives lookup) (overrides.take 8) [
      { chainId := lookup "BASELEDGER_CHAIN_ID" },
      { logLevel := lookup "BASELEDGER_LOG_LEVEL" },
      { genesisUrl := lookup "BASELEDGER_GENESIS_URL" },
      { genesisStateUrl := lookup "BASELEDGER_GENESIS_STATE_URL" },
      { genesisTime := lookup "BASELEDGER_GENESIS_TIMESTAMP" },
      { stakingNetwork := lookup "BASELEDGER_STAKING_NETWORK" },
      { stakingAddress := lookup "BASELEDGER_STAKING_CONTRACT_ADDRESS" },
      { entropyAddress := lookup "BASELEDGER_ENTROPY_CONTRACT_ADDRESS" }] :=
    .cons (gives_text (fun v => { chainId := v }) rfl fun _ _ => rfl) <|
    .cons (gives_text (fun v => { logLevel := v }) rfl fun _ _ => rfl) <|
    .cons (gives_text (fun v => { genesisUrl := v }) rfl fun _ _ => rfl) <|
    .cons (gives_text (fun v => { genesisStateUrl := v }) rfl fun _ _ => rfl) <|
    .cons (gives_text (fun v => { genesisTime := v }) rfl fun _ _ => rfl) <|
    .cons (gives_text (fun v => { stakingNetwork := v }) rfl fun _ _ => rfl) <|
    .cons (gives_text (fun v => { stakingAddress := v }) rfl fun _ _ => rfl) <|
    .cons (gives_text (fun v => { entropyAddress := v }) rfl fun _ _ => rfl) .nil
  -- No two of them speak about one field, so that together they are one record.
  have hall := applyAll_append hgives c (overrides.drop 8)
  rw [List.take_append_drop] at hall
  rw [applyEnvironment, hall]
  simp [texts, Changes.andThen]

theorem applyAll_interval {interval : Option UInt64}
    (h : Option.Rel (StandsFor UInt64.toNat) (lookup "BASELEDGER_ENTROPY_INTERVAL") interval) (c : Config) :
    applyAll lookup c (overrides.drop 8) =
      applyAll lookup (({ entropyInterval := interval } : Changes).apply c) (overrides.drop 9) :=
  (gives_number words_uint64 (fun n => { entropyInterval := n }) rfl (fun _ _ => rfl) h).applyAll c (overrides.drop 9)

theorem applyAll_port {port : Option UInt16}
    (h : Option.Rel (StandsFor UInt16.toNat) (lookup "BASELEDGER_RPC_PORT") port) (c : Config) :
    applyAll lookup c (overrides.drop 9) =
      applyAll lookup (({ rpcPort := port } : Changes).apply c) (overrides.drop 10) :=
  (gives_number words_uint16 (fun n => { rpcPort := n }) rfl (fun _ _ => rfl) h).applyAll c (overrides.drop 10)

theorem applyAll_token (lookup : String → Option String) (c : Config) :
    applyAll lookup c (overrides.drop 10) =
      (({ refreshToken := lookup "PROVIDE_REFRESH_TOKEN" } : Changes).apply c, none) :=
  (gives_text (fun v => { refreshToken := v }) rfl fun _ _ => rfl).applyAll c []

theorem interval_refused (hv : lookup "BASELEDGER_ENTROPY_INTERVAL" = some v) (h : ∀ n, ¬ StandsFor UInt64.toNat v n)
    (c : Config) : ∃ fault, Decimal.parse Decimal.uint64 v.toList = .error fault ∧
      applyAll lookup c (overrides.drop 8) = (c, some ⟨"BASELEDGER_ENTROPY_INTERVAL", v, .integer fault⟩) :=
  refused_number words_uint64 (fun _ _ => rfl) hv h c (overrides.drop 9)

theorem port_refused (hv : lookup "BASELEDGER_RPC_PORT" = some v) (h : ∀ n, ¬ StandsFor UInt16.toNat v n)
    (c : Config) : ∃ fault, Decimal.parse Decimal.uint16 v.toList = .error fault ∧
      applyAll lookup c (overrides.drop 9) = (c, some ⟨"BASELEDGER_RPC_PORT", v, .integer fault⟩) :=
  refused_number words_uint16 (fun _ _ => rfl) hv h c (overrides.drop 10)

theorem Says.applyEnvironment (h : Says lookup e) (c : Config) : c.applyEnvironment lookup = (e.apply c, none) := by
  obtain ⟨hinterval, hport⟩ := h
  rw [applyAll_texts, applyAll_interval hinterval, applyAll_port hport, applyAll_token]
  simp only [← Changes.apply_andThen]
  simp [Changes.andThen, texts]

theorem exists_rel {β : Type} {R : α → β → Prop} {x : Option α} (h : ∀ a ∈ x, ∃ b, R a b) :
    ∃ y, Option.Rel R x y := by
  cases x with
  | none => exact ⟨none, .none⟩
  | some a =>
    obtain ⟨b, hb⟩ := h a rfl
    exact ⟨some b, .some hb⟩

theorem Readable.says (h : Readable lookup) : ∃ e, Says lookup e := by
  obtain ⟨interval, hinterval⟩ := exists_rel h.interval
  obtain ⟨port, hport⟩ := exists_rel h.port
  exact ⟨_, .intro hinterval hport⟩

/-- Where its numbers are numbers an environment gives every field that it has a variable for the value of that
variable, and leaves all else as it is. To apply it once more makes no difference, and of two environments the later
one counts where both say something. Otherwise the first number that is none is named, and what stands before it
has been applied, nothing else. -/
theorem overrides_of_environment (c : Config) (lookup : String → Option String) :
    (Readable lookup → ∃ e, Says lookup e ∧ c.applyEnvironment lookup = (e.apply c, none) ∧
      (e.apply c).applyEnvironment lookup = (e.apply c, none) ∧
      ∀ later e', Says later e' → (e.apply c).applyEnvironment later = ((e.andThen e').apply c, none)) ∧
    (∀ v, lookup "BASELEDGER_ENTROPY_INTERVAL" = some v → (∀ n, ¬ StandsFor UInt64.toNat v n) →
      ∃ fault, Decimal.parse Decimal.uint64 v.toList = .error fault ∧ c.applyEnvironment lookup =
        ((texts lookup).apply c, some ⟨"BASELEDGER_ENTROPY_INTERVAL", v, .integer fault⟩)) ∧
    ∀ interval v, Option.Rel (StandsFor UInt64.toNat) (lookup "BASELEDGER_ENTROPY_INTERVAL") interval →
      lookup "BASELEDGER_RPC_PORT" = some v → (∀ n, ¬ StandsFor UInt16.toNat v n) →
      ∃ fault, Decimal.parse Decimal.uint16 v.toList = .error fault ∧ c.applyEnvironment lookup =
        ({ texts lookup with entropyInterval := interval }.apply c, some ⟨"BASELEDGER_RPC_PORT", v, .integer fault⟩) := by
  refine ⟨fun hreadable => ?_, fun v hv hnone => ?_, fun interval v hinterval hv hnone => ?_⟩
  · obtain ⟨e, hsays⟩ := hreadable.says
    have hagain := hsays.applyEnvironment (e.apply c)
    rw [Changes.apply_apply] at hagain
    refine ⟨e, hsays, hsays.applyEnvironment c, hagain, fun later e' hlater => ?_⟩
    rw [hlater.applyEnvironment, Changes.apply_andThen]
  · rw [applyAll_texts]
    exact interval_refused hv hnone _
  · have hbefore : Changes.apply { entropyInterval := interval } ((texts lookup).apply c) =
        { texts lookup with entropyInterval := interval }.apply c := by
      rw [← Changes.apply_andThen]
      simp [Changes.andThen, texts]
    rw [applyAll_texts, applyAll_interval hinterval, hbefore]
    exact port_refused hv hnone _

/-- An environment that is applied twice; one whose port is above its range, so that the interval is applied and the
token is not; and one whose interval has a minus sign, which is named before the port. -/
theorem overrides_past_wrong_number :
    let environment (interval port name : String) : Option String :=
      [("BASELEDGER_CHAIN_ID", "here"), ("BASELEDGER_ENTROPY_INTERVAL", interval), ("BASELEDGER_RPC_PORT", port),
        ("PROVIDE_REFRESH_TOKEN", "secret")].lookup name
    let applied : Config :=
      { node := { chainId := "here", rpcPort := 80 }
        entropy := { interval := 25 }
        platform := { refreshToken := some "secret" } }
    applyEnvironment {} (environment "+25" "0080") = (applied, none) ∧
      applied.applyEnvironment (environment "+25" "0080") = (applied, none) ∧
      applyEnvironment {} (environment "+25" "65536") =
        ({ node := { chainId := "here" }, entropy := { interval := 25 } },
          some ⟨"BASELEDGER_RPC_PORT", "65536", .integer .tooLarge⟩) ∧
      applyEnvironment {} (environment "-0" "65536") =
        ({ node := { chainId := "here" } }, some ⟨"BASELEDGER_ENTROPY_INTERVAL", "-0", .integer .notDigit⟩) := by
  intro environment applied
  have hinterval : StandsFor UInt64.toNat "+25" 25 := words_uint64.parse_eq_ok_iff.mp (by decide)
  have hport : StandsFor UInt16.toNat "0080" 80 := words_uint16.parse_eq_ok_iff.mp (by decide)
  have hlarge : Decimal.parse Decimal.uint16 "65536".toList = .error .tooLarge := by decide
  have hminus : Decimal.parse Decimal.uint64 "-0".toList = .error .notDigit := by decide
  have hreadable : Readable (environment "+25" "0080") := by
    constructor
    · rintro _ ⟨⟩
      exact ⟨25, hinterval⟩
    · rintro _ ⟨⟩
      exact ⟨80, hport⟩
  have hvalue : applyEnvironment {} (environment "+25" "0080") = (applied, none) := by decide
  refine ⟨hvalue, ?_, ?_, ?_⟩
  · obtain ⟨e, -, happlied, hagain, -⟩ := (overrides_of_environment {} (environment "+25" "0080")).1 hreadable
    rw [(Prod.mk.inj (happlied.symm.trans hvalue)).1] at hagain
    exact hagain
  · obtain ⟨fault, hfault, happlied⟩ := (overrides_of_environment {} (environment "+25" "65536")).2.2 (some 25) "65536"
      (.some hinterval) rfl fun n hn => nomatch hlarge.symm.trans (words_uint16.parse_eq_ok_iff.mpr hn)
    cases hlarge.symm.trans hfault
    exact happlied
  · obtain ⟨fault, hfault, happlied⟩ := (overrides_of_environment {} (environment "-0" "65536")).2.1 "-0" rfl
      fun n hn => nomatch hminus.symm.trans (words_uint64.parse_eq_ok_iff.mpr hn)
    cases hminus.symm.trans hfault
    exact happlied

end StakeLedger.Config
