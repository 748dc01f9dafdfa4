import StakeLedger.Launch
import StakeLedger.Proofs.Network.Address
import StakeLedger.Proofs.Node

/-!
What becomes of an address that the command line takes: it is written into the configuration as a host
and a port, and read from there again when a node starts.

Main statement: `accepted_address`.
-/

namespace StakeLedger

open Network

namespace CommandLine

variable {r r' : Reader} {flag : Flag} {value : String} {args : List String} {arguments : Arguments}

def Arguments.Read (a : Arguments) : Prop :=
  ∀ address, a.rpcAddress = some address → ∃ text, Address.parse? text = some address

theorem Arguments.Read.set {a a' : Arguments} (h : a.Read) (hset : a.set flag value = .ok a') : a'.Read := by
  cases flag with
  | dataDirectory =>
    simp only [Arguments.set] at hset
    split at hset
    · cases hset
    · cases hset
      exact h
  | rpcAddress =>
    simp only [Arguments.set] at hset
    split at hset
    · next address hparse =>
      cases hset
      exact fun _ heq => ⟨value, Option.some.inj heq ▸ hparse⟩
    · cases hset
  | logLevel =>
    cases hset
    exact h

theorem read_set (h : r.arguments.Read) (hset : r.set flag value = .ok r') : r'.arguments.Read := by
  rw [Reader.set] at hset
  split at hset
  · cases hset
  · obtain ⟨arguments, harguments, rfl⟩ := map_eq_ok.mp hset
    exact h.set harguments

theorem settled_eq_ok (h : r.settled = .ok r') : r' = r := by
  rw [Reader.settled] at h
  split at h
  · cases h
  · exact (Except.ok.inj h).symm

theorem read_readAll (h : r.arguments.Read) (hrun : readAll r args = .ok (.run arguments)) : arguments.Read := by
  have hend : ∀ {r : Reader}, r.arguments.Read → r.settled.map (fun r => Command.run r.arguments) = .ok (.run arguments) →
      arguments.Read := by
    intro r h hend
    obtain ⟨r', hsettled, heq⟩ := map_eq_ok.mp hend
    cases heq
    exact settled_eq_ok hsettled ▸ h
  induction args generalizing r with
  | nil => exact hend h hrun
  | cons argument rest ih =>
    unfold readAll at hrun
    split at hrun
    · split at hrun
      · obtain ⟨r', hset, hrun⟩ := bind_eq_ok.mp hrun
        exact ih (read_set h hset) hrun
      · cases hrun
    · split at hrun
      · exact hend h hrun
      · cases hrun
    · obtain ⟨_, -, hrun⟩ := bind_eq_ok.mp hrun
      split at hrun
      · cases hrun
      · split at hrun <;> cases hrun
    · obtain ⟨r', hsettled, hrun⟩ := bind_eq_ok.mp hrun
      rw [← settled_eq_ok hsettled] at h
      split at hrun
      · obtain ⟨r', hset, hrun⟩ := bind_eq_ok.mp hrun
        exact ih (read_set h hset) hrun
      · refine ih ?_ hrun
        exact h
      · split at hrun
        · cases hrun
        · split at hrun
          · cases hrun
          · split at hrun <;> cases hrun

theorem read_parse (hrun : parse args = .ok (.run arguments)) : arguments.Read := by
  refine read_readAll ?_ hrun
  intro _ hnone
  cases hnone

end CommandLine

namespace Launch

variable {args : List String} {arguments : CommandLine.Arguments} {address : Address} {config : Config}

structure Serves (config : Config) (address : Address) : Prop where
  rpcAddress : config.rpcAddress = .ok address
  served {σ : Type} (link : Link σ) (disk : Disk) :
    Session.Answers (Node.boot link config disk) fun booted => Node.EndsAt address (booted.map Prod.fst)

structure Refuses (config : Config) (e : Config.Error) : Prop where
  rpcAddress : config.rpcAddress = .error e
  refused {σ : Type} (link : Link σ) (disk : Disk) (s : σ) :
    (Node.boot link config disk).run.run s = (some (.error (.config e)), s)

theorem serves_of_rpcAddress (h : config.rpcAddress = .ok address) : Serves config address :=
  ⟨h, fun _ _ => Node.boot_endsAt h⟩

theorem refuses_of_rpcAddress {e : Config.Error} (h : config.rpcAddress = .error e) : Refuses config e :=
  ⟨h, fun _ _ _ => Node.boot_error h⟩

theorem configure_node (config : Config) (haddress : arguments.rpcAddress = some address) :
    (configure config arguments).node.rpcHost = address.host.text ∧
      (configure config arguments).node.rpcPort = .ofNat address.port := by
  rw [configure, haddress]
  cases arguments.logLevel with
  | none => exact ⟨rfl, rfl⟩
  | some level => exact ⟨rfl, rfl⟩

theorem prepare_config {disk : Disk} {environment : String → Option String} {launch : Launch}
    (h : prepare arguments disk environment = .ok launch) :
    ∃ config, launch.config = configure config arguments := by
  rw [prepare] at h
  split at h
  · cases h
  · next config _ =>
    obtain ⟨level, -, h⟩ := bind_eq_ok.mp h
    exact ⟨config, congrArg Launch.config (Except.ok.inj h).symm⟩

theorem written_address (config : Config) (haddress : arguments.rpcAddress = some address) (hport : address.port < 65536) :
    (configure config arguments).node.rpcHost ++ ":" ++ toString (configure config arguments).node.rpcPort =
      address.host.text ++ ":" ++ toString address.port := by
  obtain ⟨hrpcHost, hrpcPort⟩ := configure_node config haddress
  have hnat : (UInt16.ofNat address.port).toNat = address.port := UInt16.toNat_ofNat_of_lt' hport
  rw [hrpcHost, hrpcPort]
  exact congrArg (fun n : Nat => address.host.text ++ ":" ++ toString n) hnat

/-- Whatever the file and the environment left in the configuration, an address of four octets that the
command line takes is the one that is served. The host of one of eight groups is written without the
brackets it was read with, so that no node starts from it. -/
theorem accepted_address (hrun : CommandLine.parse args = .ok (.run arguments))
    (haddress : arguments.rpcAddress = some address) :
    (∀ config, ∀ octets, address.host = .v4 octets → Serves (configure config arguments) address) ∧
      (∀ config, ∀ groups, address.host = .v6 groups → Refuses (configure config arguments)
        ⟨"node.rpc_host", address.host.text ++ ":" ++ toString address.port, .address⟩) ∧
      ∀ disk environment launch, prepare arguments disk environment = .ok launch →
        ∃ config, launch.config = configure config arguments := by
  obtain ⟨text, hparse⟩ := CommandLine.read_parse hrun address haddress
  obtain ⟨hport, hhost⟩ := parse?_cases hparse
  refine ⟨fun config octets hv4 => ?_, fun config groups hv6 => ?_, fun _ _ _ => prepare_config⟩
  · have hwritten := written_address config haddress hport
    obtain ⟨os, hos, hhost, hscope⟩ | ⟨groups, hhost⟩ := hhost
    · obtain ⟨host, scope, port⟩ := address
      dsimp only at hhost hscope
      subst hhost hscope
      apply serves_of_rpcAddress
      rw [Config.rpcAddress, hwritten, parse?_octets hos hport]
    · rw [hhost] at hv4
      cases hv4
  · apply refuses_of_rpcAddress
    rw [Config.rpcAddress, written_address config haddress hport, hv6, parse?_groups]

/-- Two ways to write the loopback: four octets are served, eight groups are not. -/
theorem accepted_loopback :
    Serves (configure { node := { rpcHost := "nowhere" } } { rpcAddress := some ⟨.v4 [127, 0, 0, 1], 0, 1337⟩ })
        ⟨.v4 [127, 0, 0, 1], 0, 1337⟩ ∧
      Refuses (configure { node := { rpcHost := "nowhere" } }
          { rpcAddress := some ⟨.v6 [0, 0, 0, 0, 0, 0, 0, 1], 0, 1337⟩ })
        ⟨"node.rpc_host", "::1:1337", .address⟩ := by
  have hoctets : CommandLine.parse ["--rpc-addr", "127.0.0.1:1337"] =
      .ok (.run { rpcAddress := some ⟨.v4 [127, 0, 0, 1], 0, 1337⟩ }) := by decide +kernel
  have hgroups : CommandLine.parse ["--rpc-addr=[::1]:1337"] =
      .ok (.run { rpcAddress := some ⟨.v6 [0, 0, 0, 0, 0, 0, 0, 1], 0, 1337⟩ }) := by decide +kernel
  have htext : (Host.v6 [0, 0, 0, 0, 0, 0, 0, 1]).text ++ ":" ++ toString 1337 = "::1:1337" := by decide +kernel
  exact ⟨(accepted_address hoctets rfl).1 _ _ rfl, htext ▸ (accepted_address hgroups rfl).2.1 _ _ rfl⟩

/-- An address that the command line takes and no node is served at. -/
theorem unserved_loopback :
    ∃ arguments address, CommandLine.parse ["--rpc-addr", "[::1]:1337"] = .ok (.run arguments) ∧
      arguments.rpcAddress = some address ∧ ¬ Serves (configure {} arguments) address := by
  refine ⟨{ rpcAddress := some ⟨.v6 [0, 0, 0, 0, 0, 0, 0, 1], 0, 1337⟩ }, _, by decide +kernel, rfl, ?_⟩
  intro hserves
  have hrefused : (configure {} { rpcAddress := some ⟨.v6 [0, 0, 0, 0, 0, 0, 0, 1], 0, 1337⟩ }).rpcAddress =
      .error ⟨"node.rpc_host", "::1:1337", .address⟩ := by decide +kernel
  exact nomatch hrefused.symm.trans hserves.rpcAddress

end Launch

end StakeLedger
