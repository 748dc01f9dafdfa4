import StakeLedger.Disk.Basic
import StakeLedger.Application.Bootstrap
import StakeLedger.Network.Address
import StakeLedger.Number.Decimal
import StakeLedger.Text.Quoted
import StakeLedger.Toml.Document

namespace StakeLedger

open Json

namespace Config

def optionalText (name : String) : Json.Field (Option String) := .orElse name (.optional .text) none

def uint16 : Codec UInt16 :=
  .integer (fun n => .ofUInt64 n.toUInt64) fun n =>
    if 0 ≤ n ∧ n < 0x10000 then some (.ofNat n.toNat) else none

structure Node where
  chainId : String := Genesis.defaultChainId
  dataDirectory : String := "./baseledger-data"
  genesisFile : String := "genesis.json"
  genesisUrl : Option String := none
  genesisStateUrl : Option String := none
  genesisTime : Option String := none
  rpcHost : String := "127.0.0.1"
  rpcPort : UInt16 := 1337
  logLevel : String := "info"
  deriving DecidableEq, Inhabited, Repr

def Node.codec : Codec Node :=
  let d : Node := {}
  .record
    (.cons (.orElse "chain_id" .text d.chainId) <|
      .cons (.orElse "data_dir" .text d.dataDirectory) <|
      .cons (.orElse "genesis_file" .text d.genesisFile) <|
      .cons (optionalText "genesis_url") <|
      .cons (optionalText "genesis_state_url") <|
      .cons (optionalText "genesis_time") <|
      .cons (.orElse "rpc_host" .text d.rpcHost) <|
      .cons (.orElse "rpc_port" uint16 d.rpcPort) <|
      .cons (.orElse "log_level" .text d.logLevel) .nil)
    (fun (chainId, dataDirectory, genesisFile, genesisUrl, genesisStateUrl, genesisTime, rpcHost,
        rpcPort, logLevel, _) =>
      ⟨chainId, dataDirectory, genesisFile, genesisUrl, genesisStateUrl, genesisTime, rpcHost,
        rpcPort, logLevel⟩)
    (fun n => (n.chainId, n.dataDirectory, n.genesisFile, n.genesisUrl, n.genesisStateUrl,
      n.genesisTime, n.rpcHost, n.rpcPort, n.logLevel, ()))

def stakingCodec : Codec Staking.Settings :=
  .record
    (.cons (optionalText "network") <| .cons (optionalText "contract_address") .nil)
    (fun (network, contractAddress, _) => ⟨network, contractAddress⟩)
    (fun s => (s.network, s.contractAddress, ()))

structure Entropy where
  contractAddress : Option String := none
  /-- Blocks between fetches; zero means never. -/
  interval : UInt64 := 100
  timeoutMs : UInt64 := 5000
  deriving DecidableEq, Inhabited, Repr

def Entropy.codec : Codec Entropy :=
  let d : Entropy := {}
  .record
    (.cons (optionalText "contract_address") <|
      .cons (.orElse "interval" .uint64 d.interval) <|
      .cons (.orElse "timeout_ms" .uint64 d.timeoutMs) .nil)
    (fun (contractAddress, interval, timeoutMs, _) => ⟨contractAddress, interval, timeoutMs⟩)
    (fun e => (e.contractAddress, e.interval, e.timeoutMs, ()))

structure Peers where
  filterTimeoutMs : UInt64 := 2500
  deriving DecidableEq, Inhabited, Repr

def Peers.codec : Codec Peers :=
  let d : Peers := {}
  .record (.cons (.orElse "filter_timeout_ms" .uint64 d.filterTimeoutMs) .nil)
    (fun (filterTimeoutMs, _) => ⟨filterTimeoutMs⟩)
    (fun p => (p.filterTimeoutMs, ()))

/-- The refresh token only comes from the environment. -/
structure Platform where
  identUrl : String := "https://ident.provide.services"
  nchainUrl : String := "https://nchain.provide.services"
  refreshToken : Option String := none
  deriving DecidableEq, Inhabited, Repr

def Platform.codec : Codec Platform :=
  let d : Platform := {}
  .record
    (.cons (.orElse "ident_url" .text d.identUrl) <|
      .cons (.orElse "nchain_url" .text d.nchainUrl) .nil)
    (fun (identUrl, nchainUrl, _) => ⟨identUrl, nchainUrl, none⟩)
    (fun p => (p.identUrl, p.nchainUrl, ()))

end Config

structure Config where
  node : Config.Node := {}
  staking : Staking.Settings := {}
  entropy : Config.Entropy := {}
  peers : Config.Peers := {}
  platform : Config.Platform := {}
  deriving DecidableEq, Repr

instance : Inhabited Config := ⟨{}⟩

namespace Config

def codec : Codec Config :=
  .record
    (.cons (.orElse "node" Node.codec {}) <|
      .cons (.orElse "staking" stakingCodec {}) <|
      .cons (.orElse "entropy" Entropy.codec {}) <|
      .cons (.orElse "p2p" Peers.codec {}) <|
      .cons (.orElse "platform" Platform.codec {}) .nil)
    (fun (node, staking, entropy, peers, platform, _) => ⟨node, staking, entropy, peers, platform⟩)
    (fun c => (c.node, c.staking, c.entropy, c.peers, c.platform, ()))

def fileName : Path := ⟨"baseledger.toml"⟩

/-- A text that is no configuration gives the defaults. -/
def ofText (text : String) : Config :=
  match (Toml.parse? text).map codec.ofJson with
  | some (.ok config) => config
  | _ => default

/-- The configuration of a data directory; a file that cannot be read gives the defaults. -/
def load (disk : Disk) (directory : Path) : Config :=
  let config := match disk.read (directory.join fileName) with
    | .ok content => (Utf8.text? content).elim default ofText
    | .error _ => default
  { config with node := { config.node with dataDirectory := directory.text } }

inductive Fault
  | integer (fault : Decimal.Fault)
  | address
  | level
  deriving DecidableEq, Repr

def Fault.message : Fault → String
  | .integer fault => fault.message
  | .address => "invalid socket address syntax"
  | .level =>
    "error parsing level: expected one of \"error\", \"warn\", \"info\", \"debug\", \"trace\", "
      ++ "or a number 1-5"

structure Error where
  key : String
  value : String
  fault : Fault
  deriving DecidableEq, Repr

def Error.message (e : Error) : String :=
  "invalid value for " ++ e.key ++ ": " ++ Text.quoted e.value ++ " (" ++ e.fault.message ++ ")"

inductive Level
  | error
  | warn
  | info
  | debug
  | trace
  deriving DecidableEq, Repr

namespace Level

def all : List Level := [error, warn, info, debug, trace]

def name : Level → String
  | error => "error"
  | warn => "warn"
  | info => "info"
  | debug => "debug"
  | trace => "trace"

def shows (level other : Level) : Bool := all.idxOf other ≤ all.idxOf level

def parse? (text : String) : Option Level :=
  match Decimal.parse Decimal.uint64 text.toList with
  | .ok n => if 1 ≤ n then all[(n - 1).toNat]? else none
  | .error _ =>
    all.find? fun level => level.name.toList == text.toList.map Char.toLower

end Level

def dataDirectory (c : Config) : Path := ⟨c.node.dataDirectory⟩

def genesisPath (c : Config) : Path := c.dataDirectory.join ⟨c.node.genesisFile⟩

def rpcAddress (c : Config) : Except Error Network.Address :=
  let text := c.node.rpcHost ++ ":" ++ toString c.node.rpcPort
  match Network.Address.parse? text with
  | some a => .ok a
  | none => .error ⟨"node.rpc_host", text, .address⟩

def logLevel (c : Config) : Except Error Level :=
  match Level.parse? c.node.logLevel with
  | some l => .ok l
  | none => .error ⟨"node.log_level", c.node.logLevel, .level⟩

def applicationSettings (c : Config) : Application.Settings :=
  ⟨c.dataDirectory, c.entropy.interval, c.entropy.contractAddress, c.staking⟩

end Config

end StakeLedger
