import StakeLedger.CommandLine
import StakeLedger.Config.Environment
import StakeLedger.Node

namespace StakeLedger

structure Launch where
  config : Config
  level : Config.Level
  deriving Repr

namespace Launch

open CommandLine

def usageCode : UInt32 := 2

def failureCode : UInt32 := 1

def exitCode : Except Run.Error Unit → UInt32
  | .ok () => 0
  | .error _ => failureCode

/-- The arguments come before the environment and the environment before the file. -/
def configure (config : Config) (arguments : Arguments) : Config :=
  let config := match arguments.rpcAddress with
    | some address =>
      { config with node :=
        { config.node with rpcHost := address.host.text, rpcPort := .ofNat address.port } }
    | none => config
  match arguments.logLevel with
  | some level => { config with node := { config.node with logLevel := level } }
  | none => config

def prepare (arguments : Arguments) (disk : Disk) (environment : String → Option String) :
    Except Config.Error Launch := do
  match (Config.load disk ⟨arguments.dataDirectory⟩).applyProcess environment with
  | (_, some e) => .error e
  | (config, none) =>
    let config := configure config arguments
    return ⟨config, ← config.logLevel⟩

def greeting (launch : Launch) : List String := [
  "Starting Baseledger node...", "Chain: " ++ launch.config.node.chainId,
  "Data: " ++ launch.config.dataDirectory.text]

def isHeard (launch : Launch) : Bool := launch.level.shows .info

end Launch

end StakeLedger
