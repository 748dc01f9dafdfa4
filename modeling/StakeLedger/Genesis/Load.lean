import StakeLedger.Config.Basic
import StakeLedger.Http.Status
import StakeLedger.Network.Link

/-!
Where a node gets its genesis document: from a server, from its data directory, or made up here. The
first of these that is configured or exists counts, and its failure is final.
-/

namespace StakeLedger.Genesis

open Network

inductive FetchFault
  | request
  | status (code : Nat)
  | undecodable
  deriving DecidableEq, Repr

def FetchFault.message : FetchFault → String
  | .request => "request failed"
  | .status code => "status " ++ Http.statusText code
  | .undecodable => "error decoding response body"

inductive LoadError
  | fetch (what url : String) (fault : FetchFault)
  | io (path : Path) (fault : Disk.Fault)
  | parse (fault : StakeLedger.Fault)
  deriving DecidableEq, Repr

def LoadError.message : LoadError → String
  | .fetch what url fault => "failed to fetch " ++ what ++ " from " ++ url ++ ": " ++ fault.message
  | .io path fault => "failed to read genesis file " ++ path.text ++ ": " ++ fault.message
  | .parse fault => "failed to parse genesis: " ++ fault.message

def parse (content : Bytes) : Except LoadError Genesis :=
  (codec.ofBytes content).mapError .parse

/-- A server answers with the document itself, or with a record that holds it as the `genesis` of
its `result`. -/
def ofResponse (body : Opaque) : Except LoadError Genesis :=
  let document := ((body.value.get? "result").bind (·.get? "genesis")).getD body.value
  (codec.ofJson document).mapError .parse

variable {σ : Type}

def fetch (link : Link σ) (what url : String) : Session σ (Except LoadError Opaque) := do
  match ← link.send { method := "GET", url } with
  | none => return .error (.fetch what url .request)
  | some reply =>
    if !reply.isSuccess then return .error (.fetch what url (.status reply.status))
    else return (Codec.opaqueValue.ofBytes reply.body).mapError fun _ =>
      .fetch what url .undecodable

def load (link : Link σ) (config : Config) (disk : Disk) :
    Session σ (Except LoadError Genesis) := do
  let node := config.node
  let path := config.genesisPath
  match node.genesisUrl with
  | some url => return (← fetch link "genesis" url).bind ofResponse
  | none =>
    if disk.holds path then
      match disk.read path with
      | .ok content => return parse content
      | .error fault => return .error (.io path fault)
    else
      let appState ← match node.genesisStateUrl with
        | some url => fetch link "genesis state" url
        | none => pure (.ok .null)
      return appState.map (synthesize node.chainId (node.genesisTime.getD ""))

end StakeLedger.Genesis
