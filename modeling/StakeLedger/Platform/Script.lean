import StakeLedger.Platform.Service

namespace StakeLedger.Platform

inductive Reading
  | value (bytes : Bytes)
  | failure
  | silence
  deriving DecidableEq, Repr

structure Script where
  known : List Contract := []
  lookupFails : Bool := false
  createFails : Bool := false
  createdAddress : Option String := none
  vendFails : Bool := false
  readings : List Reading := []
  advanceFails : Bool := false
  deriving Repr

namespace Script

def failure : Error := .status 500 "down"

def bearer (address : String) : String := "bearer-" ++ address

def register (s : Script) (contract : NewContract) : Contract :=
  let address := s.createdAddress.getD contract.address
  ⟨"id-" ++ address, address, contract.name, contract.networkId⟩

def read (s : Script) : Option (Except Error Bytes) × Script :=
  match s.readings with
  | [] => (some (.ok []), s)
  | reading :: rest =>
    let s := if rest.isEmpty then s else { s with readings := rest }
    match reading with
    | .value bytes => (some (.ok bytes), s)
    | .failure => (some (.error failure), s)
    | .silence => (none, s)

def answer (s : Script) : (c : Call) → Option (Except Error c.Answer) × Script
  | .find address =>
    (some (if s.lookupFails then .error failure
      else .ok (s.known.find? (·.address == address))), s)
  | .create contract =>
    if s.createFails then (some (.error failure), s)
    else
      let made := s.register contract
      (some (.ok made), { s with known := s.known ++ [made] })
  | .vend address => (some (if s.vendFails then .error failure else .ok (bearer address)), s)
  | .execute _ method _ =>
    if method = readMethod then s.read
    else (some (if s.advanceFails then .error failure else .ok []), s)

def service : Service (Script × List Call) := .recording ⟨fun c s => s.answer c⟩

end Script

def Call.document : Call → Json
  | .find address => .list [.text "get_contract", .text address]
  | .create contract => .list [.text "create_public_contract", NewContract.codec.write contract]
  | .vend address => .list [.text "vend_subscription_token", .text address]
  | .execute address method params =>
    .list [.text "execute_contract", .text address, .text method,
      .list (params.map Opaque.value)]

end StakeLedger.Platform
