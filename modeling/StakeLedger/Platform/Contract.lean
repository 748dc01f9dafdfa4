import StakeLedger.Json.Opaque
import StakeLedger.Json.Record

namespace StakeLedger.Platform

open Json

inductive Error
  | request
  | status (code : Nat) (body : String)
  | undecodable
  | noSubscriber (subject : String)
  | alreadySubscribed (subject : String)
  | closed
  deriving DecidableEq, Repr

def Error.message : Error → String
  | .request => "platform request failed"
  | .status code body => "platform returned status " ++ toString code ++ ": " ++ body
  | .undecodable => "failed to decode platform response"
  | .noSubscriber subject => "no subscriber for subject " ++ subject
  | .alreadySubscribed subject => "subject " ++ subject ++ " already has a subscriber"
  | .closed => "event feed closed"

structure Contract where
  id : String
  address : String
  name : String
  networkId : String
  deriving DecidableEq, Inhabited, Repr

def Contract.codec : Codec Contract :=
  .record
    (.cons (.orElse "id" .text "") <|
      .cons (.required "address" .text) <|
      .cons (.orElse "name" .text "") <|
      .cons (.orElse "network_id" .text "") .nil)
    (fun (id, address, name, networkId, _) => ⟨id, address, name, networkId⟩)
    (fun c => (c.id, c.address, c.name, c.networkId, ()))

structure NewContract where
  address : String
  name : String
  networkId : String
  params : Opaque
  deriving DecidableEq, Inhabited, Repr

def NewContract.codec : Codec NewContract :=
  .record
    (.cons (.required "address" .text) <|
      .cons (.required "name" .text) <|
      .cons (.required "network_id" .text) <|
      .cons (.required "params" .opaqueValue) .nil)
    (fun (address, name, networkId, params, _) => ⟨address, name, networkId, params⟩)
    (fun c => (c.address, c.name, c.networkId, c.params, ()))

end StakeLedger.Platform
