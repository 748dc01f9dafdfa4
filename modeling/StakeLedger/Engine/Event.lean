import StakeLedger.Json.Record

namespace StakeLedger.Engine

open Json

structure EventAttribute where
  key : String
  value : String
  index : Bool
  deriving DecidableEq, Inhabited, Repr

def EventAttribute.codec : Codec EventAttribute :=
  .record
    (.cons (.required "key" .text) <|
      .cons (.required "value" .text) <|
      .cons (.orElse "index" .bool false) .nil)
    (fun (key, value, index, _) => ⟨key, value, index⟩)
    (fun a => (a.key, a.value, a.index, ()))

structure Event where
  kind : String
  attributes : List EventAttribute
  deriving DecidableEq, Inhabited, Repr

def Event.codec : Codec Event :=
  .record
    (.cons (.required "type" .text) <|
      .cons (.orElse "attributes" (.list EventAttribute.codec) []) .nil)
    (fun (kind, attributes, _) => ⟨kind, attributes⟩)
    (fun e => (e.kind, e.attributes, ()))

end StakeLedger.Engine
