import StakeLedger.Network.Link

namespace StakeLedger.Network

inductive Question
  | send (request : Request)
  | reach (address : String)
  deriving Repr

inductive Answer
  | reply (r : Option Reply)
  | reached (b : Bool)
  deriving Repr

structure Conversation where
  known : List Answer
  wanted : Option Question := none
  deriving Repr

namespace Conversation

def ask (question : Question) : Session Conversation Answer :=
  OptionT.mk fun c =>
    match c.known with
    | answer :: rest => (some answer, { c with known := rest })
    | [] => (none, { c with wanted := c.wanted.or (some question) })

def link : Link Conversation where
  send request := do
    match ← ask (.send request) with
    | .reply r => return r
    | .reached _ => return none
  reaches address := do
    match ← ask (.reach address) with
    | .reached b => return b
    | .reply _ => return false

end Conversation

end StakeLedger.Network
