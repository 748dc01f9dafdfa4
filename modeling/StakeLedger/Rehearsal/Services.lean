import StakeLedger.Platform.Script
import StakeLedger.Staking.Bootstrap

namespace StakeLedger.Rehearsal

open Platform Staking

abbrev World := Script × List Call

structure FeedScript where
  payloads : List Bytes := []
  subscribeFails : Bool := false
  deriving Repr

structure Services where
  contracts : Script := {}
  feed : Option FeedScript := none
  deriving Repr

namespace Services

def world (s : Services) : World := (s.contracts, [])

def relays (s : Services) : Bool := s.feed.isNone

def subscribe (s : Services) : Subscribe := fun subject bearer =>
  match s.feed with
  | none => Flow.subscribe .empty subject bearer
  | some feed =>
    if feed.subscribeFails then .error Script.failure
    else
      let (channel, feed) := Feed.empty.addEnded subject feed.payloads
      .ok ⟨feed, { channel, subject }⟩

def source (s : Services) : Source World :=
  ⟨Script.service, fun subject bearer => return s.subscribe subject bearer⟩

def vended? (world : World) : Option String :=
  world.2.findSome? fun call => match call with
    | .vend address => some address
    | _ => none

def calls (s : Services) (subject : String) (hasLeft : Bool) (world : World) : List Json :=
  let ofFeed := match s.feed, vended? world with
    | some _, some address =>
      let bearer := if world.1.vendFails then Json.null else .text (Script.bearer address)
      .list [.text "subscribe", .text subject, bearer] ::
        (if hasLeft then [.list [.text "unsubscribe", .text subject]] else [])
    | _, _ => []
  world.2.map Call.document ++ ofFeed

def callsOf (s : Services) (pipeline : Pipeline) (world : World) : List Json :=
  s.calls (pipeline.subject.getD "") (pipeline.workers.any (·.ingest == .exited)) world

end Services

end StakeLedger.Rehearsal
