import StakeLedger.Platform.Contract

/-!
An event feed within the process. A subject has at most one subscriber, who takes notifications from
the channel that was opened for it; a notification that is handed back goes to the end of the channel
it came from, as long as that is open.
-/

namespace StakeLedger.Platform

abbrev ChannelId := Nat

/-- A notification. One without an origin cannot be handed back. -/
structure Delivery where
  subject : String
  payload : Bytes
  attempts : UInt32 := 0
  origin : Option ChannelId := none
  deriving DecidableEq, Inhabited, Repr

/-- A channel takes notifications while it is open; what it holds can be taken from it after that. -/
structure Channel where
  subject : String
  queue : List Delivery
  isOpen : Bool
  deriving DecidableEq, Inhabited, Repr

structure Feed where
  subscribers : List (String × ChannelId)
  channels : List Channel
  deriving DecidableEq, Inhabited, Repr

inductive Next
  | delivery (d : Delivery)
  | noneYet
  | ended
  deriving DecidableEq, Repr

namespace Feed

def empty : Feed := ⟨[], []⟩

def channel? (feed : Feed) (id : ChannelId) : Option Channel := feed.channels[id]?

def modify (feed : Feed) (id : ChannelId) (f : Channel → Channel) : Feed :=
  { feed with channels := feed.channels.modify id f }

def queue (feed : Feed) (id : ChannelId) : List Delivery :=
  match feed.channel? id with
  | some c => c.queue
  | none => []

def isOpen (feed : Feed) (id : ChannelId) : Bool :=
  match feed.channel? id with
  | some c => c.isOpen
  | none => false

def addEnded (feed : Feed) (subject : String) (payloads : List Bytes) : ChannelId × Feed :=
  (feed.channels.length,
    { feed with channels := feed.channels ++
        [⟨subject, payloads.map fun p => { subject, payload := p }, false⟩] })

def subscribe (feed : Feed) (subject : String) : Except Error (ChannelId × Feed) :=
  match feed.subscribers.lookup subject with
  | some _ => .error (.alreadySubscribed subject)
  | none =>
    .ok (feed.channels.length,
      { subscribers := feed.subscribers ++ [(subject, feed.channels.length)]
        channels := feed.channels ++ [⟨subject, [], true⟩] })

def push (feed : Feed) (id : ChannelId) (d : Delivery) : Feed :=
  feed.modify id fun c => { c with queue := c.queue ++ [d] }

def publish (feed : Feed) (subject : String) (payload : Bytes) : Except Error Feed :=
  match feed.subscribers.lookup subject with
  | none => .error (.noSubscriber subject)
  | some id =>
    if feed.isOpen id then .ok (feed.push id { subject, payload, origin := some id })
    else .error .closed

def next (feed : Feed) (id : ChannelId) : Next × Feed :=
  match feed.queue id with
  | d :: rest => (.delivery d, feed.modify id fun c => { c with queue := rest })
  | [] => (if feed.isOpen id then .noneYet else .ended, feed)

def nack (feed : Feed) (d : Delivery) : Bool × Feed :=
  match d.origin with
  | none => (false, feed)
  | some id =>
    if feed.isOpen id then (true, feed.push id { d with attempts := d.attempts + 1 })
    else (false, feed)

/-- Ends a subscription. Once it has ended this changes nothing. -/
def unsubscribe (feed : Feed) (id : ChannelId) : Feed :=
  match feed.channel? id with
  | none => feed
  | some c =>
    if c.isOpen then
      { feed.modify id (fun c => { c with isOpen := false }) with
        subscribers := feed.subscribers.filter (·.1 ≠ c.subject) }
    else feed

/-- Leaves a channel without ending the subscription: its subject stays taken and nobody listens. -/
def abandon (feed : Feed) (id : ChannelId) : Feed :=
  feed.modify id fun c => { c with queue := [], isOpen := false }

def subjects (feed : Feed) : List String := feed.subscribers.map (·.1)

end Feed

end StakeLedger.Platform
