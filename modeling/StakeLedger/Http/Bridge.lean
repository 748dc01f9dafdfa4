import StakeLedger.Application.Callback
import StakeLedger.Http.Basic

/-!
The bridge by which an engine, or an operator, drives the application over HTTP. A commit that fails
stops the bridge.
-/

namespace StakeLedger.Http

open Platform

inductive Endpoint
  | callback (c : Callback)
  | validators
  /-- A notification of the staking contract; the subject is the last part of the path. -/
  | stakingEvent (subject : List Char)
  deriving DecidableEq, Repr

namespace Endpoint

def validatorsPath : String := "/validators"
def callbackPath : String := "/abci/"
def eventsPath : String := "/staking/events/"

def after? (beginning : String) (path : List Char) : Option (List Char) :=
  if beginning.toList.isPrefixOf path then some (path.drop beginning.length) else none

def ofPath? (path : List Char) : Option Endpoint :=
  if path = validatorsPath.toList then some validators
  else match after? callbackPath path, after? eventsPath path with
    | some name, _ => (Callback.ofName? (.ofList name)).map callback
    | none, some subject =>
      if subject.isEmpty ∨ subject.contains '/' then none else some (stakingEvent subject)
    | none, none => none

def isRead : Endpoint → Bool
  | callback c => c.isRead
  | validators => true
  | stakingEvent _ => false

/-- What can be read can also be asked for without its body. -/
def allows (e : Endpoint) (method : String) : Bool :=
  if e.isRead then method = "GET" ∨ method = "HEAD" else method = "POST"

end Endpoint

structure Bridge (σ : Type) where
  app : Application σ
  relays : Bool
  cancelled : Bool

namespace Bridge

variable {σ : Type}

abbrev Host (σ : Type) := Bridge σ × Disk

def failure (status : Nat) (message : String) : Response :=
  .json status (.record [("error", .text message)])

/-- A call that only asks comes without a document, for which the empty record stands. -/
def read {α : Type} (c : Callback) (request : Request) (codec : Codec α) : Except Nat α :=
  if c.isRead then (codec.ofJson (.record [])).mapError fun _ => 400 else readBody codec request

/-- A commit that cannot be saved stops the bridge. -/
def respond (bridge : Bridge σ) : Except (Callback.Refusal Nat) Json → Response × Bridge σ
  | .ok document => (.json 200 document, bridge)
  | .error (.unreadable status) => (.plain status, bridge)
  | .error (.unsaved e) => (failure 500 e.message, { bridge with cancelled := true })

def callback (host : Host σ) (request : Request) (c : Callback) :
    Session σ (Response × Host σ) := do
  let (answer, app, disk) ← c.perform (read c request) (host.1.app, host.2)
  let (response, bridge) := respond { host.1 with app } answer
  return (response, (bridge, disk))

def stakingEvent (host : Host σ) (subject : List Char) (body : Bytes) : Response × Host σ :=
  match Utf8.text? (percentDecode (subject.flatMap String.utf8EncodeChar)) with
  | none => (.plain 400, host)
  | some subject =>
    if bodyLimit < body.length then (.plain 413, host)
    else if !host.1.relays then
      (failure 404 "staking events are not relayed by this node", host)
    else match host.1.app.staking.publish subject body with
      | .ok staking => (.plain 202, ({ host.1 with app := { host.1.app with staking } }, host.2))
      | .error e =>
        match e with
        | .noSubscriber _ => (failure 404 e.message, host)
        | _ => (failure 503 e.message, host)

def serve (host : Host σ) (request : Request) : Endpoint → Session σ (Response × Host σ)
  | .callback c => callback host request c
  | .validators =>
    return (.json 200 ((Codec.list Validator.codec).write host.1.app.commitState.validators), host)
  | .stakingEvent subject => return stakingEvent host subject request.body

/-- Of several reasons to refuse, an unknown path comes first, then the method. There is no response
when the platform never answers. -/
def handle (host : Host σ) (request : Request) : Session σ (Response × Host σ) :=
  match Endpoint.ofPath? (path request.target) with
  | none => return (.plain 404, host)
  | some e => if e.allows request.method then serve host request e else return (.plain 405, host)

end Bridge

end StakeLedger.Http
