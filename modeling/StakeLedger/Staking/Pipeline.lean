import StakeLedger.Platform.Feed
import StakeLedger.Staking.Event

/-!
From notifications to stake deltas, by two workers that run beside the chain:

  feed → ingest → events (64) → translate → deltas (64) → drain

A notification is acknowledged once it is buffered. When the events are full the ingest worker holds
it until there is room, and hands it back only when the pipeline stops. Payloads that are no events
are skipped. Moves of the workers may come in any order; `settle` runs them until none is left.
-/

namespace StakeLedger.Staking

open Platform

def eventCapacity : Nat := 64
def deltaCapacity : Nat := 64

inductive Ingest
  | idle
  | taken (d : Delivery)
  | blocked (d : Delivery)
  | exited
  deriving DecidableEq, Repr

inductive Translate
  | idle
  | payload (p : Bytes)
  | delta (d : StakeDelta)
  | exited
  deriving DecidableEq, Repr

structure Workers where
  channel : ChannelId
  subject : String
  ingest : Ingest := .idle
  events : List Bytes := []
  translate : Translate := .idle
  deltas : List StakeDelta := []
  receiving : Bool := true
  cancelled : Bool := false
  deriving DecidableEq, Repr

structure Flow where
  feed : Feed
  workers : Workers
  deriving DecidableEq, Repr

inductive Move
  | take
  | buffer
  | block
  /-- It hands back what it has because nobody takes events any more, and leaves. -/
  | refuse
  | stopIngest
  | endIngest
  | read
  | translate
  | store
  | dropDelta
  | stopTranslate
  | endTranslate
  deriving DecidableEq, Repr

namespace Flow

def leaveIngest (f : Flow) : Flow :=
  ⟨f.feed.unsubscribe f.workers.channel, { f.workers with ingest := .exited }⟩

/-- The translate worker leaves, and with it the events that it has not read. -/
def leaveTranslate (f : Flow) : Flow :=
  { f with workers := { f.workers with translate := .exited, events := [] } }

def handBack (f : Flow) (d : Delivery) : Flow := { f with feed := (f.feed.nack d).2 }

def reading (f : Flow) : Bool := f.workers.translate ≠ .exited

def move (f : Flow) : Move → Option Flow
  | .take =>
    match f.workers.ingest, f.feed.next f.workers.channel with
    | .idle, (.delivery d, feed) => some ⟨feed, { f.workers with ingest := .taken d }⟩
    | _, _ => none
  | .buffer =>
    match f.workers.ingest with
    | .taken d | .blocked d =>
      if f.reading ∧ f.workers.events.length < eventCapacity then
        some { f with workers :=
          { f.workers with ingest := .idle, events := f.workers.events ++ [d.payload] } }
      else none
    | _ => none
  | .block =>
    match f.workers.ingest with
    | .taken d =>
      if f.reading ∧ eventCapacity ≤ f.workers.events.length then
        some { f with workers := { f.workers with ingest := .blocked d } }
      else none
    | _ => none
  | .refuse =>
    match f.workers.ingest with
    | .taken d | .blocked d => if f.reading then none else some (f.handBack d).leaveIngest
    | _ => none
  | .stopIngest =>
    if f.workers.cancelled then
      match f.workers.ingest with
      | .idle => some f.leaveIngest
      | .blocked d => some (f.handBack d).leaveIngest
      | _ => none
    else none
  | .endIngest =>
    match f.workers.ingest, f.feed.next f.workers.channel with
    | .idle, (.ended, _) => some f.leaveIngest
    | _, _ => none
  | .read =>
    match f.workers.translate, f.workers.events with
    | .idle, p :: rest =>
      some { f with workers := { f.workers with translate := .payload p, events := rest } }
    | _, _ => none
  | .translate =>
    match f.workers.translate with
    | .payload p =>
      let hand := match parseDelta p with
        | .ok (some d) => .delta d
        | _ => .idle
      some { f with workers := { f.workers with translate := hand } }
    | _ => none
  | .store =>
    match f.workers.translate with
    | .delta d =>
      if f.workers.receiving ∧ f.workers.deltas.length < deltaCapacity then
        some { f with workers :=
          { f.workers with translate := .idle, deltas := f.workers.deltas ++ [d] } }
      else none
    | _ => none
  | .dropDelta =>
    match f.workers.translate with
    | .delta _ => if f.workers.receiving then none else some f.leaveTranslate
    | _ => none
  | .stopTranslate =>
    if f.workers.cancelled then
      match f.workers.translate with
      | .idle | .delta _ => some f.leaveTranslate
      | _ => none
    else none
  | .endTranslate =>
    match f.workers.translate, f.workers.events, f.workers.ingest with
    | .idle, [], .exited => some f.leaveTranslate
    | _, _, _ => none

def moves : List Move := [
  .stopTranslate, .stopIngest, .dropDelta, .refuse, .store, .translate, .read, .buffer, .block,
  .take, .endIngest, .endTranslate]

def next? (f : Flow) : Option Flow := moves.findSome? f.move

/-- An upper bound on the number of moves that are left: every notification passes five hands, and
each worker leaves once. -/
def movesLeft (f : Flow) : Nat :=
  let ingest := match f.workers.ingest with
    | .idle => 8
    | .taken _ => 14
    | .blocked _ => 13
    | .exited => 0
  let translate := match f.workers.translate with
    | .idle => 1
    | .payload _ => 4
    | .delta _ => 3
    | .exited => 0
  7 * (f.feed.queue f.workers.channel).length + ingest + 4 * f.workers.events.length + translate

def run : Nat → Flow → Flow
  | 0, f => f
  | n + 1, f =>
    match f.next? with
    | some f => run n f
    | none => f

def settle (f : Flow) : Flow := run f.movesLeft f

/-- The pipeline is told to stop; deltas that are buffered can still be taken. -/
def cancel (f : Flow) : Flow := { f with workers := { f.workers with cancelled := true } }

def shutdown (f : Flow) : Flow :=
  { f with workers := { f.workers with cancelled := true, receiving := false, deltas := [] } }

def pending (f : Flow) : Nat := f.workers.deltas.length

def withDeltas (f : Flow) (deltas : List StakeDelta) : Flow :=
  { f with workers := { f.workers with deltas } }

def takeDelta (f : Flow) : Option (StakeDelta × Flow) :=
  match f.workers.deltas with
  | [] => none
  | d :: rest => some (d, f.withDeltas rest)

def takeDeltas : Nat → Flow → List StakeDelta × Flow
  | 0, f => ([], f)
  | n + 1, f =>
    match f.takeDelta with
    | none => ([], f)
    | some (d, f) =>
      let (deltas, f) := takeDeltas n f
      (d :: deltas, f)

theorem takeDeltas_eq (n : Nat) (f : Flow) :
    f.takeDeltas n = (f.workers.deltas.take n, f.withDeltas (f.workers.deltas.drop n)) := by
  induction n generalizing f with
  | zero => rfl
  | succ n ih =>
    obtain ⟨feed, channel, subject, ingest, events, translate, deltas, receiving, cancelled⟩ := f
    cases deltas <;> simp [takeDeltas, takeDelta, withDeltas, ih]

def ended (f : Flow) : Bool :=
  f.workers.ingest == .exited && f.workers.translate == .exited

end Flow

structure Draining where
  left : Nat
  taken : List StakeDelta := []
  deriving DecidableEq, Repr

namespace Draining

/-- What comes later than its start is left for the next one. -/
def start (f : Flow) : Draining := { left := f.pending }

def step (s : Draining) (f : Flow) : Option (Draining × Flow) :=
  match s.left, f.takeDelta with
  | n + 1, some (d, f) => some (⟨n, s.taken ++ [d]⟩, f)
  | _, _ => none

def finish (s : Draining) (f : Flow) : List StakeDelta × Flow :=
  let (deltas, f) := f.takeDeltas s.left
  (s.taken ++ deltas, f)

end Draining

namespace Flow

def drain (f : Flow) : List StakeDelta × Flow := (Draining.start f).finish f

theorem drain_eq (f : Flow) : f.drain = (f.workers.deltas, f.withDeltas []) := by
  simp [drain, Draining.start, Draining.finish, takeDeltas_eq, pending]

end Flow

structure Pipeline where
  feed : Feed
  workers : Option Workers
  deriving DecidableEq, Repr

namespace Pipeline

def disabled (feed : Feed) : Pipeline := ⟨feed, none⟩

def ofFlow (f : Flow) : Pipeline := ⟨f.feed, some f.workers⟩

def flow? (p : Pipeline) : Option Flow := p.workers.map fun w => ⟨p.feed, w⟩

def withFlow (p : Pipeline) (f : Flow → Flow) : Pipeline :=
  match p.flow? with
  | some flow => ofFlow (f flow)
  | none => p

def settle (p : Pipeline) : Pipeline := p.withFlow Flow.settle

def cancel (p : Pipeline) : Pipeline := p.withFlow Flow.cancel

def shutdown (p : Pipeline) : Pipeline := p.withFlow Flow.shutdown

def drain (p : Pipeline) : List StakeDelta × Pipeline :=
  match p.flow? with
  | some flow =>
    let (deltas, flow) := flow.drain
    (deltas, ofFlow flow)
  | none => ([], p)

def pending (p : Pipeline) : Nat := p.flow?.elim 0 Flow.pending

def isEnabled (p : Pipeline) : Bool := p.workers.isSome

def subject (p : Pipeline) : Option String := p.workers.map (·.subject)

def ended (p : Pipeline) : Bool := p.flow?.all Flow.ended

def publish (p : Pipeline) (subject : String) (payload : Bytes) :
    Except Platform.Error Pipeline :=
  (p.feed.publish subject payload).map fun feed => { p with feed }

end Pipeline

end StakeLedger.Staking
