import StakeLedger.Proofs.Platform.Feed
import StakeLedger.Staking.Bootstrap

/-!
A pipeline together with what has happened to it: the payloads that were published for it, the
notifications that were acknowledged or handed back, and the deltas that were drained. A drain is a
sequence of steps of its own, so that the workers move between them.
-/

namespace StakeLedger.Staking

open Platform

def Ingest.hand : Ingest → List Delivery
  | .taken d | .blocked d => [d]
  | .idle | .exited => []

def Workers.notification (w : Workers) (payload : Bytes) : Delivery :=
  { subject := w.subject, payload, origin := some w.channel }

def Translate.payloads : Translate → List Bytes
  | .payload p => [p]
  | _ => []

def Translate.deltas : Translate → List StakeDelta
  | .delta d => [d]
  | _ => []

/-- The deltas that payloads stand for; what is no event and what changes nothing stands for none. -/
def translated (payloads : List Bytes) : List StakeDelta :=
  payloads.flatMap fun p => match parseDelta p with
    | .ok (some d) => [d]
    | _ => []

@[simp] theorem translated_nil : translated [] = [] := rfl

@[simp] theorem translated_append (ps qs : List Bytes) :
    translated (ps ++ qs) = translated ps ++ translated qs := List.flatMap_append

def Translate.ofPayload (p : Bytes) : Translate :=
  match parseDelta p with
  | .ok (some d) => .delta d
  | _ => .idle

theorem Translate.deltas_ofPayload (p : Bytes) : (ofPayload p).deltas = translated [p] := by
  simp only [translated, List.flatMap_cons, List.flatMap_nil, List.append_nil, ofPayload]
  split <;> rfl

theorem Translate.payloads_ofPayload (p : Bytes) : (ofPayload p).payloads = [] := by
  rw [ofPayload]
  split <;> rfl

theorem Translate.ofPayload_ne_exited (p : Bytes) : ofPayload p ≠ .exited := by
  rw [ofPayload]
  split <;> exact nofun

namespace Flow

def hand (f : Flow) : List Delivery := f.workers.ingest.hand

def waiting (f : Flow) : List Delivery := f.feed.queue f.workers.channel

/-- All that a move can do, with the conditions under which it is possible. -/
inductive Moves (f : Flow) : Move → Flow → Prop
  | take {d : Delivery} {feed : Feed} (idle : f.workers.ingest = .idle)
      (next : f.feed.next f.workers.channel = (.delivery d, feed)) :
      Moves f .take ⟨feed, { f.workers with ingest := .taken d }⟩
  | buffer {d : Delivery} (hand : f.hand = [d]) (reading : f.workers.translate ≠ .exited)
      (room : f.workers.events.length < eventCapacity) :
      Moves f .buffer { f with workers :=
        { f.workers with ingest := .idle, events := f.workers.events ++ [d.payload] } }
  | block {d : Delivery} (taken : f.workers.ingest = .taken d)
      (reading : f.workers.translate ≠ .exited) (full : eventCapacity ≤ f.workers.events.length) :
      Moves f .block { f with workers := { f.workers with ingest := .blocked d } }
  | refuse {d : Delivery} (hand : f.hand = [d]) (closed : f.workers.translate = .exited) :
      Moves f .refuse (f.handBack d).leaveIngest
  | stopIdle (cancelled : f.workers.cancelled = true) (idle : f.workers.ingest = .idle) :
      Moves f .stopIngest f.leaveIngest
  | stopBlocked {d : Delivery} (cancelled : f.workers.cancelled = true)
      (blocked : f.workers.ingest = .blocked d) : Moves f .stopIngest (f.handBack d).leaveIngest
  | endIngest {feed : Feed} (idle : f.workers.ingest = .idle)
      (ended : f.feed.next f.workers.channel = (.ended, feed)) : Moves f .endIngest f.leaveIngest
  | read {p : Bytes} {rest : List Bytes} (idle : f.workers.translate = .idle)
      (events : f.workers.events = p :: rest) :
      Moves f .read
        { f with workers := { f.workers with translate := .payload p, events := rest } }
  | translate {p : Bytes} (payload : f.workers.translate = .payload p) :
      Moves f .translate { f with workers := { f.workers with translate := .ofPayload p } }
  | store {d : StakeDelta} (delta : f.workers.translate = .delta d)
      (receiving : f.workers.receiving = true) (room : f.workers.deltas.length < deltaCapacity) :
      Moves f .store { f with workers :=
        { f.workers with translate := .idle, deltas := f.workers.deltas ++ [d] } }
  | dropDelta {d : StakeDelta} (delta : f.workers.translate = .delta d)
      (closed : f.workers.receiving = false) : Moves f .dropDelta f.leaveTranslate
  | stopTranslate (cancelled : f.workers.cancelled = true) (notParsing : f.workers.translate.payloads = [])
      (working : f.workers.translate ≠ .exited) : Moves f .stopTranslate f.leaveTranslate
  | endTranslate (idle : f.workers.translate = .idle) (events : f.workers.events = [])
      (exited : f.workers.ingest = .exited) : Moves f .endTranslate f.leaveTranslate

theorem moves_of_move {f g : Flow} {m : Move} (h : f.move m = some g) : f.Moves m g := by
  obtain ⟨feed, channel, subject, ingest, events, translate, deltas, receiving, cancelled⟩ := f
  cases m with
  | take =>
    simp only [move] at h
    split at h
    · next hn => cases h; exact .take rfl hn
    · cases h
  | buffer =>
    cases ingest <;> simp only [move, Option.ite_none_right_eq_some, reduceCtorEq] at h
    all_goals
      obtain ⟨⟨hr, hl⟩, h⟩ := h
      cases h
      exact .buffer rfl (by simpa [reading] using hr) hl
  | block =>
    cases ingest <;> simp only [move, Option.ite_none_right_eq_some, reduceCtorEq] at h
    obtain ⟨⟨hr, hl⟩, h⟩ := h
    cases h
    exact .block rfl (by simpa [reading] using hr) hl
  | refuse =>
    cases ingest <;> simp only [move, Option.ite_none_left_eq_some, reduceCtorEq] at h
    all_goals
      obtain ⟨hr, h⟩ := h
      cases h
      exact .refuse rfl (by simpa [reading] using hr)
  | stopIngest =>
    simp only [move, Option.ite_none_right_eq_some] at h
    obtain ⟨hc, h⟩ := h
    cases ingest <;> cases h
    · exact .stopIdle hc rfl
    · exact .stopBlocked hc rfl
  | endIngest =>
    simp only [move] at h
    split at h
    · next hn => cases h; exact .endIngest rfl hn
    · cases h
  | read =>
    simp only [move] at h
    split at h
    · cases h; exact .read rfl rfl
    · cases h
  | translate =>
    cases translate <;> cases h
    exact .translate rfl
  | store =>
    cases translate <;> simp only [move, Option.ite_none_right_eq_some, reduceCtorEq] at h
    obtain ⟨⟨hr, hl⟩, h⟩ := h
    cases h
    exact .store rfl hr hl
  | dropDelta =>
    cases translate <;> simp only [move, Option.ite_none_left_eq_some, reduceCtorEq] at h
    obtain ⟨hr, h⟩ := h
    cases h
    exact .dropDelta rfl (by simpa using hr)
  | stopTranslate =>
    simp only [move, Option.ite_none_right_eq_some] at h
    obtain ⟨hc, h⟩ := h
    cases translate <;> cases h <;> exact .stopTranslate hc rfl nofun
  | endTranslate =>
    simp only [move] at h
    split at h
    · cases h; exact .endTranslate rfl rfl rfl
    · cases h

end Flow

inductive Occurrence
  | publish (payload : Bytes)
  | work (m : Move)
  | beginDrain
  | takeDelta
  | endDrain
  | cancel
  /-- The pipeline is stopped, which waits for a drain that is under way. -/
  | shutdown
  deriving DecidableEq, Repr

structure History where
  flow : Flow
  draining : Option Draining := none
  published : List Bytes := []
  acknowledged : List Delivery := []
  handedBack : List Delivery := []
  read : List Bytes := []
  returned : List StakeDelta := []
  deriving DecidableEq, Repr

theorem step_draining {s t : Draining} {f g : Flow} (hs : s.step f = some (t, g)) :
    ∃ d rest, f.workers.deltas = d :: rest ∧ t.taken = s.taken ++ [d] ∧ g = f.withDeltas rest := by
  rw [Draining.step] at hs
  split at hs
  · next n d g' hl ht =>
    simp only [Option.some.injEq, Prod.mk.injEq] at hs
    obtain ⟨rfl, rfl⟩ := hs
    rw [Flow.takeDelta] at ht
    cases hd : f.workers.deltas with
    | nil => rw [hd] at ht; cases ht
    | cons d' rest =>
      rw [hd] at ht
      cases ht
      exact ⟨d, rest, rfl, rfl, rfl⟩
  · cases hs

namespace History

def inDrain (h : History) : List StakeDelta := h.draining.elim [] Draining.taken

def work (h : History) (m : Move) (flow : Flow) : History :=
  { h with
    flow
    acknowledged := match m with
      | .buffer => h.acknowledged ++ h.flow.hand
      | _ => h.acknowledged
    handedBack := match m with
      | .refuse | .stopIngest => h.handedBack ++ h.flow.hand
      | _ => h.handedBack
    read := match m with
      | .read => h.read ++ h.flow.workers.events.take 1
      | _ => h.read }

def after (h : History) : Occurrence → Option History
  | .publish payload =>
    match h.flow.feed.publish h.flow.workers.subject payload with
    | .ok feed => some { h with flow := { h.flow with feed }, published := h.published ++ [payload] }
    | .error _ => none
  | .work m => (h.flow.move m).map (h.work m)
  | .beginDrain =>
    match h.draining with
    | none => some { h with draining := some (.start h.flow) }
    | some _ => none
  | .takeDelta =>
    match h.draining with
    | none => none
    | some s => (s.step h.flow).map fun (s, flow) => { h with flow, draining := some s }
  | .endDrain =>
    match h.draining with
    | none => none
    | some s =>
      match s.step h.flow with
      | none => some { h with draining := none, returned := h.returned ++ s.taken }
      | some _ => none
  | .cancel => some { h with flow := h.flow.cancel }
  | .shutdown =>
    match h.draining with
    | none => some { h with flow := h.flow.shutdown }
    | some _ => none

/-- All that can follow, with the conditions under which it is possible. -/
inductive Follows (h : History) : Occurrence → History → Prop
  | publish {payload : Bytes} {feed : Feed}
      (taken : h.flow.feed.publish h.flow.workers.subject payload = .ok feed) :
      Follows h (.publish payload)
        { h with flow := { h.flow with feed }, published := h.published ++ [payload] }
  | work {m : Move} {g : Flow} (moves : h.flow.Moves m g) : Follows h (.work m) (h.work m g)
  | beginDrain (free : h.draining = none) :
      Follows h .beginDrain { h with draining := some (.start h.flow) }
  | takeDelta {s t : Draining} {g : Flow} (draining : h.draining = some s)
      (step : s.step h.flow = some (t, g)) :
      Follows h .takeDelta { h with flow := g, draining := some t }
  | endDrain {s : Draining} (draining : h.draining = some s) (done : s.step h.flow = none) :
      Follows h .endDrain { h with draining := none, returned := h.returned ++ s.taken }
  | cancel : Follows h .cancel { h with flow := h.flow.cancel }
  | shutdown (free : h.draining = none) : Follows h .shutdown { h with flow := h.flow.shutdown }

theorem follows_of_after {h h' : History} {o : Occurrence} (ha : h.after o = some h') :
    h.Follows o h' := by
  cases o <;> simp only [after] at ha
  case publish payload =>
    split at ha
    · next feed hp => cases ha; exact .publish hp
    · cases ha
  case work m =>
    obtain ⟨g, hg, rfl⟩ := Option.map_eq_some_iff.mp ha
    exact .work (Flow.moves_of_move hg)
  case beginDrain =>
    split at ha
    · next hd => cases ha; exact .beginDrain hd
    · cases ha
  case takeDelta =>
    split at ha
    · cases ha
    · next s hd =>
      obtain ⟨⟨t, g⟩, hs, rfl⟩ := Option.map_eq_some_iff.mp ha
      exact .takeDelta hd hs
  case endDrain =>
    split at ha
    · cases ha
    · next s hd =>
      split at ha
      · next hs => cases ha; exact .endDrain hd hs
      · cases ha
  case cancel => cases ha; exact .cancel
  case shutdown =>
    split at ha
    · next hd => cases ha; exact .shutdown hd
    · cases ha

def afterAll (h : History) (os : List Occurrence) : Option History := os.foldlM after h

theorem afterAll_append {h h' : History} {os ps : List Occurrence} :
    h.afterAll (os ++ ps) = some h' ↔ ∃ m, h.afterAll os = some m ∧ m.afterAll ps = some h' := by
  rw [afterAll, List.foldlM_append]
  exact Option.bind_eq_some_iff

theorem afterAll_singleton {h h' : History} {o : Occurrence} : h.afterAll [o] = some h' ↔ h.after o = some h' := by simp [afterAll]

theorem afterAll_induction {P : History → Prop} {h h' : History} {os : List Occurrence}
    (ha : h.afterAll os = some h') (hp : P h) (hstep : ∀ o ∈ os, ∀ {h m}, P h → h.Follows o m → P m) : P h' := by
  induction os generalizing h with
  | nil =>
    cases ha
    exact hp
  | cons o os ih =>
    obtain ⟨m, hm, hr⟩ := Option.bind_eq_some_iff.mp ha
    obtain ⟨hfirst, hrest⟩ := List.forall_mem_cons.mp hstep
    exact ih hr (hfirst hp (follows_of_after hm)) hrest

def start (flow : Flow) : History := { flow }

end History

end StakeLedger.Staking
