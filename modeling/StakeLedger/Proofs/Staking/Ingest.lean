import StakeLedger.Proofs.Outcome
import StakeLedger.Proofs.Staking.History

/-! The feed's side of a pipeline: where the notifications are while the ingest worker is at work, and where
they are once it has left. -/

namespace StakeLedger.Staking

open Platform

theorem Workers.origin_of_mem {w : Workers} {payloads : List Bytes} {d : Delivery}
    (h : d ∈ payloads.map w.notification) : d.origin = some w.channel := by
  obtain ⟨_, _, rfl⟩ := List.mem_map.mp h
  rfl

theorem Workers.map_payload_notification (w : Workers) (payloads : List Bytes) :
    (payloads.map w.notification).map Delivery.payload = payloads := by
  rw [List.map_map]
  exact List.map_id payloads

namespace History

variable {h h' : History} {o : Occurrence}

/-- The ingest worker is at work: the notifications that it acknowledged, the one in its hand and those in
the channel are all that were published, and it handed none back. -/
structure Attended (h : History) : Prop where
  serves : h.flow.feed.Serves h.flow.workers.subject h.flow.workers.channel
  ingesting : h.flow.workers.ingest ≠ .exited
  notifications : h.acknowledged ++ (h.flow.hand ++ h.flow.waiting) =
    h.published.map h.flow.workers.notification
  noneHandedBack : h.handedBack = []

/-- The ingest worker has left: what it did not acknowledge lies in a channel that nobody takes from, the
one that it handed back behind those that it never took. -/
structure Departed (h : History) : Prop where
  exited : h.flow.workers.ingest = .exited
  deserted : h.flow.feed.Deserted h.flow.workers.subject h.flow.workers.channel
  notifications : ∃ rest, h.acknowledged ++ (h.handedBack ++ rest) =
      h.published.map h.flow.workers.notification ∧
    h.flow.waiting = rest ++ h.handedBack.map Delivery.again
  atMostOne : h.handedBack.length ≤ 1

theorem attended_start {feed : Feed} {subject : String} {bearer : Option String} {flow : Flow}
    (hs : Flow.subscribe feed subject bearer = .ok flow) : (start flow).Attended := by
  obtain ⟨⟨channel, next⟩, hf, rfl⟩ := map_eq_ok.mp hs
  obtain ⟨hserves, hempty⟩ := Feed.subscribe_serves hf
  have hwaiting : (start ⟨next, { channel, subject }⟩).flow.waiting = [] := hempty
  refine ⟨hserves, nofun, ?_, rfl⟩
  rw [hwaiting]
  rfl

theorem Attended.publish {payload : Bytes} {feed : Feed} (ha : h.Attended)
    (hp : h.flow.feed.publish h.flow.workers.subject payload = .ok feed) :
    { h with flow := { h.flow with feed }, published := h.published ++ [payload] }.Attended := by
  rw [ha.serves.publish payload] at hp
  cases hp
  have hnot : h.acknowledged ++ (h.flow.hand ++ (h.flow.feed.push h.flow.workers.channel
        (h.flow.workers.notification payload)).queue h.flow.workers.channel) =
      (h.published ++ [payload]).map h.flow.workers.notification := by
    rw [Feed.queue_push ha.serves.isOpen, List.map_append, ← ha.notifications]
    simp [Flow.waiting]
  exact { ha with serves := ha.serves.push, notifications := hnot }

theorem Attended.take {d : Delivery} {feed : Feed} (ha : h.Attended) (idle : h.flow.workers.ingest = .idle)
    (next : h.flow.feed.next h.flow.workers.channel = (.delivery d, feed)) :
    (h.work .take ⟨feed, { h.flow.workers with ingest := .taken d }⟩).Attended := by
  obtain ⟨hq, hserves⟩ := Feed.next_delivery next
  have hp : h.flow.hand ++ h.flow.waiting = [d] ++ feed.queue h.flow.workers.channel := by
    rw [Flow.hand, idle]
    exact hq
  have hnot := ha.notifications
  rw [hp] at hnot
  exact { ha with serves := hserves _ ha.serves, ingesting := nofun, notifications := hnot }

theorem Attended.buffer {events : List Bytes} (ha : h.Attended) :
    (h.work .buffer { h.flow with workers :=
      { h.flow.workers with ingest := .idle, events := events } }).Attended := by
  have hnot : h.acknowledged ++ h.flow.hand ++ h.flow.waiting =
      h.published.map h.flow.workers.notification := by
    rw [List.append_assoc, ha.notifications]
  exact { ha with ingesting := nofun, notifications := hnot }

theorem Attended.block {d : Delivery} (ha : h.Attended) (taken : h.flow.workers.ingest = .taken d) :
    (h.work .block { h.flow with workers := { h.flow.workers with ingest := .blocked d } }).Attended := by
  have hnot := ha.notifications
  rw [Flow.hand, taken] at hnot
  exact { ha with ingesting := nofun, notifications := hnot }

theorem Attended.leave (ha : h.Attended) (empty : h.flow.hand = []) :
    { h with flow := h.flow.leaveIngest, handedBack := h.handedBack ++ h.flow.hand }.Departed := by
  obtain ⟨hdeserted, hqueue⟩ := ha.serves.unsubscribe
  have hnot := ha.notifications
  rw [empty] at hnot
  rw [ha.noneHandedBack, empty]
  refine ⟨rfl, hdeserted, ⟨h.flow.waiting, hnot, ?_⟩, Nat.zero_le _⟩
  exact hqueue.trans (List.append_nil _).symm

theorem Attended.handBack {d : Delivery} (ha : h.Attended) (hand : h.flow.hand = [d]) :
    (h.flow.feed.nack d).1 = true ∧
      { h with flow := (h.flow.handBack d).leaveIngest, handedBack := h.handedBack ++ h.flow.hand }.Departed := by
  have hnot := ha.notifications
  rw [hand] at hnot
  -- What was published came through this channel, so that the feed knows where to put it back.
  have horigin : d.origin = some h.flow.workers.channel := by
    apply Workers.origin_of_mem
    rw [← hnot]
    simp
  have hnack := Feed.nack_of_isOpen ha.serves.isOpen horigin
  have hfeed : (h.flow.handBack d).leaveIngest.feed =
      (h.flow.feed.push h.flow.workers.channel d.again).unsubscribe h.flow.workers.channel := by
    rw [Flow.handBack, hnack]
    rfl
  obtain ⟨hdeserted, hqueue⟩ := (ha.serves.push (d := d.again)).unsubscribe
  rw [Feed.queue_push ha.serves.isOpen, ← hfeed] at hqueue
  rw [← hfeed] at hdeserted
  rw [ha.noneHandedBack, hand]
  exact ⟨by rw [hnack], rfl, hdeserted, ⟨h.flow.waiting, hnot, hqueue⟩, Nat.le_refl 1⟩

theorem Attended.work {m : Move} {g : Flow} (ha : h.Attended) (hm : h.flow.Moves m g) :
    (h.work m g).Attended ∨ (h.work m g).Departed := by
  cases hm with
  | take idle next => exact .inl (ha.take idle next)
  | buffer hand reading room => exact .inl ha.buffer
  | block taken reading full => exact .inl (ha.block taken)
  | refuse hand closed => exact .inr (ha.handBack hand).2
  | stopIdle cancelled idle => exact .inr (ha.leave (congrArg Ingest.hand idle))
  | stopBlocked cancelled blocked => exact .inr (ha.handBack (congrArg Ingest.hand blocked)).2
  | endIngest idle ended =>
    rw [Feed.next] at ended
    split at ended
    · cases ended
    · rw [if_pos ha.serves.isOpen] at ended
      cases ended
  -- The translate worker touches neither the feed nor the hand.
  | read | translate | store | dropDelta | stopTranslate | endTranslate => exact .inl { ha with }

theorem Departed.work {m : Move} {g : Flow} (hd : h.Departed) (hm : h.flow.Moves m g) : (h.work m g).Departed := by
  have hhand : h.flow.hand = [] := congrArg Ingest.hand hd.exited
  cases hm with
  | take idle | stopIdle _ idle | endIngest idle => exact nomatch hd.exited.symm.trans idle
  | block held | stopBlocked _ held => exact nomatch hd.exited.symm.trans held
  | buffer hand | refuse hand => exact nomatch hhand.symm.trans hand
  | read | translate | store | dropDelta | stopTranslate | endTranslate => exact { hd with }

def Accounted (h : History) : Prop := h.Attended ∨ h.Departed

theorem Attended.follows (ha : h.Attended) (hf : h.Follows o h') : h'.Accounted := by
  cases hf with
  | publish taken => exact .inl (ha.publish taken)
  | work moves => exact ha.work moves
  | takeDelta draining step =>
    obtain ⟨_, _, _, _, rfl⟩ := step_draining step
    exact .inl { ha with }
  | beginDrain | endDrain | cancel | shutdown => exact .inl { ha with }

theorem Departed.follows (hd : h.Departed) (hf : h.Follows o h') : h'.Departed := by
  cases hf with
  | publish taken =>
    rw [hd.deserted.publish] at taken
    cases taken
  | work moves => exact hd.work moves
  | takeDelta draining step =>
    obtain ⟨_, _, _, _, rfl⟩ := step_draining step
    exact { hd with }
  | beginDrain | endDrain | cancel | shutdown => exact { hd with }

theorem Accounted.follows (ha : h.Accounted) (hf : h.Follows o h') : h'.Accounted := by
  rcases ha with hattended | hdeparted
  · exact hattended.follows hf
  · exact .inr (hdeparted.follows hf)

theorem Accounted.afterAll {os : List Occurrence} (hc : h.Accounted) (ha : h.afterAll os = some h') :
    h'.Accounted :=
  afterAll_induction ha hc fun _ _ _ _ hc hf => hc.follows hf

end History

end StakeLedger.Staking
