import StakeLedger.Proofs.Staking.Ingest

/-!
While nobody stops a pipeline, every published payload is in exactly one place on its way, and the
order of publication is kept. Main statement: `deltas_in_order_of_publication`.
-/

namespace StakeLedger.Staking

open Platform

namespace History

variable {h h' : History} {o : Occurrence}

/-- What holds of a pipeline that was never stopped: the workers run over an open channel; nothing is
lost between publication and the events, between the events and the translate worker, or between the
translate worker and the drains; and the queues keep to their sizes. -/
structure Conserved (h : History) : Prop extends h.Attended where
  translating : h.flow.workers.translate ≠ .exited
  receiving : h.flow.workers.receiving = true
  events : h.acknowledged.map Delivery.payload = h.read ++ h.flow.workers.events
  deltas : translated h.read =
    h.returned ++ h.inDrain ++ h.flow.workers.deltas ++ h.flow.workers.translate.deltas ++
      translated h.flow.workers.translate.payloads
  eventRoom : h.flow.workers.events.length ≤ eventCapacity
  deltaRoom : h.flow.workers.deltas.length ≤ deltaCapacity

theorem conserved_start {feed : Feed} {subject : String} {bearer : Option String} {flow : Flow}
    (hs : Flow.subscribe feed subject bearer = .ok flow) : (start flow).Conserved := by
  have hattended := attended_start hs
  obtain ⟨⟨channel, next⟩, -, rfl⟩ := map_eq_ok.mp hs
  constructor
  case toAttended => exact hattended
  case translating => exact nofun
  case eventRoom | deltaRoom => exact Nat.zero_le _
  all_goals rfl

theorem Conserved.buffer {d : Delivery} (hc : h.Conserved) (hand : h.flow.hand = [d])
    (room : h.flow.workers.events.length < eventCapacity) :
    (h.work .buffer { h.flow with workers :=
      { h.flow.workers with ingest := .idle, events := h.flow.workers.events ++ [d.payload] } }).Conserved := by
  have hev : (h.acknowledged ++ h.flow.hand).map Delivery.payload =
      h.read ++ (h.flow.workers.events ++ [d.payload]) := by
    rw [List.map_append, hc.events, hand, List.append_assoc]
    rfl
  have her : (h.flow.workers.events ++ [d.payload]).length ≤ eventCapacity := by
    rw [List.length_append]
    exact room
  exact { hc with toAttended := hc.toAttended.buffer, events := hev, eventRoom := her }

theorem Conserved.take_event {p : Bytes} {rest : List Bytes} (hc : h.Conserved)
    (idle : h.flow.workers.translate = .idle) (events : h.flow.workers.events = p :: rest) :
    (h.work .read { h.flow with workers :=
      { h.flow.workers with translate := .payload p, events := rest } }).Conserved := by
  have hev : h.acknowledged.map Delivery.payload = h.read ++ h.flow.workers.events.take 1 ++ rest := by
    rw [hc.events, events, List.append_assoc]
    rfl
  have hde : translated (h.read ++ h.flow.workers.events.take 1) =
      h.returned ++ h.inDrain ++ h.flow.workers.deltas ++ [] ++ translated [p] := by
    rw [translated_append, hc.deltas, idle, events]
    simp [Translate.deltas, Translate.payloads]
  have her : rest.length ≤ eventCapacity := by
    have her := hc.eventRoom
    rw [events, List.length_cons] at her
    omega
  exact { hc with translating := by rintro ⟨⟩, events := hev, deltas := hde, eventRoom := her }

theorem Conserved.translate {p : Bytes} (hc : h.Conserved) (payload : h.flow.workers.translate = .payload p) :
    (h.work .translate { h.flow with workers :=
      { h.flow.workers with translate := .ofPayload p } }).Conserved := by
  have hde : translated h.read = h.returned ++ h.inDrain ++ h.flow.workers.deltas ++
      (Translate.ofPayload p).deltas ++ translated (Translate.ofPayload p).payloads := by
    rw [hc.deltas, payload, Translate.deltas_ofPayload, Translate.payloads_ofPayload]
    simp [Translate.deltas, Translate.payloads]
  exact { hc with translating := Translate.ofPayload_ne_exited p, deltas := hde }

theorem Conserved.store {d : StakeDelta} (hc : h.Conserved) (delta : h.flow.workers.translate = .delta d)
    (room : h.flow.workers.deltas.length < deltaCapacity) :
    (h.work .store { h.flow with workers :=
      { h.flow.workers with translate := .idle, deltas := h.flow.workers.deltas ++ [d] } }).Conserved := by
  have hde : translated h.read =
      h.returned ++ h.inDrain ++ (h.flow.workers.deltas ++ [d]) ++ [] ++ translated [] := by
    rw [hc.deltas, delta]
    simp [Translate.deltas, Translate.payloads]
  have hdr : (h.flow.workers.deltas ++ [d]).length ≤ deltaCapacity := by
    rw [List.length_append]
    exact room
  exact { hc with translating := by rintro ⟨⟩, deltas := hde, deltaRoom := hdr }

theorem Conserved.work {m : Move} {g : Flow} (hc : h.Conserved) (hm : h.flow.Moves m g)
    (hn : g.workers.cancelled = false) : (h.work m g).Conserved := by
  cases hm with
  | take idle next => exact { hc with toAttended := hc.toAttended.take idle next }
  | buffer hand reading room => exact hc.buffer hand room
  | block taken reading full => exact { hc with toAttended := hc.toAttended.block taken }
  | read idle events => exact hc.take_event idle events
  | translate payload => exact hc.translate payload
  | store delta receiving room => exact hc.store delta room
  | endIngest idle ended =>
    rw [Feed.next] at ended
    split at ended
    · cases ended
    · rw [if_pos hc.serves.isOpen] at ended
      cases ended
  -- Neither worker leaves while the pipeline goes on.
  | refuse hand closed => exact absurd closed hc.translating
  | stopIdle cancelled idle | stopBlocked cancelled blocked =>
    exact absurd (hn.symm.trans cancelled) Bool.false_ne_true
  | dropDelta delta closed => exact absurd (closed.symm.trans hc.receiving) Bool.false_ne_true
  | stopTranslate cancelled notParsing working =>
    exact absurd (hn.symm.trans cancelled) Bool.false_ne_true
  | endTranslate idle events exited => exact absurd exited hc.ingesting

theorem Conserved.follows (hc : h.Conserved) (hf : h.Follows o h')
    (hn : h'.flow.workers.cancelled = false) : h'.Conserved := by
  cases hf with
  | publish taken => exact { hc with toAttended := hc.toAttended.publish taken }
  | work moves => exact hc.work moves hn
  | beginDrain free =>
    have hde := hc.deltas
    rw [inDrain, free] at hde
    exact { hc with deltas := hde }
  | @takeDelta s t g draining step =>
    obtain ⟨d, rest, hq, ht, rfl⟩ := step_draining step
    have hde : translated h.read = h.returned ++ t.taken ++ rest ++
        h.flow.workers.translate.deltas ++ translated h.flow.workers.translate.payloads := by
      rw [hc.deltas, hq, ht, inDrain, draining]
      simp
    have hdr : rest.length ≤ deltaCapacity := by
      have hdr := hc.deltaRoom
      rw [hq, List.length_cons] at hdr
      omega
    exact { hc with deltas := hde, deltaRoom := hdr }
  | @endDrain s draining done =>
    have hde : translated h.read = h.returned ++ s.taken ++ [] ++ h.flow.workers.deltas ++
        h.flow.workers.translate.deltas ++ translated h.flow.workers.translate.payloads := by
      rw [hc.deltas, inDrain, draining, List.append_nil]
      rfl
    exact { hc with deltas := hde }
  | cancel | shutdown => cases hn

theorem cancelled_moves {f g : Flow} {m : Move} (hm : f.Moves m g) :
    g.workers.cancelled = f.workers.cancelled := by
  cases hm <;> rfl

theorem cancelled_follows (hf : h.Follows o h') (hn : h'.flow.workers.cancelled = false) :
    h.flow.workers.cancelled = false := by
  cases hf with
  | work moves => exact (cancelled_moves moves).symm.trans hn
  | takeDelta draining step =>
    obtain ⟨_, _, _, _, rfl⟩ := step_draining step
    exact hn
  | publish | beginDrain | endDrain => exact hn
  | cancel | shutdown => cases hn

theorem Conserved.afterAll {os : List Occurrence} (hc : h.Conserved) (ha : h.afterAll os = some h')
    (hn : h'.flow.workers.cancelled = false) : h'.Conserved :=
  afterAll_induction (P := fun m => m.flow.workers.cancelled = false → m.Conserved) ha (fun _ => hc)
    (fun _ _ _ _ hp hf hm => (hp (cancelled_follows hf hm)).follows hf hm) hn

theorem Conserved.in_flight (hc : h.Conserved) :
    h.returned ++ h.inDrain ++ h.flow.workers.deltas ++ h.flow.workers.translate.deltas ++
        translated (h.flow.workers.translate.payloads ++ h.flow.workers.events ++
          (h.flow.hand ++ h.flow.waiting).map Delivery.payload) = translated h.published := by
  have hp : h.published =
      h.read ++ h.flow.workers.events ++ (h.flow.hand ++ h.flow.waiting).map Delivery.payload := by
    rw [← hc.events, ← List.map_append, hc.notifications, List.map_map]
    exact (List.map_id h.published).symm
  rw [hp]
  simp only [translated_append, hc.deltas, List.append_assoc]

end History

/-- Over every run in which nobody stops the pipeline: the deltas that left it, followed by those on
their way and by what the payloads on their way stand for, are what the published payloads stand for,
in the order of publication. The queues keep to their sizes; the notifications that were acknowledged,
together with the one in hand and those in the channel, are the published ones, each still at its first
attempt; a notification was acknowledged exactly when its payload had entered the events; and none was
handed back. -/
theorem deltas_in_order_of_publication {feed : Feed} {subject : String} {bearer : Option String}
    {flow : Flow} {os : List Occurrence} {h : History}
    (hs : Flow.subscribe feed subject bearer = .ok flow)
    (hr : (History.start flow).afterAll os = some h) (hn : h.flow.workers.cancelled = false) :
    h.returned ++ h.inDrain ++ h.flow.workers.deltas ++ h.flow.workers.translate.deltas ++
        translated (h.flow.workers.translate.payloads ++ h.flow.workers.events ++
          (h.flow.hand ++ h.flow.waiting).map Delivery.payload) = translated h.published ∧
      h.flow.workers.events.length ≤ 64 ∧ h.flow.workers.deltas.length ≤ 64 ∧
      h.acknowledged ++ (h.flow.hand ++ h.flow.waiting) =
        h.published.map h.flow.workers.notification ∧
      h.acknowledged.map Delivery.payload = h.read ++ h.flow.workers.events ∧
      h.handedBack = [] := by
  have hc := (History.conserved_start hs).afterAll hr hn
  exact ⟨hc.in_flight, hc.eventRoom, hc.deltaRoom, hc.notifications, hc.events, hc.noneHandedBack⟩

/-- A payload that is no event is skipped and the deposit after it is drained, while a third payload
waits in the channel. -/
theorem deltas_in_order_past_malformed :
    let flow : Flow := ⟨⟨[("stake", 0)], [⟨"stake", [], true⟩]⟩, { channel := 0, subject := "stake" }⟩
    let deposit := Bytes.ofString ("\x7b\"event\":\"Deposit\",\"amount\":5,\"validator\":" ++
      "\"0101010101010101010101010101010101010101010101010101010101010101\"\x7d")
    ∃ h, (History.start flow).afterAll [.publish [120], .publish deposit, .work .take, .work .buffer,
        .work .take, .work .read, .work .translate, .work .buffer, .work .read, .work .translate,
        .work .store, .beginDrain, .takeDelta, .publish [], .endDrain] = some h ∧
      h.published = [[120], deposit, []] ∧ h.returned = [.new (List.replicate 32 1) 5] ∧
      h.returned ++ h.inDrain ++ h.flow.workers.deltas ++ h.flow.workers.translate.deltas ++
        translated (h.flow.workers.translate.payloads ++ h.flow.workers.events ++
          (h.flow.hand ++ h.flow.waiting).map Delivery.payload) = translated h.published := by
  intro flow deposit
  have hs : Flow.subscribe .empty "stake" none = .ok flow := rfl
  have hr : (History.start flow).afterAll [.publish [120], .publish deposit, .work .take, .work .buffer,
        .work .take, .work .read, .work .translate, .work .buffer, .work .read, .work .translate,
        .work .store, .beginDrain, .takeDelta, .publish [], .endDrain] = some
      { flow := { flow with feed := ⟨[("stake", 0)], [⟨"stake", [flow.workers.notification []], true⟩]⟩ }
        published := [[120], deposit, []]
        acknowledged := [flow.workers.notification [120], flow.workers.notification deposit]
        read := [[120], deposit]
        returned := [.new (List.replicate 32 1) 5] } := by decide +kernel
  exact ⟨_, hr, rfl, rfl, (deltas_in_order_of_publication hs hr rfl).1⟩

end StakeLedger.Staking
