import Mathlib.Data.List.Perm.Subperm
import StakeLedger.Proofs.Staking.Ingest

/-!
What becomes of the notifications that the ingest worker did not acknowledge before it left. It hands back
what it holds and then ends its subscription, and the channel that took the notification goes with it.
Main statement: `redelivered_iff_all_acknowledged`.
-/

namespace StakeLedger.Staking

open Platform

namespace History

variable {h h' : History}

def taken (h : History) : List Delivery := h.acknowledged ++ h.handedBack ++ h.flow.hand

/-- Another pipeline on the subject, for which nothing new is published, can come to take every notification
that was published and not acknowledged. -/
def Redelivered (h : History) : Prop :=
  ∃ bearer flow os h', Flow.subscribe h.flow.feed h.flow.workers.subject bearer = .ok flow ∧
    (start flow).afterAll os = some h' ∧ h'.published = [] ∧
    h.published.Subperm ((h.acknowledged ++ h'.taken).map Delivery.payload)

theorem accounted_of_run {feed : Feed} {subject : String} {bearer : Option String} {flow : Flow}
    {os : List Occurrence} (hs : Flow.subscribe feed subject bearer = .ok flow)
    (hr : (start flow).afterAll os = some h) : h.Accounted :=
  Accounted.afterAll (.inl (attended_start hs)) hr

theorem Departed.hand_eq (hd : h.Departed) : h.flow.hand = [] := congrArg Ingest.hand hd.exited

theorem Accounted.departed (ha : h.Accounted) (exited : h.flow.workers.ingest = .exited) : h.Departed :=
  ha.resolve_left fun hattended => hattended.ingesting exited

theorem Accounted.taken_prefix (ha : h.Accounted) : h.taken <+: h.published.map h.flow.workers.notification := by
  rcases ha with hattended | hdeparted
  · refine ⟨h.flow.waiting, ?_⟩
    rw [taken, hattended.noneHandedBack, List.append_nil, List.append_assoc, hattended.notifications]
  · obtain ⟨rest, hnot, -⟩ := hdeparted.notifications
    refine ⟨rest, ?_⟩
    rw [taken, hdeparted.hand_eq, List.append_nil, List.append_assoc, hnot]

theorem Accounted.taken_eq_nil (ha : h.Accounted) (none : h.published = []) : h.taken = [] := by
  have htaken := ha.taken_prefix
  rw [none] at htaken
  exact List.prefix_nil.mp htaken

theorem Accounted.acknowledged_prefix (ha : h.Accounted) :
    h.acknowledged.map Delivery.payload <+: h.published := by
  have hacknowledged : h.acknowledged <+: h.taken := by
    rw [taken, List.append_assoc]
    exact List.prefix_append _ _
  have hpayloads := (hacknowledged.trans ha.taken_prefix).map Delivery.payload
  rwa [Workers.map_payload_notification] at hpayloads

theorem Departed.redelivered_iff (hd : h.Departed) :
    h.Redelivered ↔ h.acknowledged.map Delivery.payload = h.published := by
  constructor
  · rintro ⟨bearer, flow, os, h', hs, hr, hnone, hall⟩
    -- The new workers take from a channel of their own, and nothing is put there but what is published.
    have htaken := (accounted_of_run hs hr).taken_eq_nil hnone
    rw [htaken, List.append_nil] at hall
    exact (Accounted.acknowledged_prefix (.inr hd)).eq_of_length_le hall.length_le
  · intro hall
    obtain ⟨id, next, hnext⟩ := hd.deserted.subscribe
    have hs : Flow.subscribe h.flow.feed h.flow.workers.subject none =
        .ok ⟨next, { channel := id, subject := h.flow.workers.subject }⟩ := by
      rw [Flow.subscribe, hnext]
      rfl
    refine ⟨none, _, [], _, hs, rfl, rfl, ?_⟩
    rw [List.map_append, hall]
    exact (List.sublist_append_left _ _).subperm

theorem Departed.next_subscriber (hd : h.Departed) : ∃ id next,
    h.flow.feed.subscribe h.flow.workers.subject = .ok (id, next) ∧ next.next id = (.noneYet, next) := by
  obtain ⟨id, next, hnext⟩ := hd.deserted.subscribe
  obtain ⟨hserves, hempty⟩ := Feed.subscribe_serves hnext
  exact ⟨id, next, hnext, hserves.next_of_empty hempty⟩

end History

/-- Over every run, stopped or not, at the end of which the ingest worker has left: what was published is
what was acknowledged, what was handed back and what was never taken, and all but the first of these lie in
the channel that is closed. The next subscriber of the subject finds nothing, so that it gets all that was
not acknowledged only where there is no such notification. -/
theorem redelivered_iff_all_acknowledged {feed : Feed} {subject : String} {bearer : Option String}
    {flow : Flow} {os : List Occurrence} {h : History}
    (hs : Flow.subscribe feed subject bearer = .ok flow)
    (hr : (History.start flow).afterAll os = some h) (he : h.flow.workers.ingest = .exited) :
    (∃ rest, h.acknowledged ++ (h.handedBack ++ rest) = h.published.map h.flow.workers.notification ∧
      h.flow.waiting = rest ++ h.handedBack.map Delivery.again) ∧
      h.handedBack.length ≤ 1 ∧ h.flow.feed.isOpen h.flow.workers.channel = false ∧
      (∃ id next, h.flow.feed.subscribe h.flow.workers.subject = .ok (id, next) ∧
        next.next id = (.noneYet, next)) ∧
      (h.Redelivered ↔ h.acknowledged.map Delivery.payload = h.published) := by
  have hd := (History.accounted_of_run hs hr).departed he
  exact ⟨hd.notifications, hd.atMostOne, hd.deserted.closed, hd.next_subscriber, hd.redelivered_iff⟩

/-- A pipeline that buffered the one notification it was sent, and was then stopped. -/
theorem redelivered_past_acknowledged :
    let flow : Flow := ⟨⟨[("stake", 0)], [⟨"stake", [], true⟩]⟩, { channel := 0, subject := "stake" }⟩
    ∃ h, (History.start flow).afterAll [.publish [120], .work .take, .work .buffer, .cancel,
        .work .stopIngest] = some h ∧ h.published = [[120]] ∧ h.Redelivered := by
  intro flow
  have hs : Flow.subscribe .empty "stake" none = .ok flow := rfl
  have hr : (History.start flow).afterAll [.publish [120], .work .take, .work .buffer, .cancel,
        .work .stopIngest] = some
      { flow := ⟨⟨[], [⟨"stake", [], false⟩]⟩,
          { flow.workers with ingest := .exited, events := [[120]], cancelled := true }⟩
        published := [[120]]
        acknowledged := [flow.workers.notification [120]] } := by decide +kernel
  obtain ⟨-, -, -, -, hiff⟩ := redelivered_iff_all_acknowledged hs hr rfl
  exact ⟨_, hr, rfl, hiff.mpr rfl⟩

/-- The pipeline is stopped while its worker holds a notification for which the events have no room. The feed
says that it took the notification back, and the next subscriber never sees it. -/
theorem handed_back_and_lost :
    let flow : Flow := ⟨⟨[("stake", 0)], [⟨"stake", [], true⟩]⟩, { channel := 0, subject := "stake" }⟩
    let d := flow.workers.notification [120]
    let os : List Occurrence := List.replicate 65 (.publish [120]) ++
      (List.replicate 64 [.work .take, .work .buffer]).flatten ++ [.work .take, .work .block, .cancel]
    ∃ held last, (History.start flow).afterAll os = some held ∧ held.flow.workers.ingest = .blocked d ∧
      (held.flow.feed.nack d).1 = true ∧ held.after (.work .stopIngest) = some last ∧
      last.flow.workers.ingest = .exited ∧ last.handedBack = [d] ∧
      (∃ id next, last.flow.feed.subscribe "stake" = .ok (id, next) ∧ next.next id = (.noneYet, next)) ∧
      ¬ last.Redelivered := by
  intro flow d os
  let held : History :=
    { flow := ⟨flow.feed, { flow.workers with
        ingest := .blocked d, events := List.replicate 64 [120], cancelled := true }⟩
      published := List.replicate 65 [120]
      acknowledged := List.replicate 64 d }
  let last : History :=
    { held with
      flow := ⟨⟨[], [⟨"stake", [d.again], false⟩]⟩, { held.flow.workers with ingest := .exited }⟩
      handedBack := [d] }
  have hs : Flow.subscribe .empty "stake" none = .ok flow := rfl
  have hheld : (History.start flow).afterAll os = some held := by decide +kernel
  have hlast : held.after (.work .stopIngest) = some last := by decide +kernel
  have hattended : held.Attended := (History.accounted_of_run hs hheld).resolve_right fun hd => nomatch hd.exited
  have hdeparted : last.Departed := (hattended.follows (History.follows_of_after hlast)).departed rfl
  have hlost : last.acknowledged.map Delivery.payload ≠ last.published := by decide +kernel
  obtain ⟨hnack, -⟩ := hattended.handBack (d := d) rfl
  exact ⟨held, last, hheld, rfl, hnack, hlast, rfl, rfl, hdeparted.next_subscriber,
    fun hr => hlost (hdeparted.redelivered_iff.mp hr)⟩

end StakeLedger.Staking
