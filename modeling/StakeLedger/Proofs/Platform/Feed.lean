import StakeLedger.Platform.Feed

namespace StakeLedger.Platform

def Delivery.again (d : Delivery) : Delivery := { d with attempts := d.attempts + 1 }

theorem Delivery.toNat_attempts_again (d : Delivery) :
    d.again.attempts.toNat = (d.attempts.toNat + 1) % UInt32.size := by
  rw [Delivery.again, UInt32.toNat_add, UInt32.toNat_one]

namespace Feed

variable {feed next : Feed} {subject : String} {id i : ChannelId} {d : Delivery}

structure Serves (feed : Feed) (subject : String) (id : ChannelId) : Prop where
  subscribed : feed.subscribers.lookup subject = some id
  channel : feed.channel? id = some ⟨subject, feed.queue id, true⟩

theorem Serves.isOpen (h : feed.Serves subject id) : feed.isOpen id = true := by rw [Feed.isOpen, h.channel]

theorem channel?_modify (f : Channel → Channel) :
    (feed.modify id f).channel? id = (feed.channel? id).map f := by
  simp [channel?, modify]

theorem channel?_modify_of_ne (h : i ≠ id) (f : Channel → Channel) :
    (feed.modify id f).channel? i = feed.channel? i := by
  simp [channel?, modify, Ne.symm h]

theorem Serves.modify (h : feed.Serves subject id) (f : Channel → List Delivery) :
    (feed.modify id fun c => { c with queue := f c }).Serves subject id := by
  refine ⟨h.subscribed, ?_⟩
  rw [queue, channel?_modify, h.channel]
  rfl

theorem queue_push (h : feed.isOpen id = true) : (feed.push id d).queue id = feed.queue id ++ [d] := by
  rw [isOpen] at h
  simp only [queue, push]
  rw [channel?_modify]
  cases hc : feed.channel? id with
  | none => simp [hc] at h
  | some c => rfl

theorem Serves.push (h : feed.Serves subject id) : (feed.push id d).Serves subject id :=
  h.modify fun c => c.queue ++ [d]

theorem Serves.publish (h : feed.Serves subject id) (payload : Bytes) :
    feed.publish subject payload = .ok (feed.push id { subject, payload, origin := some id }) := by
  simp [Feed.publish, h.subscribed, h.isOpen]

theorem next_eq (h : feed.next id = (.delivery d, next)) :
    ∃ rest, feed.queue id = d :: rest ∧ next = feed.modify id fun c => { c with queue := rest } := by
  rw [Feed.next] at h
  cases hq : feed.queue id with
  | nil =>
    simp only [hq, Prod.mk.injEq] at h
    split at h <;> exact nomatch h.1
  | cons d' rest =>
    simp only [hq, Prod.mk.injEq, Next.delivery.injEq] at h
    obtain ⟨rfl, rfl⟩ := h
    exact ⟨rest, rfl, rfl⟩

theorem next_delivery (h : feed.next id = (.delivery d, next)) :
    feed.queue id = d :: next.queue id ∧ ∀ subject, feed.Serves subject id → next.Serves subject id := by
  obtain ⟨rest, hq, rfl⟩ := next_eq h
  refine ⟨hq.trans ?_, fun subject hs => hs.modify fun _ => rest⟩
  congr 1
  rw [queue] at hq ⊢
  rw [channel?_modify]
  cases hc : feed.channel? id with
  | none => simp [hc] at hq
  | some c => rfl

theorem subscribe_eq (h : feed.subscribe subject = .ok (id, next)) :
    feed.subscribers.lookup subject = none ∧ id = feed.channels.length ∧
      next = ⟨feed.subscribers ++ [(subject, id)], feed.channels ++ [⟨subject, [], true⟩]⟩ := by
  rw [subscribe] at h
  cases hl : feed.subscribers.lookup subject with
  | some _ => simp [hl] at h
  | none =>
    simp only [hl, Except.ok.injEq, Prod.mk.injEq] at h
    obtain ⟨rfl, rfl⟩ := h
    exact ⟨rfl, rfl, rfl⟩

theorem subscribe_serves (h : feed.subscribe subject = .ok (id, next)) :
    next.Serves subject id ∧ next.queue id = [] := by
  obtain ⟨hl, rfl, rfl⟩ := subscribe_eq h
  refine ⟨⟨?_, ?_⟩, ?_⟩
  · rw [List.lookup_append, hl]
    simp
  · simp [queue, channel?]
  · simp [queue, channel?]

theorem next_of_empty (h : feed.queue id = []) :
    feed.next id = (if feed.isOpen id then .noneYet else .ended, feed) := by
  rw [Feed.next, h]

theorem Serves.next_of_empty (h : feed.Serves subject id) (hq : feed.queue id = []) :
    feed.next id = (.noneYet, feed) := by
  rw [Feed.next_of_empty hq, h.isOpen]
  rfl

theorem nack_of_isOpen (h : feed.isOpen id = true) (hd : d.origin = some id) :
    feed.nack d = (true, feed.push id d.again) := by
  have hnack : feed.nack d = if feed.isOpen id then (true, feed.push id d.again) else (false, feed) := by
    rw [nack, hd, Delivery.again, hd]
  rw [hnack, if_pos h]

theorem channel?_unsubscribe :
    (feed.unsubscribe id).channel? id = (feed.channel? id).map fun c => { c with isOpen := false } := by
  rw [unsubscribe]
  cases hc : feed.channel? id with
  | none => exact hc
  | some c =>
    dsimp only
    split
    · exact channel?_modify _ |>.trans (by rw [hc])
    · next ho =>
      rw [hc, Option.map_some, ← Bool.eq_false_iff.mpr ho]

theorem channel?_unsubscribe_of_ne (h : i ≠ id) : (feed.unsubscribe id).channel? i = feed.channel? i := by
  rw [unsubscribe]
  cases feed.channel? id with
  | none => rfl
  | some c =>
    dsimp only
    split
    · exact channel?_modify_of_ne h _
    · rfl

theorem queue_unsubscribe : (feed.unsubscribe id).queue i = feed.queue i := by
  by_cases hi : i = id
  · rw [hi, queue, queue, channel?_unsubscribe]
    cases feed.channel? id <;> rfl
  · rw [queue, queue, channel?_unsubscribe_of_ne hi]

theorem length_queue_nack : ((feed.nack d).2.queue i).length ≤ (feed.queue i).length + 1 := by
  rw [nack]
  cases d.origin with
  | none => exact Nat.le_succ _
  | some id =>
    dsimp only
    split
    · next h =>
      by_cases hi : i = id
      · rw [hi, queue_push h, List.length_append]
        exact Nat.le_refl _
      · rw [push, queue, channel?_modify_of_ne hi]
        exact Nat.le_succ _
    · exact Nat.le_succ _

theorem subscribe_of_lookup_eq_none (h : feed.subscribers.lookup subject = none) :
    ∃ id next, feed.subscribe subject = .ok (id, next) := by
  rw [subscribe, h]
  exact ⟨_, _, rfl⟩

theorem publish_of_lookup_eq_none (h : feed.subscribers.lookup subject = none) (payload : Bytes) :
    feed.publish subject payload = .error (.noSubscriber subject) := by
  rw [publish, h]

/-- Nobody is subscribed to a subject any more, and the channel that served it takes nothing back. -/
structure Deserted (feed : Feed) (subject : String) (id : ChannelId) : Prop where
  free : feed.subscribers.lookup subject = none
  closed : feed.isOpen id = false

theorem Deserted.publish (h : feed.Deserted subject id) (payload : Bytes) :
    feed.publish subject payload = .error (.noSubscriber subject) :=
  publish_of_lookup_eq_none h.free payload

theorem Deserted.subscribe (h : feed.Deserted subject id) :
    ∃ id next, feed.subscribe subject = .ok (id, next) :=
  subscribe_of_lookup_eq_none h.free

theorem lookup_filter_ne {l : List (String × ChannelId)} {s : String} (h : subject ≠ s) :
    (l.filter (·.1 ≠ s)).lookup subject = l.lookup subject := by
  induction l with
  | nil => rfl
  | cons p l ih =>
    obtain ⟨key, value⟩ := p
    by_cases hk : key = s
    · have hne : (subject == key) = false := beq_eq_false_iff_ne.mpr (hk ▸ h)
      rw [List.filter_cons_of_neg (by simpa using hk), ih, List.lookup_cons, hne]
    · rw [List.filter_cons_of_pos (by simpa using hk), List.lookup_cons, List.lookup_cons, ih]

theorem lookup_filter_self {l : List (String × ChannelId)} :
    (l.filter (·.1 ≠ subject)).lookup subject = none := by
  rw [List.lookup_eq_none_iff]
  intro p hp
  have hne : p.1 ≠ subject := of_decide_eq_true (List.mem_filter.mp hp).2
  simpa using hne.symm

theorem subscribers_unsubscribe {queue : List Delivery} (h : feed.channel? id = some ⟨subject, queue, true⟩) :
    (feed.unsubscribe id).subscribers = feed.subscribers.filter (·.1 ≠ subject) := by
  rw [Feed.unsubscribe, h]
  rfl

theorem Serves.unsubscribe (h : feed.Serves subject id) :
    (feed.unsubscribe id).Deserted subject id ∧ (feed.unsubscribe id).queue id = feed.queue id := by
  refine ⟨⟨?_, ?_⟩, queue_unsubscribe⟩
  · rw [subscribers_unsubscribe h.channel, lookup_filter_self]
  · rw [Feed.isOpen, channel?_unsubscribe, h.channel]
    rfl

end Feed

end StakeLedger.Platform
