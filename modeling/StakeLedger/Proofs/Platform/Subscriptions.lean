import StakeLedger.Proofs.Platform.Feed

/-!
The subscriptions of a feed. In an orderly feed the subscribers that are listed are those whose channel is open,
so a subject has at most one, and every queued notification names the channel it waits in.
-/

namespace StakeLedger.Platform.Feed

variable {feed next : Feed} {subject s : String} {id i : ChannelId} {d : Delivery} {c : Channel}

def Active (feed : Feed) (subject : String) (id : ChannelId) : Prop :=
  ∃ queue, feed.channel? id = some ⟨subject, queue, true⟩

def Ended (feed : Feed) (id : ChannelId) : Prop :=
  ∃ subject queue, feed.channel? id = some ⟨subject, queue, false⟩

structure Orderly (feed : Feed) : Prop where
  listed : ∀ {subject id}, feed.subscribers.lookup subject = some id ↔ feed.Active subject id
  origin : ∀ {id d}, d ∈ feed.queue id → d.origin = some id

structure Requeued (feed : Feed) (id : ChannelId) (queue : List Delivery) (next : Feed) : Prop where
  subscribers : next.subscribers = feed.subscribers
  here : next.channel? id = (feed.channel? id).map fun c => { c with queue }
  elsewhere : ∀ i ≠ id, next.channel? i = feed.channel? i

theorem exists_eq_mk {o : Bool} : (∃ queue, c = ⟨subject, queue, o⟩) ↔ c.subject = subject ∧ c.isOpen = o := by
  constructor
  · rintro ⟨queue, rfl⟩
    exact ⟨rfl, rfl⟩
  · rintro ⟨rfl, rfl⟩
    exact ⟨c.queue, rfl⟩

theorem isOpen_iff : feed.isOpen id = true ↔ ∃ subject, feed.Active subject id := by
  rw [isOpen]
  cases hc : feed.channel? id with
  | none => simp [Active, hc]
  | some c =>
    obtain ⟨subject, queue, o⟩ := c
    simp [Active, hc]

theorem Active.isOpen (h : feed.Active subject id) : feed.isOpen id = true :=
  isOpen_iff.mpr ⟨subject, h⟩

theorem Active.subject_eq (h : feed.Active subject id) (hs : feed.Active s id) : subject = s := by
  obtain ⟨_, hq⟩ := h
  obtain ⟨_, hq'⟩ := hs
  rw [hq] at hq'
  cases hq'
  rfl

theorem Ended.isOpen (h : feed.Ended id) : feed.isOpen id = false := by
  obtain ⟨_, _, hc⟩ := h
  rw [Feed.isOpen, hc]

theorem Ended.ne_of_isOpen (h : feed.Ended id) (ho : feed.isOpen i = true) : id ≠ i := by
  rintro rfl
  rw [h.isOpen] at ho
  cases ho

theorem Ended.of_channel?_eq (h : feed.Ended id) (hc : next.channel? id = feed.channel? id) : next.Ended id := by
  obtain ⟨subject, queue, he⟩ := h
  exact ⟨subject, queue, hc.trans he⟩

theorem queue_of_channel?_eq (hc : next.channel? id = feed.channel? id) : next.queue id = feed.queue id := by
  rw [queue, queue, hc]

theorem exists_channel_of_mem (h : d ∈ feed.queue id) : ∃ c, feed.channel? id = some c := by
  rw [queue] at h
  cases hc : feed.channel? id with
  | none => simp [hc] at h
  | some c => exact ⟨c, rfl⟩

theorem subscribe_of_lookup (h : feed.subscribers.lookup subject = some id) :
    feed.subscribe subject = .error (.alreadySubscribed subject) := by
  rw [subscribe, h]

theorem requeued_push (h : feed.isOpen id = true) :
    feed.Requeued id (feed.queue id ++ [d]) (feed.push id d) := by
  refine ⟨rfl, ?_, fun i hi => channel?_modify_of_ne hi _⟩
  obtain ⟨subject, queue, hc⟩ := isOpen_iff.mp h
  rw [push, channel?_modify, Feed.queue, hc]
  rfl

theorem requeued_next {rest : List Delivery} (h : feed.queue id = d :: rest) :
    ∃ next, feed.next id = (.delivery d, next) ∧ feed.Requeued id rest next :=
  ⟨feed.modify id fun c => { c with queue := rest }, by rw [Feed.next, h], rfl, channel?_modify _,
    fun _ hi => channel?_modify_of_ne hi _⟩

theorem next_unchanged {found : Next} (h : feed.next id = (found, next)) (hf : ∀ d, found ≠ .delivery d) :
    next = feed := by
  rw [Feed.next] at h
  cases hq : feed.queue id with
  | nil =>
    rw [hq] at h
    exact (Prod.mk.inj h).2.symm
  | cons d rest =>
    rw [hq] at h
    exact absurd (Prod.mk.inj h).1.symm (hf d)

theorem nack_of_not_isOpen (h : feed.isOpen id = false) (hd : d.origin = some id) :
    feed.nack d = (false, feed) := by
  rw [nack, hd]
  dsimp only
  rw [h, if_neg Bool.false_ne_true]

theorem nack_cases (feed : Feed) (d : Delivery) :
    (∃ id, d.origin = some id ∧ feed.isOpen id = true ∧ feed.nack d = (true, feed.push id d.again)) ∨
      feed.nack d = (false, feed) := by
  cases hd : d.origin with
  | none => exact .inr (by rw [nack, hd])
  | some id =>
    cases ho : feed.isOpen id with
    | true => exact .inl ⟨id, rfl, ho, nack_of_isOpen ho hd⟩
    | false => exact .inr (nack_of_not_isOpen ho hd)

theorem unsubscribe_of_not_isOpen (h : feed.isOpen id = false) : feed.unsubscribe id = feed := by
  rw [unsubscribe]
  cases hc : feed.channel? id with
  | none => rfl
  | some c =>
    rw [isOpen, hc] at h
    dsimp only at h ⊢
    rw [h, if_neg Bool.false_ne_true]

theorem Active.ended_unsubscribe (h : feed.Active subject id) : (feed.unsubscribe id).Ended id := by
  obtain ⟨queue, hc⟩ := h
  exact ⟨subject, queue, by rw [channel?_unsubscribe, hc]; rfl⟩

namespace Orderly

theorem empty : Feed.empty.Orderly := ⟨by simp [Feed.empty, Active, channel?], by simp [Feed.empty, queue, channel?]⟩

theorem serves (h : feed.Orderly) (ha : feed.Active subject id) : feed.Serves subject id := by
  refine ⟨h.listed.mpr ha, ?_⟩
  obtain ⟨queue, hc⟩ := ha
  rw [Feed.queue, hc]

theorem unique (h : feed.Orderly) (ha : feed.Active subject id) (hb : feed.Active subject i) : id = i :=
  Option.some.inj ((h.listed.mpr ha).symm.trans (h.listed.mpr hb))

theorem lookup_eq_none (h : feed.Orderly) :
    feed.subscribers.lookup subject = none ↔ ∀ id, ¬ feed.Active subject id := by
  rw [Option.eq_none_iff_forall_not_mem]
  exact forall_congr' fun id => not_congr h.listed

theorem modify (h : feed.Orderly) {f : Channel → Channel}
    (hsame : ∀ c, feed.channel? id = some c → (f c).subject = c.subject ∧ (f c).isOpen = c.isOpen)
    (horigin : ∀ c, feed.channel? id = some c → ∀ d ∈ (f c).queue, d.origin = some id) :
    (feed.modify id f).Orderly := by
  have hactive : ∀ {subject i}, (feed.modify id f).Active subject i ↔ feed.Active subject i := by
    intro subject i
    by_cases hi : i = id
    · subst hi
      rw [Active, Active, channel?_modify]
      cases hc : feed.channel? i with
      | none => rfl
      | some c =>
        obtain ⟨hs, ho⟩ := hsame c hc
        simp only [Option.map_some, Option.some.injEq, exists_eq_mk]
        rw [hs, ho]
    · rw [Active, Active, channel?_modify_of_ne hi]
  refine ⟨h.listed.trans hactive.symm, fun {i d} hd => ?_⟩
  by_cases hi : i = id
  · subst hi
    rw [queue, channel?_modify] at hd
    cases hc : feed.channel? i with
    | none => simp [hc] at hd
    | some c =>
      rw [hc] at hd
      exact horigin c hc d hd
  · rw [queue, channel?_modify_of_ne hi] at hd
    exact h.origin hd

theorem push (h : feed.Orderly) (hd : d.origin = some id) : (feed.push id d).Orderly := by
  refine h.modify (fun c _ => ⟨rfl, rfl⟩) fun c hc e he => ?_
  rcases List.mem_append.mp he with he | he
  · exact h.origin (by rwa [queue, hc])
  · rwa [List.mem_singleton.mp he]

theorem of_next (h : feed.Orderly) (hn : feed.next id = (.delivery d, next)) :
    next.Orderly ∧ d.origin = some id := by
  obtain ⟨rest, hq, rfl⟩ := next_eq hn
  have horigin : ∀ e ∈ d :: rest, e.origin = some id := fun e he => h.origin (hq ▸ he)
  exact ⟨h.modify (fun c _ => ⟨rfl, rfl⟩) fun c _ e he => horigin e (.tail _ he), horigin d (.head _)⟩

theorem abandon (h : feed.Orderly) (ho : feed.isOpen id = false) : (feed.abandon id).Orderly := by
  refine h.modify (fun c hc => ⟨rfl, ?_⟩) fun c _ d hd => nomatch hd
  rw [isOpen, hc] at ho
  exact ho.symm

end Orderly

theorem channel?_subscribe (h : feed.subscribe subject = .ok (id, next)) :
    feed.channel? id = none ∧ next.channel? id = some ⟨subject, [], true⟩ ∧
      ∀ i ≠ id, next.channel? i = feed.channel? i := by
  obtain ⟨-, rfl, rfl⟩ := subscribe_eq h
  refine ⟨by simp [channel?], by simp [channel?], fun i hi => ?_⟩
  rcases Nat.lt_or_gt_of_ne hi with hlt | hgt
  · rw [channel?, channel?, List.getElem?_append_left hlt]
  · rw [channel?, channel?, List.getElem?_eq_none (Nat.le_of_lt hgt),
      List.getElem?_eq_none (by simpa using Nat.succ_le_of_lt hgt)]

theorem Orderly.subscribe (h : feed.Orderly) (hs : feed.subscribe subject = .ok (id, next)) : next.Orderly := by
  obtain ⟨hnew, hid, helse⟩ := channel?_subscribe hs
  obtain ⟨hfree, -, hnext⟩ := subscribe_eq hs
  have hsubscribers : next.subscribers = feed.subscribers ++ [(subject, id)] := by rw [hnext]
  have hactive : ∀ {s i}, next.Active s i ↔ feed.Active s i ∨ s = subject ∧ i = id := by
    intro s i
    by_cases hi : i = id
    · subst hi
      simp [Active, hid, hnew, eq_comm]
    · simp [Active, helse i hi, hi]
  refine ⟨fun {s i} => ?_, fun {i d} hd => ?_⟩
  · rw [hactive, ← h.listed, hsubscribers, List.lookup_append]
    by_cases hss : s = subject
    · subst hss
      simp [hfree, eq_comm]
    · simp [hss, List.lookup_cons, beq_eq_false_iff_ne.mpr hss]
  · by_cases hi : i = id
    · subst hi
      rw [queue, hid] at hd
      cases hd
    · exact h.origin (queue_of_channel?_eq (helse i hi) ▸ hd)

theorem Orderly.unsubscribe (h : feed.Orderly) : (feed.unsubscribe id).Orderly := by
  cases ho : feed.isOpen id with
  | false => rwa [unsubscribe_of_not_isOpen ho]
  | true =>
    obtain ⟨subject, ha⟩ := isOpen_iff.mp ho
    have hactive : ∀ {s i}, (feed.unsubscribe id).Active s i ↔ feed.Active s i ∧ i ≠ id := by
      intro s i
      by_cases hi : i = id
      · subst hi
        obtain ⟨_, _, hc⟩ := ha.ended_unsubscribe
        simp [Active, hc]
      · simp [Active, channel?_unsubscribe_of_ne hi, hi]
    refine ⟨fun {s i} => ?_, fun {i d} hd => h.origin (queue_unsubscribe ▸ hd)⟩
    have hfilter : (feed.unsubscribe id).subscribers = feed.subscribers.filter (·.1 ≠ subject) :=
      subscribers_unsubscribe (h.serves ha).channel
    rw [hactive, hfilter]
    by_cases hs : s = subject
    · subst hs
      rw [lookup_filter_self]
      exact ⟨nofun, fun ⟨hi, hne⟩ => absurd (h.unique hi ha) hne⟩
    · rw [lookup_filter_ne hs, h.listed]
      exact ⟨fun hi => ⟨hi, by rintro rfl; exact hs (hi.subject_eq ha)⟩, And.left⟩

def queued (feed : Feed) : List Delivery := feed.channels.flatMap Channel.queue

theorem queued_modify (f : Channel → Channel) (h : feed.channel? id = some c) :
    ((feed.modify id f).queued ++ c.queue).Perm (feed.queued ++ (f c).queue) := by
  obtain ⟨subscribers, channels⟩ := feed
  simp only [channel?, queued, Feed.modify] at h ⊢
  induction channels generalizing id with
  | nil => cases h
  | cons x channels ih =>
    cases id with
    | zero =>
      cases h
      rw [List.perm_iff_count]
      intro a
      simp only [List.modify_zero_cons, List.flatMap_cons, List.count_append]
      omega
    | succ id =>
      simpa only [List.modify_succ_cons, List.flatMap_cons, List.append_assoc] using (ih h).append_left x.queue

theorem queued_push (h : feed.isOpen id = true) : (feed.push id d).queued.Perm (feed.queued ++ [d]) := by
  obtain ⟨subject, queue, hc⟩ := isOpen_iff.mp h
  have hperm := queued_modify (fun c => { c with queue := c.queue ++ [d] }) hc
  rw [List.perm_iff_count] at hperm ⊢
  intro a
  have hcount := hperm a
  simp only [List.count_append] at hcount ⊢
  rw [push]
  omega

theorem queued_next (h : feed.next id = (.delivery d, next)) : feed.queued.Perm (next.queued ++ [d]) := by
  obtain ⟨rest, hq, rfl⟩ := next_eq h
  obtain ⟨c, hc⟩ := exists_channel_of_mem (hq ▸ List.mem_cons_self : d ∈ feed.queue id)
  have hcq : c.queue = d :: rest := by rwa [queue, hc] at hq
  have hperm := queued_modify (fun c => { c with queue := rest }) hc
  rw [List.perm_iff_count] at hperm ⊢
  intro a
  have hcount := hperm a
  simp only [hcq, List.count_append, List.count_cons, List.count_nil] at hcount ⊢
  omega

theorem queued_subscribe (h : feed.subscribe subject = .ok (id, next)) : next.queued = feed.queued := by
  obtain ⟨-, -, rfl⟩ := subscribe_eq h
  simp [queued]

theorem queued_unsubscribe : (feed.unsubscribe id).queued.Perm feed.queued := by
  cases ho : feed.isOpen id with
  | false => rw [unsubscribe_of_not_isOpen ho]
  | true =>
    obtain ⟨subject, queue, hc⟩ := isOpen_iff.mp ho
    have hperm := queued_modify (fun c => { c with isOpen := false }) hc
    rw [unsubscribe, hc]
    exact (List.perm_append_right_iff queue).mp hperm

theorem queued_abandon (feed : Feed) (id : ChannelId) :
    feed.queued.Perm ((feed.abandon id).queued ++ feed.queue id) := by
  cases hc : feed.channel? id with
  | none =>
    have hlength : feed.channels.length ≤ id := List.getElem?_eq_none_iff.mp hc
    rw [queue, hc, List.append_nil, abandon, Feed.modify, List.modify_eq_self hlength]
  | some c =>
    have hperm := queued_modify (fun c => { c with queue := [], isOpen := false }) hc
    rw [queue, hc, abandon]
    simpa using hperm.symm

end StakeLedger.Platform.Feed
