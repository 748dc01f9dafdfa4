import StakeLedger.Proofs.Platform.Subscriptions

/-!
Runs of a feed under any order of calls by its users, and where the published notifications are.
Main statement: `contract_of_calls`.
-/

namespace StakeLedger.Platform

def Delivery.fresh (d : Delivery) : Delivery := { d with attempts := 0 }

/-- A call of a user of a feed. Notifications are settled by the one who took them, and a subscription is released
only after it was ended. -/
inductive FeedCall
  | subscribe (subject : String)
  | publish (subject : String) (payload : Bytes)
  | next (id : ChannelId)
  | ack (d : Delivery)
  | nack (d : Delivery)
  | unsubscribe (id : ChannelId)
  | release (id : ChannelId)
  deriving DecidableEq

def FeedCall.isNack : FeedCall → Bool
  | .nack _ => true
  | _ => false

structure Traffic where
  feed : Feed := .empty
  published : List Delivery := []
  taken : List Delivery := []
  held : List Delivery := []
  acknowledged : List Delivery := []
  /-- Handed back to a subscription that had ended. -/
  dropped : List Delivery := []
  /-- Left in the channel of a subscription that was released. -/
  discarded : List Delivery := []
  deriving DecidableEq

namespace Traffic

def after (t : Traffic) : FeedCall → Option Traffic
  | .subscribe subject =>
    match t.feed.subscribe subject with
    | .ok (_, feed) => some { t with feed }
    | .error _ => some t
  | .publish subject payload =>
    match t.feed.publish subject payload with
    | .ok feed =>
      let d : Delivery := { subject, payload, origin := t.feed.subscribers.lookup subject }
      some { t with feed, published := t.published ++ [d] }
    | .error _ => some t
  | .next id =>
    match t.feed.next id with
    | (.delivery d, feed) => some { t with feed, taken := t.taken ++ [d], held := t.held ++ [d] }
    | (_, feed) => some { t with feed }
  | .ack d =>
    if d ∈ t.held then some { t with held := t.held.erase d, acknowledged := t.acknowledged ++ [d] } else none
  | .nack d =>
    if d ∈ t.held then
      match t.feed.nack d with
      | (true, feed) => some { t with feed, held := t.held.erase d }
      | (false, feed) => some { t with feed, held := t.held.erase d, dropped := t.dropped ++ [d] }
    else none
  | .unsubscribe id => some { t with feed := t.feed.unsubscribe id }
  | .release id =>
    if t.feed.isOpen id then none
    else some { t with feed := t.feed.abandon id, discarded := t.discarded ++ t.feed.queue id }

def afterAll (t : Traffic) (calls : List FeedCall) : Option Traffic := calls.foldlM after t

def places (t : Traffic) : List Delivery :=
  t.feed.queued ++ t.held ++ t.acknowledged ++ t.dropped ++ t.discarded

def takenFrom (t : Traffic) (id : ChannelId) : List Delivery := t.taken.filter (·.origin = some id)

inductive Step (t : Traffic) : FeedCall → Traffic → Prop
  | refused {call} : t.Step call t
  | opened {subject id next} : t.feed.subscribe subject = .ok (id, next) →
      t.Step (.subscribe subject) { t with feed := next }
  | published {subject payload id d} : t.feed.isOpen id = true → d = { subject, payload, origin := some id } →
      t.Step (.publish subject payload) { t with feed := t.feed.push id d, published := t.published ++ [d] }
  | taken {id d next} : t.feed.next id = (.delivery d, next) →
      t.Step (.next id) { t with feed := next, taken := t.taken ++ [d], held := t.held ++ [d] }
  | acknowledged {d} : d ∈ t.held →
      t.Step (.ack d) { t with held := t.held.erase d, acknowledged := t.acknowledged ++ [d] }
  | returned {id d} : d ∈ t.held → d.origin = some id → t.feed.isOpen id = true →
      t.Step (.nack d) { t with feed := t.feed.push id d.again, held := t.held.erase d }
  | dropped {d} : d ∈ t.held →
      t.Step (.nack d) { t with held := t.held.erase d, dropped := t.dropped ++ [d] }
  | ended {id} : t.feed.isOpen id = true → t.Step (.unsubscribe id) { t with feed := t.feed.unsubscribe id }
  | released {id} : t.feed.isOpen id = false →
      t.Step (.release id) { t with feed := t.feed.abandon id, discarded := t.discarded ++ t.feed.queue id }

variable {t t' : Traffic} {call : FeedCall} {calls : List FeedCall} {id i : ChannelId} {d : Delivery}

theorem step_of_after (h : t.after call = some t') : t.Step call t' := by
  cases call with
  | subscribe subject =>
    rw [after] at h
    cases hs : t.feed.subscribe subject with
    | error e =>
      rw [hs] at h
      cases h
      exact .refused
    | ok r =>
      rw [hs] at h
      cases h
      exact .opened hs
  | publish subject payload =>
    rw [after, Feed.publish] at h
    cases hl : t.feed.subscribers.lookup subject with
    | none =>
      rw [hl] at h
      cases h
      exact .refused
    | some id =>
      rw [hl] at h
      cases ho : t.feed.isOpen id with
      | false =>
        simp only [ho] at h
        cases h
        exact .refused
      | true =>
        simp only [ho] at h
        cases h
        exact .published ho rfl
  | next id =>
    rw [after] at h
    cases hn : t.feed.next id with
    | mk found next =>
      rw [hn] at h
      cases found with
      | delivery d =>
        cases h
        exact .taken hn
      | noneYet | ended =>
        cases h
        obtain rfl := Feed.next_unchanged hn (by simp)
        exact .refused
  | ack d =>
    obtain ⟨hd, h⟩ := Option.ite_none_right_eq_some.mp h
    cases h
    exact .acknowledged hd
  | nack d =>
    obtain ⟨hd, h⟩ := Option.ite_none_right_eq_some.mp h
    rcases Feed.nack_cases t.feed d with ⟨id, ho, hopen, hn⟩ | hn
    · rw [hn] at h
      cases h
      exact .returned hd ho hopen
    · rw [hn] at h
      cases h
      exact .dropped hd
  | unsubscribe id =>
    cases h
    cases ho : t.feed.isOpen id with
    | true => exact .ended ho
    | false =>
      rw [Feed.unsubscribe_of_not_isOpen ho]
      exact .refused
  | release id =>
    rw [after] at h
    cases ho : t.feed.isOpen id with
    | true => simp [ho] at h
    | false =>
      rw [ho] at h
      cases h
      exact .released ho

def seen (a : Delivery) (ds : List Delivery) : Nat := (ds.map Delivery.fresh).count a

section Seen

variable {a : Delivery} {ds ds' : List Delivery}

@[simp] theorem seen_append : seen a (ds ++ ds') = seen a ds + seen a ds' := by
  rw [seen, List.map_append, List.count_append, seen, seen]

@[simp] theorem seen_again : seen a [d.again] = seen a [d] := rfl

theorem seen_eq (h : ds.Perm ds') : seen a ds = seen a ds' := (h.map _).count_eq a

theorem seen_erase (h : d ∈ ds) : seen a ds = seen a [d] + seen a (ds.erase d) := by
  rw [← seen_append, List.singleton_append]
  exact seen_eq (List.perm_cons_erase h)

end Seen

structure Sound (t : Traffic) : Prop where
  orderly : t.feed.Orderly
  held : ∀ d ∈ t.held, ∃ id, d.origin = some id
  /-- Every published notification is in one place, and nothing else is. -/
  located : ∀ a, t.published.count a = seen a t.places

theorem sound_empty : Sound {} := ⟨.empty, nofun, fun _ => rfl⟩

theorem Sound.step (h : t.Sound) (hs : t.Step call t') : t'.Sound := by
  have herase : ∀ d, ∀ e ∈ t.held.erase d, ∃ id, e.origin = some id :=
    fun d e he => h.held e (List.mem_of_mem_erase he)
  have hlocated := h.located
  simp only [places, seen_append] at hlocated
  cases hs with
  | refused => exact h
  | opened hs =>
    refine ⟨h.orderly.subscribe hs, h.held, ?_⟩
    simpa only [places, seen_append, Feed.queued_subscribe hs] using hlocated
  | @published subject payload id d ho hd =>
    have hfresh : d.fresh = d := by rw [hd, Delivery.fresh]
    refine ⟨h.orderly.push (by rw [hd]), h.held, fun a => ?_⟩
    have hseen : seen a [d] = [d].count a := by rw [seen, List.map_singleton, hfresh]
    simp only [places, seen_append, List.count_append, hlocated a, seen_eq (Feed.queued_push ho), hseen]
    omega
  | @taken id d next hn =>
    obtain ⟨horderly, horigin⟩ := h.orderly.of_next hn
    refine ⟨horderly, fun e he => ?_, fun a => ?_⟩
    · rcases List.mem_append.mp he with he | he
      · exact h.held e he
      · rw [List.mem_singleton.mp he]
        exact ⟨id, horigin⟩
    · simp only [places, seen_append, hlocated a, seen_eq (Feed.queued_next hn)]
      omega
  | @acknowledged d hd =>
    refine ⟨h.orderly, herase d, fun a => ?_⟩
    simp only [places, seen_append, hlocated a, seen_erase hd]
    omega
  | @returned id d hd ho hopen =>
    refine ⟨h.orderly.push ho, herase d, fun a => ?_⟩
    simp only [places, seen_append, hlocated a, seen_erase hd, seen_eq (Feed.queued_push hopen),
      seen_again]
    omega
  | @dropped d hd =>
    refine ⟨h.orderly, herase d, fun a => ?_⟩
    simp only [places, seen_append, hlocated a, seen_erase hd]
    omega
  | ended ho =>
    refine ⟨h.orderly.unsubscribe, h.held, fun a => ?_⟩
    simp only [places, seen_append, hlocated a, seen_eq Feed.queued_unsubscribe]
  | @released id ho =>
    refine ⟨h.orderly.abandon ho, h.held, fun a => ?_⟩
    simp only [places, seen_append, hlocated a, seen_eq (t.feed.queued_abandon id)]
    omega

theorem Sound.ended_step (h : t.Sound) (he : t.feed.Ended id) (hr : call ≠ .release id) (hs : t.Step call t') :
    t'.feed.Ended id ∧ t'.takenFrom id ++ t'.feed.queue id = t.takenFrom id ++ t.feed.queue id := by
  have hframe : ∀ {next : Feed}, next.channel? id = t.feed.channel? id →
      next.Ended id ∧ t.takenFrom id ++ next.queue id = t.takenFrom id ++ t.feed.queue id :=
    fun hc => ⟨he.of_channel?_eq hc, by rw [Feed.queue_of_channel?_eq hc]⟩
  cases hs with
  | refused | acknowledged | dropped => exact ⟨he, rfl⟩
  | @opened subject i next hs =>
    obtain ⟨hnew, -, helse⟩ := Feed.channel?_subscribe hs
    refine hframe (helse id ?_)
    rintro rfl
    obtain ⟨_, _, hc⟩ := he
    rw [hnew] at hc
    cases hc
  | published ho | returned _ _ ho => exact hframe (Feed.channel?_modify_of_ne (he.ne_of_isOpen ho) _)
  | ended ho => exact hframe (Feed.channel?_unsubscribe_of_ne (he.ne_of_isOpen ho))
  | @released i ho => exact hframe (Feed.channel?_modify_of_ne (fun hi => hr (by rw [hi])) _)
  | @taken i d next hn =>
    obtain ⟨-, horigin⟩ := h.orderly.of_next hn
    obtain ⟨hq, -⟩ := Feed.next_delivery hn
    obtain ⟨rest, -, rfl⟩ := Feed.next_eq hn
    by_cases hi : id = i
    · subst hi
      obtain ⟨subject, queue, hc⟩ := he
      refine ⟨⟨subject, rest, by rw [Feed.channel?_modify, hc]; rfl⟩, ?_⟩
      simp [takenFrom, List.filter_append, horigin, hq]
    · have hne : d.origin ≠ some id := by
        rw [horigin]
        exact fun he => hi (Option.some.inj he).symm
      simpa [takenFrom, List.filter_append, hne] using hframe (Feed.channel?_modify_of_ne hi _)

theorem Sound.afterAll (h : t.Sound) (hr : t.afterAll calls = some t') : t'.Sound := by
  induction calls generalizing t with
  | nil =>
    cases hr
    exact h
  | cons call calls ih =>
    obtain ⟨m, hm, hr⟩ := Option.bind_eq_some_iff.mp hr
    exact ih (h.step (step_of_after hm)) hr

theorem Sound.ended_afterAll (h : t.Sound) (he : t.feed.Ended id) (hn : .release id ∉ calls)
    (hr : t.afterAll calls = some t') :
    t'.feed.Ended id ∧ t'.takenFrom id ++ t'.feed.queue id = t.takenFrom id ++ t.feed.queue id := by
  induction calls generalizing t with
  | nil =>
    cases hr
    exact ⟨he, rfl⟩
  | cons call calls ih =>
    obtain ⟨m, hm, hr⟩ := Option.bind_eq_some_iff.mp hr
    have hs := step_of_after hm
    obtain ⟨hcall, hcalls⟩ := List.ne_and_not_mem_of_not_mem_cons hn
    obtain ⟨hended, hrest⟩ := h.ended_step he hcall.symm hs
    obtain ⟨hended', hrest'⟩ := ih (h.step hs) hended hcalls hr
    exact ⟨hended', hrest'.trans hrest⟩

theorem mem_places_step (hs : t.Step call t') (hd : d ∈ t'.places) :
    d ∈ t.places ∨ d.attempts = 0 ∨ call.isNack = true ∧ ∃ e ∈ t.places, d = e.again := by
  simp only [places, List.mem_append] at hd ⊢
  cases hs with
  | refused => exact .inl hd
  | opened hs =>
    rw [Feed.queued_subscribe hs] at hd
    exact .inl hd
  | published ho hn =>
    rw [(Feed.queued_push ho).mem_iff, List.mem_append, List.mem_singleton] at hd
    grind
  | taken hn =>
    rw [(Feed.queued_next hn).mem_iff]
    grind
  | acknowledged | dropped => grind [List.mem_of_mem_erase]
  | returned hh ho hopen =>
    rw [(Feed.queued_push hopen).mem_iff, List.mem_append, List.mem_singleton] at hd
    grind [List.mem_of_mem_erase, FeedCall.isNack]
  | ended ho =>
    rw [Feed.queued_unsubscribe.mem_iff] at hd
    exact .inl hd
  | @released id ho =>
    rw [(t.feed.queued_abandon id).mem_iff]
    grind

theorem attempts_afterAll {n : Nat} (h : ∀ d ∈ t.places, d.attempts.toNat ≤ n)
    (hr : t.afterAll calls = some t') :
    ∀ d ∈ t'.places, d.attempts.toNat ≤ n + calls.countP FeedCall.isNack := by
  induction calls generalizing t n with
  | nil =>
    cases hr
    exact h
  | cons call calls ih =>
    obtain ⟨m, hm, hr⟩ := Option.bind_eq_some_iff.mp hr
    have hone : ∀ e ∈ m.places, e.attempts.toNat ≤ n + if call.isNack then 1 else 0 := by
      intro e he
      rcases mem_places_step (step_of_after hm) he with hold | hnew | ⟨hnack, e', he', rfl⟩
      · exact Nat.le_add_right_of_le (h e hold)
      · rw [hnew]
        exact Nat.zero_le _
      · rw [if_pos hnack, Delivery.toNat_attempts_again]
        exact Nat.le_trans (Nat.mod_le _ _) (Nat.succ_le_succ (h e' he'))
    intro d hd
    rw [List.countP_cons, Nat.add_comm (calls.countP _), ← Nat.add_assoc]
    exact ih hone hr d hd

/-- The count of a notification is exact as long as notifications were handed back fewer than 2^32 times. -/
theorem toNat_attempts_again_of_held (hr : afterAll {} calls = some t)
    (hn : calls.countP FeedCall.isNack + 1 < UInt32.size) (hd : d ∈ t.held) :
    d.again.attempts.toNat = d.attempts.toNat + 1 := by
  have hnone : ∀ e ∈ places {}, e.attempts.toNat ≤ 0 := nofun
  have hle := attempts_afterAll hnone hr d (by grind [places])
  rw [Delivery.toNat_attempts_again, Nat.mod_eq_of_lt (by omega)]

structure Contract (t : Traffic) : Prop where
  one : ∀ {subject id i}, t.feed.Active subject id → t.feed.Active subject i → id = i
  subscribe : ∀ {subject}, (∀ id, ¬ t.feed.Active subject id) →
    ∃ id next, t.feed.subscribe subject = .ok (id, next) ∧ t.feed.channel? id = none ∧
      next.Active subject id ∧ next.queue id = [] ∧ ∀ i ≠ id, next.channel? i = t.feed.channel? i
  subscribeTaken : ∀ {subject id}, t.feed.Active subject id →
    t.feed.subscribe subject = .error (.alreadySubscribed subject) ∧ t.after (.subscribe subject) = some t
  publish : ∀ {subject id}, t.feed.Active subject id → ∀ payload,
    ∃ next, t.feed.publish subject payload = .ok next ∧
      t.feed.Requeued id (t.feed.queue id ++ [{ subject, payload, attempts := 0, origin := some id }]) next
  publishFree : ∀ {subject}, (∀ id, ¬ t.feed.Active subject id) → ∀ payload,
    t.feed.publish subject payload = .error (.noSubscriber subject) ∧ t.after (.publish subject payload) = some t
  next : ∀ {id d rest}, t.feed.queue id = d :: rest →
    ∃ next, t.feed.next id = (.delivery d, next) ∧ t.feed.Requeued id rest next
  nextEmpty : ∀ {id}, t.feed.queue id = [] →
    t.feed.next id = (if t.feed.isOpen id then .noneYet else .ended, t.feed)
  nack : ∀ {d}, d ∈ t.held → ∃ id, d.origin = some id ∧
    ((∃ subject, t.feed.Active subject id) →
      ∃ next, t.feed.nack d = (true, next) ∧ t.feed.Requeued id (t.feed.queue id ++ [d.again]) next) ∧
    ((∀ subject, ¬ t.feed.Active subject id) → t.feed.nack d = (false, t.feed))
  unsubscribe : ∀ {subject id}, t.feed.Active subject id → (t.feed.unsubscribe id).Ended id ∧
    (t.feed.unsubscribe id).queue id = t.feed.queue id ∧ (∀ i, ¬ (t.feed.unsubscribe id).Active subject i) ∧
    ∀ i ≠ id, (t.feed.unsubscribe id).channel? i = t.feed.channel? i
  unsubscribeAgain : ∀ {id}, t.feed.Ended id → t.feed.unsubscribe id = t.feed

theorem Sound.contract (h : t.Sound) : t.Contract where
  one := h.orderly.unique
  subscribe hfree := by
    obtain ⟨id, next, hs⟩ := Feed.subscribe_of_lookup_eq_none (h.orderly.lookup_eq_none.mpr hfree)
    obtain ⟨hnew, hc, helse⟩ := Feed.channel?_subscribe hs
    exact ⟨id, next, hs, hnew, ⟨_, hc⟩, by rw [Feed.queue, hc], helse⟩
  subscribeTaken ha := by
    have hs := Feed.subscribe_of_lookup (h.orderly.listed.mpr ha)
    exact ⟨hs, by rw [after, hs]⟩
  publish ha payload := ⟨_, (h.orderly.serves ha).publish payload, Feed.requeued_push ha.isOpen⟩
  publishFree hfree payload := by
    have hp := Feed.publish_of_lookup_eq_none (h.orderly.lookup_eq_none.mpr hfree) payload
    exact ⟨hp, by rw [after, hp]⟩
  next := Feed.requeued_next
  nextEmpty := Feed.next_of_empty
  nack hd := by
    obtain ⟨id, ho⟩ := h.held _ hd
    refine ⟨id, ho, fun ha => ?_, fun hn => ?_⟩
    · have hopen := Feed.isOpen_iff.mpr ha
      exact ⟨_, Feed.nack_of_isOpen hopen ho, Feed.requeued_push hopen⟩
    · have hclosed : t.feed.isOpen id = false := by
        rw [← Bool.not_eq_true, Feed.isOpen_iff]
        exact not_exists.mpr hn
      exact Feed.nack_of_not_isOpen hclosed ho
  unsubscribe ha := by
    refine ⟨ha.ended_unsubscribe, Feed.queue_unsubscribe, ?_, fun i hi => Feed.channel?_unsubscribe_of_ne hi⟩
    rw [← h.orderly.unsubscribe.lookup_eq_none, Feed.subscribers_unsubscribe (h.orderly.serves ha).channel,
      Feed.lookup_filter_self]
  unsubscribeAgain he := Feed.unsubscribe_of_not_isOpen he.isOpen

/-- Whatever the users of a feed call, and in whatever order: every call does what the contract says; every
published notification is in one place, as often as it was published; from a subscription that was ended its
user takes what was already queued, and nothing besides; and a notification that is handed back counts one more,
in 32 bits, which is exact until notifications were handed back 2^32 times. -/
theorem contract_of_calls (hr : afterAll {} calls = some t) :
    t.Contract ∧ t.published.Perm (t.places.map Delivery.fresh) ∧
      (∀ id later t', t.feed.Ended id → .release id ∉ later → t.afterAll later = some t' →
        t'.feed.Ended id ∧ t'.takenFrom id ++ t'.feed.queue id = t.takenFrom id ++ t.feed.queue id) ∧
      ∀ d ∈ t.held, d.again.attempts.toNat = (d.attempts.toNat + 1) % UInt32.size ∧
        (calls.countP FeedCall.isNack + 1 < UInt32.size → d.again.attempts.toNat = d.attempts.toNat + 1) := by
  have hsound := sound_empty.afterAll hr
  exact ⟨hsound.contract, List.perm_iff_count.mpr hsound.located,
    fun id later t' he hn hl => hsound.ended_afterAll he hn hl,
    fun d hd => ⟨d.toNat_attempts_again, fun hn => toNat_attempts_again_of_held hr hn hd⟩⟩

/-- A notification of a subscription that was ended is handed back after another has taken over the subject: it is
dropped, and to end the first subscription once more leaves the second alone. Handed back before that, it counts
one. -/
theorem contract_past_takeover :
    let d : Delivery := { subject := "stake", payload := [1], origin := some 0 }
    let later : Delivery := { d with payload := [2] }
    let opening : List FeedCall := [.subscribe "stake", .publish "stake" [1], .publish "stake" [2], .next 0]
    let calls : List FeedCall := opening ++ [.unsubscribe 0, .subscribe "stake", .nack d]
    ∃ m t t', afterAll {} opening = some m ∧ d ∈ m.held ∧ d.again.attempts.toNat = 1 ∧
      afterAll {} calls = some t ∧ t.dropped = [d] ∧ t.feed.queue 1 = [] ∧
      t.feed.unsubscribe 0 = t.feed ∧ t.feed.Active "stake" 1 ∧ [d, later].Perm (t.places.map Delivery.fresh) ∧
      t.afterAll [.next 0, .ack later, .next 0] = some t' ∧ t'.takenFrom 0 ++ t'.feed.queue 0 = [d, later] ∧
      t'.feed.next 0 = (.ended, t'.feed) := by
  intro d later opening calls
  let m : Traffic :=
    { feed := ⟨[("stake", 0)], [⟨"stake", [later], true⟩]⟩
      published := [d, later]
      taken := [d]
      held := [d] }
  let t : Traffic :=
    { feed := ⟨[("stake", 1)], [⟨"stake", [later], false⟩, ⟨"stake", [], true⟩]⟩
      published := [d, later]
      taken := [d]
      dropped := [d] }
  let t' : Traffic :=
    { t with
      feed := ⟨[("stake", 1)], [⟨"stake", [], false⟩, ⟨"stake", [], true⟩]⟩
      taken := [d, later]
      acknowledged := [later] }
  have hm : afterAll {} opening = some m := by decide
  have hr : afterAll {} calls = some t := by decide
  have hl : t.afterAll [.next 0, .ack later, .next 0] = some t' := by decide
  have he : t.feed.Ended 0 := ⟨"stake", [later], rfl⟩
  have hd : d ∈ m.held := List.mem_singleton.mpr rfl
  obtain ⟨-, hexact⟩ := (contract_of_calls hm).2.2.2 d hd
  obtain ⟨hcontract, hlocated, hended, -⟩ := contract_of_calls hr
  obtain ⟨-, htaken⟩ := hended 0 _ t' he (by decide) hl
  exact ⟨m, t, t', hm, hd, hexact (by decide), hr, rfl, rfl, hcontract.unsubscribeAgain he, ⟨[], rfl⟩, hlocated, hl,
    htaken, rfl⟩

end Traffic

end StakeLedger.Platform
