import StakeLedger.Proofs.Staking.Conservation
import StakeLedger.Proofs.Staking.Draining

/-!
The workers of a pipeline stop, and only where a drain lets them go on or where all is done. Main statement:
`workers_never_stuck`.
-/

namespace StakeLedger.Staking

open Platform

def Ingest.weight : Ingest → Nat
  | .idle => 8
  | .taken _ => 14
  | .blocked _ => 13
  | .exited => 0

def Translate.weight : Translate → Nat
  | .idle => 1
  | .payload _ => 4
  | .delta _ => 3
  | .exited => 0

theorem Ingest.weight_of_hand {i : Ingest} {d : Delivery} (h : i.hand = [d]) : 13 ≤ i.weight := by
  cases i <;> simp [hand, weight] at h ⊢

theorem Translate.weight_ofPayload (p : Bytes) : (ofPayload p).weight < 4 := by
  rw [ofPayload]
  split <;> exact Nat.lt_of_sub_eq_succ rfl

theorem Translate.weight_pos {t : Translate} (h : t ≠ .exited) : 0 < t.weight := by
  cases t <;> simp [weight] at h ⊢

namespace Flow

variable {f g : Flow} {m : Move} {ms : List Move}

theorem movesLeft_eq (f : Flow) : f.movesLeft = 7 * f.waiting.length + f.workers.ingest.weight +
    4 * f.workers.events.length + f.workers.translate.weight := rfl

theorem movesLeft_leaveTranslate (h : f.workers.translate ≠ .exited) :
    f.leaveTranslate.movesLeft < f.movesLeft := by
  have hpos := Translate.weight_pos h
  change 7 * f.waiting.length + f.workers.ingest.weight + 0 + 0 < _
  rw [movesLeft_eq]
  omega

theorem movesLeft_leaveIngest (h : f.workers.ingest = .idle) : f.leaveIngest.movesLeft < f.movesLeft := by
  have hw : f.leaveIngest.waiting = f.waiting := Feed.queue_unsubscribe
  rw [movesLeft_eq, movesLeft_eq, hw, h]
  change 7 * f.waiting.length + 0 + 4 * f.workers.events.length + f.workers.translate.weight <
    7 * f.waiting.length + 8 + 4 * f.workers.events.length + f.workers.translate.weight
  omega

theorem movesLeft_handBack {d : Delivery} (h : f.hand = [d]) :
    (f.handBack d).leaveIngest.movesLeft < f.movesLeft := by
  have hw : (f.handBack d).leaveIngest.waiting.length ≤ f.waiting.length + 1 := by
    rw [waiting, leaveIngest, Feed.queue_unsubscribe]
    exact Feed.length_queue_nack
  have hi := Ingest.weight_of_hand h
  rw [movesLeft_eq, movesLeft_eq]
  change 7 * _ + 0 + 4 * f.workers.events.length + f.workers.translate.weight < _
  omega

theorem movesLeft_lt (h : f.Moves m g) : g.movesLeft < f.movesLeft := by
  cases h with
  | take idle next =>
    obtain ⟨hq, -⟩ := Feed.next_delivery next
    simp only [movesLeft, idle, hq, List.length_cons]
    omega
  | buffer hand reading room =>
    have hi := Ingest.weight_of_hand hand
    simp only [movesLeft_eq, List.length_append, List.length_singleton]
    change 7 * f.waiting.length + 8 + _ + _ < _
    omega
  | block taken =>
    simp only [movesLeft, taken]
    omega
  | refuse hand => exact movesLeft_handBack hand
  | stopIdle _ idle | endIngest idle => exact movesLeft_leaveIngest idle
  | stopBlocked _ blocked => exact movesLeft_handBack (congrArg Ingest.hand blocked)
  | read idle events =>
    simp only [movesLeft, idle, events, List.length_cons]
    omega
  | @translate p payload =>
    have hp := Translate.weight_ofPayload p
    simp only [movesLeft_eq, payload]
    exact Nat.add_lt_add_left hp _
  | store delta =>
    simp only [movesLeft, delta]
    omega
  | dropDelta delta => exact movesLeft_leaveTranslate (by rw [delta]; exact nofun)
  | stopTranslate _ _ working => exact movesLeft_leaveTranslate working
  | endTranslate idle => exact movesLeft_leaveTranslate (by rw [idle]; exact nofun)

def Still (f : Flow) : Prop := ∀ m, f.move m = none

def works (f : Flow) (ms : List Move) : Option Flow := ms.foldlM move f

theorem mem_moves (m : Move) : m ∈ moves := by cases m <;> decide

theorem next?_eq_none_iff : f.next? = none ↔ f.Still := by
  rw [next?, List.findSome?_eq_none_iff]
  exact ⟨fun h m => h m (mem_moves m), fun h m _ => h m⟩

theorem length_of_works (h : f.works ms = some g) : ms.length + g.movesLeft ≤ f.movesLeft := by
  induction ms generalizing f with
  | nil =>
    cases h
    simp
  | cons m ms ih =>
    obtain ⟨k, hk, hg⟩ := Option.bind_eq_some_iff.mp h
    have hlt := movesLeft_lt (moves_of_move hk)
    have hle := ih hg
    rw [List.length_cons]
    omega

theorem works_run (n : Nat) (f : Flow) : ∃ ms, f.works ms = some (run n f) := by
  induction n generalizing f with
  | zero => exact ⟨[], rfl⟩
  | succ n ih =>
    rw [run]
    cases hf : f.next? with
    | none => exact ⟨[], rfl⟩
    | some g =>
      obtain ⟨m, -, hm⟩ := List.exists_of_findSome?_eq_some hf
      obtain ⟨ms, hms⟩ := ih g
      exact ⟨m :: ms, Option.bind_eq_some_iff.mpr ⟨g, hm, hms⟩⟩

theorem still_run {n : Nat} (h : f.movesLeft ≤ n) : (run n f).Still := by
  induction n generalizing f with
  | zero =>
    intro m
    cases hm : f.move m with
    | none => exact hm
    | some g =>
      have hlt := movesLeft_lt (moves_of_move hm)
      omega
  | succ n ih =>
    rw [run]
    cases hf : f.next? with
    | none => exact next?_eq_none_iff.mp hf
    | some g =>
      obtain ⟨m, -, hm⟩ := List.exists_of_findSome?_eq_some hf
      have hlt := movesLeft_lt (moves_of_move hm)
      exact ih (by omega)

theorem still_settle (f : Flow) : f.settle.Still := still_run (Nat.le_refl _)

/-- The deltas are full, and the translate worker holds one more. -/
structure Clogged (f : Flow) : Prop where
  full : f.workers.deltas.length = deltaCapacity
  holding : ∃ d, f.workers.translate = .delta d

structure Exhausted (f : Flow) : Prop where
  waiting : f.waiting = []
  hand : f.hand = []
  events : f.workers.events = []
  translate : f.workers.translate = .idle

theorem Clogged.store (h : f.Clogged) (receiving : f.workers.receiving = true) :
    ∃ g, f.drain.2.move .store = some g := by
  obtain ⟨d, hd⟩ := h.holding
  rw [drain_eq]
  simp [move, withDeltas, hd, receiving, deltaCapacity]

end Flow

def Occurrence.isInner : Occurrence → Bool
  | .work _ | .beginDrain | .takeDelta | .endDrain => true
  | .publish _ | .cancel | .shutdown => false

namespace History

variable {h h' m : History} {o : Occurrence} {os : List Occurrence} {n : Nat}

theorem Conserved.still (hc : h.Conserved) (hs : h.flow.Still) : h.flow.Clogged ∨ h.flow.Exhausted := by
  have hreading : h.flow.reading = true := by simpa [Flow.reading] using hc.translating
  cases ht : h.flow.workers.translate with
  | exited => exact absurd ht hc.translating
  | payload p => simpa [Flow.move, ht] using hs .translate
  | delta d =>
    have hfull : ¬ h.flow.workers.deltas.length < deltaCapacity := by
      simpa [Flow.move, ht, hc.receiving] using hs .store
    have hroom := hc.deltaRoom
    exact .inl ⟨by omega, d, ht⟩
  | idle =>
    have hevents : h.flow.workers.events = [] := by
      cases he : h.flow.workers.events with
      | nil => rfl
      | cons p rest => simpa [Flow.move, ht, he] using hs .read
    have hbuffer := hs .buffer
    cases hi : h.flow.workers.ingest with
    | exited => exact absurd hi hc.ingesting
    | taken d | blocked d => simp [Flow.move, hi, hreading, hevents, eventCapacity] at hbuffer
    | idle =>
      have hwaiting : h.flow.waiting = [] := by
        cases hq : h.flow.waiting with
        | nil => rfl
        | cons d rest =>
          rw [Flow.waiting] at hq
          simpa [Flow.move, hi, Feed.next, hq] using hs .take
      exact .inr ⟨hwaiting, by rw [Flow.hand, hi]; rfl, hevents, ht⟩

/-- The workers run until they stop. Then a drain is called, and they may go on until it returns. -/
def Round (h h' : History) : Prop :=
  ∃ (ms : List Move) (m : History) (os : List Occurrence), h.afterAll (ms.map .work) = some m ∧ m.flow.Still ∧
    (∀ o ∈ os, o.isInner) ∧ .endDrain ∉ os ∧ m.afterAll ([.beginDrain] ++ os ++ [.endDrain]) = some h'

inductive Rounds : Nat → History → History → Prop
  | zero (h : History) : Rounds 0 h h
  | succ {n : Nat} {h m h' : History} (rounds : Rounds n h m) (round : Round m h') : Rounds (n + 1) h h'

theorem inner_follows (hf : h.Follows o h') (ho : o.isInner) :
    h'.flow.workers.cancelled = h.flow.workers.cancelled ∧ h'.published = h.published ∧
      h.returned <+: h'.returned := by
  cases hf with
  | work moves => exact ⟨cancelled_moves moves, rfl, List.prefix_refl _⟩
  | takeDelta draining step =>
    obtain ⟨_, _, _, _, rfl⟩ := step_draining step
    exact ⟨rfl, rfl, List.prefix_refl _⟩
  | beginDrain => exact ⟨rfl, rfl, List.prefix_refl _⟩
  | endDrain => exact ⟨rfl, rfl, List.prefix_append _ _⟩
  | publish | cancel | shutdown => cases ho

structure Ongoing (h h' : History) : Prop where
  conserved : h'.Conserved
  running : h'.flow.workers.cancelled = false
  published : h'.published = h.published
  returned : h.returned <+: h'.returned

theorem Ongoing.trans (hm : h.Ongoing m) (hl : m.Ongoing h') : h.Ongoing h' :=
  ⟨hl.conserved, hl.running, hl.published.trans hm.published, hm.returned.trans hl.returned⟩

theorem Ongoing.afterAll (hm : h.Ongoing m) (hos : ∀ o ∈ os, o.isInner) (ha : m.afterAll os = some h') :
    h.Ongoing h' := by
  refine afterAll_induction ha hm fun o ho k k' hk hf => ?_
  obtain ⟨hcancelled, hpublished, hreturned⟩ := inner_follows hf (hos o ho)
  have hrunning := hcancelled.trans hk.running
  exact hk.trans ⟨hk.conserved.follows hf hrunning, hrunning, hpublished, hreturned⟩

theorem Conserved.returned_prefix (hc : h.Conserved) : h.returned <+: translated h.published := by
  rw [← hc.in_flight]
  simp only [List.append_assoc]
  exact List.prefix_append _ _

theorem Conserved.exhausted (hc : h.Conserved) (he : h.flow.Exhausted) :
    h.returned ++ h.inDrain ++ h.flow.workers.deltas = translated h.published := by
  rw [← hc.in_flight, he.translate, he.events, he.hand, he.waiting]
  simp [Translate.deltas, Translate.payloads]

theorem Conserved.ongoing (hc : h.Conserved) (hn : h.flow.workers.cancelled = false) : h.Ongoing h :=
  ⟨hc, hn, rfl, List.prefix_refl _⟩

theorem Conserved.round (hc : h.Conserved) (hn : h.flow.workers.cancelled = false) (hr : Round h h') :
    h.Ongoing h' ∧
      (h'.returned = translated h.published ∨ h.returned.length + deltaCapacity ≤ h'.returned.length) := by
  obtain ⟨ms, k, os, hk, hstill, hinner, hend, hall⟩ := hr
  have hwork : ∀ o ∈ ms.map Occurrence.work, o.isInner := by simp [Occurrence.isInner]
  have hdrain : ∀ o ∈ [.beginDrain] ++ os ++ [.endDrain], o.isInner := by
    simp only [List.mem_append, List.mem_singleton]
    rintro o ((rfl | ho) | rfl)
    · rfl
    · exact hinner o ho
    · rfl
  have hbegin : k.draining = none := by
    obtain ⟨b, hb, -⟩ := Option.bind_eq_some_iff.mp hall
    cases follows_of_after hb with
    | beginDrain free => exact free
  have hongoing := (hc.ongoing hn).afterAll hwork hk
  obtain ⟨hreturned, -⟩ := returned_of_drain hall hend
  refine ⟨hongoing.afterAll hdrain hall, ?_⟩
  rw [hreturned]
  rcases hongoing.conserved.still hstill with hclogged | hexhausted
  · right
    have hle := hongoing.returned.length_le
    rw [List.length_append, hclogged.full]
    omega
  · left
    rw [← hongoing.published, ← hongoing.conserved.exhausted hexhausted, inDrain, hbegin]
    simp

theorem Conserved.rounds (hc : h.Conserved) (hn : h.flow.workers.cancelled = false) (hr : Rounds n h h') :
    h.Ongoing h' ∧
      (h'.returned = translated h.published ∨ h.returned.length + n * deltaCapacity ≤ h'.returned.length) := by
  induction hr with
  | zero h => exact ⟨hc.ongoing hn, .inr (by omega)⟩
  | @succ n h m h' rounds round ih =>
    obtain ⟨hm, hmany⟩ := ih hc hn
    obtain ⟨hlast, hmore⟩ := hm.conserved.round hm.running round
    have hongoing := hm.trans hlast
    have hpre := hongoing.conserved.returned_prefix
    rw [hongoing.published] at hpre
    rw [hm.published] at hmore
    refine ⟨hongoing, ?_⟩
    rcases hmany with hall | hmany
    · have hle := hlast.returned.length_le
      rw [hall] at hle
      exact .inl (hpre.eq_of_length_le hle)
    · refine hmore.imp_right fun hle => ?_
      rw [Nat.succ_mul]
      omega

theorem work_afterAll {ms : List Move} {g : Flow} (hg : h.flow.works ms = some g) :
    ∃ m, h.afterAll (ms.map .work) = some m ∧ m.flow = g ∧ m.draining = h.draining := by
  induction ms generalizing h with
  | nil =>
    cases hg
    exact ⟨h, rfl, rfl, rfl⟩
  | cons w ms ih =>
    obtain ⟨k, hk, hrest⟩ := Option.bind_eq_some_iff.mp hg
    obtain ⟨m, hm, hflow, hdraining⟩ := ih (h := h.work w k) hrest
    have hafter : h.after (.work w) = some (h.work w k) := by
      rw [after, hk]
      rfl
    exact ⟨m, Option.bind_eq_some_iff.mpr ⟨_, hafter, hm⟩, hflow, hdraining⟩

theorem exists_round (hd : h.draining = none) : ∃ h', Round h h' ∧ h'.draining = none := by
  obtain ⟨ms, hms⟩ := Flow.works_run h.flow.movesLeft h.flow
  obtain ⟨m, hm, hflow, hdraining⟩ := work_afterAll hms
  have hstill : m.flow.Still := by
    rw [hflow]
    exact h.flow.still_settle
  have hbegin : m.after .beginDrain = some { m with draining := some (.start m.flow) } := by
    simp only [after, hdraining, hd]
  obtain ⟨n, h', hend⟩ := exists_endDrain (h := { m with draining := some (.start m.flow) }) rfl
  have hall : m.afterAll ([.beginDrain] ++ List.replicate n .takeDelta ++ [.endDrain]) = some h' :=
    Option.bind_eq_some_iff.mpr ⟨_, hbegin, hend⟩
  have hinner : ∀ o ∈ List.replicate n Occurrence.takeDelta, o.isInner ∧ .endDrain ≠ o := by
    intro o ho
    rw [List.eq_of_mem_replicate ho]
    exact ⟨rfl, by simp⟩
  have hlast : .endDrain ∉ List.replicate n Occurrence.takeDelta := fun he => (hinner _ he).2 rfl
  exact ⟨h', ⟨ms, m, _, hm, hstill, fun o ho => (hinner o ho).1, hlast, hall⟩, (returned_of_drain hall hlast).2⟩

theorem exists_rounds (hd : h.draining = none) (n : Nat) : ∃ h', Rounds n h h' ∧ h'.draining = none := by
  induction n with
  | zero => exact ⟨h, .zero h, hd⟩
  | succ n ih =>
    obtain ⟨m, hm, hdm⟩ := ih
    obtain ⟨h', hround, hd'⟩ := exists_round hdm
    exact ⟨h', .succ hm hround, hd'⟩

end History

/-- In every state of a run that nobody has stopped: when neither worker can move, either the deltas are full and
the translate worker holds one more, or all that was published is acknowledged and translated. In the first case
a drain returns the deltas that are buffered, and after it the translate worker can go on. The workers stop after
finitely many moves, whichever they make. Rounds of letting them run and draining, of which there is always
another, have handed out every delta as soon as so many full queues hold as many. -/
theorem workers_never_stuck {feed : Feed} {subject : String} {bearer : Option String} {flow : Flow}
    {os : List Occurrence} {h : History} (hs : Flow.subscribe feed subject bearer = .ok flow)
    (hr : (History.start flow).afterAll os = some h) (hn : h.flow.workers.cancelled = false) :
    (h.flow.Still → h.flow.Clogged ∨ h.flow.Exhausted ∧
      h.acknowledged = h.published.map h.flow.workers.notification ∧ h.read = h.published ∧
      h.returned ++ h.inDrain ++ h.flow.workers.deltas = translated h.published) ∧
    (h.flow.Clogged → h.flow.workers.deltas.length = 64 ∧ h.flow.drain.1 = h.flow.workers.deltas ∧
      (∃ g, h.flow.drain.2.move .store = some g) ∧
      ∀ os h', .endDrain ∉ os → h.afterAll ([.beginDrain] ++ os ++ [.endDrain]) = some h' →
        h'.returned = h.returned ++ h.flow.workers.deltas) ∧
    (∃ ms g, h.flow.works ms = some g ∧ g.Still) ∧
    (∀ ms g, h.flow.works ms = some g → ms.length ≤ h.flow.movesLeft) ∧
    (h.draining = none → ∀ n, ∃ h', History.Rounds n h h') ∧
    ∀ n h', History.Rounds n h h' → (translated h.published).length ≤ h.returned.length + n * 64 →
      h'.returned = translated h.published := by
  have hc := (History.conserved_start hs).afterAll hr hn
  refine ⟨fun hstill => ?_, fun hclogged => ?_, ?_, fun ms g hms => ?_, fun hd n => ?_, fun n h' hrounds hle => ?_⟩
  · refine (hc.still hstill).imp_right fun he => ⟨he, ?_⟩
    have hacknowledged := hc.notifications
    rw [he.hand, he.waiting, List.append_nil, List.append_nil] at hacknowledged
    have hread := hc.events
    rw [he.events, List.append_nil, hacknowledged, Workers.map_payload_notification] at hread
    exact ⟨hacknowledged, hread.symm, hc.exhausted he⟩
  · have hdrain : h.flow.drain.1 = h.flow.workers.deltas := by rw [Flow.drain_eq]
    exact ⟨hclogged.full, hdrain, hclogged.store hc.receiving,
      fun os h' hos ha => (History.returned_of_drain ha hos).1⟩
  · obtain ⟨ms, hms⟩ := Flow.works_run h.flow.movesLeft h.flow
    exact ⟨ms, _, hms, h.flow.still_settle⟩
  · exact Nat.le_trans (Nat.le_add_right _ _) (Flow.length_of_works hms)
  · obtain ⟨h', hrounds, -⟩ := History.exists_rounds hd n
    exact ⟨h', hrounds⟩
  · obtain ⟨hongoing, hall | hmany⟩ := hc.rounds hn hrounds
    · exact hall
    · have hpre := hongoing.conserved.returned_prefix
      rw [hongoing.published] at hpre
      exact hpre.eq_of_length_le (Nat.le_trans hle hmany)

/-- With one deposit more than the deltas have room for, the workers stop, and two rounds hand out all of them. -/
theorem clogged_until_drained :
    let flow : Flow := ⟨⟨[("stake", 0)], [⟨"stake", [], true⟩]⟩, { channel := 0, subject := "stake" }⟩
    let deposit := Bytes.ofString ("\x7b\"event\":\"Deposit\",\"amount\":5,\"validator\":" ++
      "\"0101010101010101010101010101010101010101010101010101010101010101\"\x7d")
    let os : List Occurrence := List.replicate 65 (.publish deposit) ++
      (List.replicate 64 [.work .take, .work .buffer, .work .read, .work .translate, .work .store]).flatten ++
      [.work .take, .work .buffer, .work .read, .work .translate]
    ∃ h, (History.start flow).afterAll os = some h ∧ h.flow.Still ∧ h.flow.Clogged ∧
      (∃ g, h.flow.drain.2.move .store = some g) ∧ (∃ h', History.Rounds 2 h h') ∧
      ∀ h', History.Rounds 2 h h' → h'.returned = List.replicate 65 (.new (List.replicate 32 1) 5) := by
  intro flow deposit os
  let d : StakeDelta := .new (List.replicate 32 1) 5
  let h : History :=
    { flow := ⟨flow.feed, { flow.workers with translate := .delta d, deltas := List.replicate 64 d }⟩
      published := List.replicate 65 deposit
      acknowledged := List.replicate 65 (flow.workers.notification deposit)
      read := List.replicate 65 deposit }
  have hs : Flow.subscribe .empty "stake" none = .ok flow := rfl
  have hr : (History.start flow).afterAll os = some h := by decide +kernel
  have hstill : h.flow.Still := by rintro ⟨⟩ <;> decide +kernel
  have hclogged : h.flow.Clogged := ⟨by decide +kernel, d, rfl⟩
  have hall : translated h.published = List.replicate 65 d := by decide +kernel
  obtain ⟨-, hdrain, -, -, hnext, hrounds⟩ := workers_never_stuck hs hr rfl
  refine ⟨h, hr, hstill, hclogged, (hdrain hclogged).2.2.1, hnext rfl 2, fun h' hr' => ?_⟩
  rw [hrounds 2 h' hr' (by rw [hall]; decide), hall]

end StakeLedger.Staking
