import StakeLedger.Proofs.Staking.Shutdown

/-!
Drains beside a worker that goes on sending. Each takes what was buffered when it was called, and leaves what is sent
later to the next, in order. Main statement: `drain_takes_its_share`.
-/

namespace StakeLedger.Staking

namespace History

variable {h h' m : History} {o : Occurrence} {os : List Occurrence} {total before share : List StakeDelta} {s : Draining}

def sent (_ : History) : Occurrence → History → List StakeDelta
  | .work .translate, h' => h'.flow.workers.translate.deltas
  | _, _ => []

/-- What was sent has been returned or is on its way, in order, apart from what the translate worker had in its hand
when it was made to leave. -/
def Conveyed (total : List StakeDelta) (h : History) : Prop :=
  ∃ dropped, total = h.returned ++ h.inDrain ++ h.flow.workers.deltas ++ h.flow.workers.translate.deltas ++ dropped ∧
    (dropped ≠ [] → h.flow.workers.translate = .exited ∧
      (h.flow.workers.cancelled = true ∨ h.flow.workers.receiving = false))

theorem Conveyed.of_working (hc : h.Conveyed total) (hworking : h.flow.workers.translate ≠ .exited) :
    total = h.returned ++ h.inDrain ++ h.flow.workers.deltas ++ h.flow.workers.translate.deltas := by
  obtain ⟨dropped, rfl, hleft⟩ := hc
  have hnone : dropped = [] := Classical.byContradiction fun hne => hworking (hleft hne).1
  rw [hnone, List.append_nil]

theorem Conveyed.returned_prefix (hc : h.Conveyed total) : h.returned <+: total := by
  obtain ⟨dropped, rfl, -⟩ := hc
  simp only [List.append_assoc]
  exact List.prefix_append _ _

theorem Conveyed.leaveTranslate {w : Move} (hc : h.Conveyed total) (hforced : h.flow.workers.translate.deltas = [] ∨
    h.flow.workers.cancelled = true ∨ h.flow.workers.receiving = false) :
    (h.work w h.flow.leaveTranslate).Conveyed (total ++ []) := by
  obtain ⟨dropped, rfl, hleft⟩ := hc
  refine ⟨h.flow.workers.translate.deltas ++ dropped, ?_, fun hne => ⟨rfl, ?_⟩⟩
  · change _ = h.returned ++ h.inDrain ++ h.flow.workers.deltas ++ [] ++ _
    simp only [List.append_assoc, List.append_nil]
  · rcases hforced with hempty | hforced
    · rw [hempty, List.nil_append] at hne
      exact (hleft hne).2
    · exact hforced

theorem Conveyed.work {w : Move} {g : Flow} (hc : h.Conveyed total) (hm : h.flow.Moves w g) :
    (h.work w g).Conveyed (total ++ h.sent (.work w) (h.work w g)) := by
  cases hm with
  | dropDelta delta closed => exact hc.leaveTranslate (.inr (.inr closed))
  | stopTranslate cancelled => exact hc.leaveTranslate (.inr (.inl cancelled))
  | endTranslate idle => exact hc.leaveTranslate (.inl (by rw [idle]; rfl))
  | translate payload =>
    have htotal := hc.of_working (by simp [payload])
    refine ⟨[], ?_, nofun⟩
    simp [htotal, payload, sent, inDrain, History.work, Translate.deltas]
  | store delta =>
    have htotal := hc.of_working (by simp [delta])
    refine ⟨[], ?_, nofun⟩
    simp [htotal, delta, sent, inDrain, History.work, Translate.deltas]
  | read idle =>
    have htotal := hc.of_working (by simp [idle])
    refine ⟨[], ?_, nofun⟩
    simp [htotal, idle, sent, inDrain, History.work, Translate.deltas]
  | _ =>
    obtain ⟨dropped, rfl, hleft⟩ := hc
    exact ⟨dropped, List.append_nil _, hleft⟩

theorem Conveyed.follows (hc : h.Conveyed total) (hf : h.Follows o h') (ho : o ≠ .shutdown) :
    h'.Conveyed (total ++ h.sent o h') := by
  obtain ⟨dropped, rfl, hleft⟩ := hc
  cases hf with
  | work moves => exact Conveyed.work ⟨dropped, rfl, hleft⟩ moves
  | publish => exact ⟨dropped, List.append_nil _, hleft⟩
  | cancel => exact ⟨dropped, List.append_nil _, fun hne => ⟨(hleft hne).1, .inl rfl⟩⟩
  | beginDrain free =>
    refine ⟨dropped, ?_, hleft⟩
    simp [sent, inDrain, free, Draining.start]
  | takeDelta draining step =>
    obtain ⟨d, rest, hq, ht, rfl⟩ := step_draining step
    refine ⟨dropped, ?_, hleft⟩
    simp [sent, inDrain, draining, hq, ht, Flow.withDeltas]
  | endDrain draining =>
    refine ⟨dropped, ?_, hleft⟩
    simp [sent, inDrain, draining]
  | shutdown => exact absurd rfl ho

theorem returned_prefix_follows (hc : h.Conveyed total ∨ h.Halted ∧ h.returned <+: total) (hf : h.Follows o h') :
    h'.Conveyed (total ++ h.sent o h') ∨ h'.Halted ∧ h'.returned <+: total ++ h.sent o h' := by
  rcases hc with hc | ⟨hh, hp⟩
  · by_cases ho : o = .shutdown
    · -- The queue is lost, but from here on nothing is returned.
      subst ho
      have hreturned : h'.returned = h.returned := by
        cases hf with
        | shutdown => rfl
      exact .inr ⟨halted_shutdown hf, hreturned ▸ hc.returned_prefix.trans (List.prefix_append _ _)⟩
    · exact .inl (hc.follows hf ho)
  · obtain ⟨hh', hreturned⟩ := hh.follows hf
    exact .inr ⟨hh', hreturned ▸ hp.trans (List.prefix_append _ _)⟩

theorem room_follows (hr : h.flow.workers.deltas.length ≤ deltaCapacity) (hf : h.Follows o h') :
    h'.flow.workers.deltas.length ≤ deltaCapacity := by
  cases hf with
  | work moves =>
    cases moves with
    | @store d delta receiving room =>
      change (h.flow.workers.deltas ++ [d]).length ≤ deltaCapacity
      rw [List.length_append]
      exact room
    | _ => exact hr
  | takeDelta draining step =>
    obtain ⟨d, rest, hq, -, rfl⟩ := step_draining step
    rw [hq] at hr
    exact Nat.le_of_succ_le hr
  | shutdown => exact Nat.zero_le _
  | _ => exact hr

/-! ### The iterations of one drain -/

theorem taken_follows (hs : h.draining = some s) (hf : h.Follows o m) (ho : o ≠ .endDrain) :
    ∃ t, m.draining = some t ∧ t.taken.length = s.taken.length + if o = .takeDelta then 1 else 0 := by
  cases hf with
  | publish | work | cancel => exact ⟨s, hs, rfl⟩
  | takeDelta draining step =>
    obtain rfl := Option.some.inj (draining.symm.trans hs)
    obtain ⟨d, rest, -, ht, -⟩ := step_draining step
    refine ⟨_, rfl, ?_⟩
    rw [ht, List.length_append]
    rfl
  | beginDrain free | shutdown free => exact nomatch free.symm.trans hs
  | endDrain => exact absurd rfl ho

theorem taken_of_afterAll (hs : h.draining = some s) (ha : h.afterAll os = some m) (hos : .endDrain ∉ os) :
    ∃ t, m.draining = some t ∧ t.taken.length = s.taken.length + os.count .takeDelta := by
  induction os generalizing h s with
  | nil =>
    cases ha
    exact ⟨s, hs, rfl⟩
  | cons o os ih =>
    obtain ⟨k, hk, hrest⟩ := Option.bind_eq_some_iff.mp ha
    obtain ⟨ho, hos⟩ := not_or.mp fun he => hos (List.mem_cons.mpr he)
    obtain ⟨t, ht, hlength⟩ := taken_follows hs (follows_of_after hk) (Ne.symm ho)
    obtain ⟨u, hu, hcount⟩ := ih ht hrest hos
    refine ⟨u, hu, ?_⟩
    rw [hcount, hlength, List.count_cons, Nat.add_assoc, Nat.add_comm (List.count _ _)]
    simp

theorem Taking.next (ht : m.Taking before share) (hs : m.draining = some s) : s.taken.length ≤ share.length ∧
    ((m.after .takeDelta).isSome ↔ s.taken.length < share.length) ∧
    ((m.after .endDrain).isSome ↔ s.taken.length = share.length) := by
  obtain ⟨-, s', later, hs', hq, hl⟩ := ht
  obtain rfl : s' = s := Option.some.inj (hs'.symm.trans hs)
  cases hstep : s'.step m.flow with
  | none =>
    -- The queue cannot run empty before the share is taken, as only the drain takes out of it.
    have hall : s'.taken.length = share.length := by
      rcases finished_of_step hstep with hleft | hempty
      · omega
      · have hlength := congrArg List.length hq
        rw [hempty, List.append_nil, List.length_append] at hlength
        omega
    simp [after, hs, hstep, hall]
  | some next =>
    obtain ⟨t, g⟩ := next
    have hleft := left_of_step hstep
    have hmore : s'.taken.length < share.length := by omega
    simp [after, hs, hstep, hmore, Nat.le_of_lt hmore, Nat.ne_of_lt hmore]

theorem Conveyed.drain (hc : h.Conveyed total) (hs : h.draining = some s) (ha : h.afterAll os = some m)
    (hos : .endDrain ∉ os) : m.Conveyed (total ++ h.collect sent os) := by
  refine (collect_induction (P := fun total k => k.Conveyed total ∧ ∃ t, k.draining = some t) ha ⟨hc, s, hs⟩ ?_).1
  rintro o ho total k l ⟨hk, t, ht⟩ hf
  obtain ⟨u, hu, -⟩ := taken_follows ht hf fun he => hos (he ▸ ho)
  refine ⟨hk.follows hf ?_, u, hu⟩
  rintro rfl
  cases hf with
  | shutdown free => exact nomatch free.symm.trans ht

theorem drain_under_way (hd : h.afterAll (.beginDrain :: os) = some m) (hos : .endDrain ∉ os) :
    ∃ s, m.draining = some s ∧ s.taken.length = os.count .takeDelta ∧
      m.Taking h.returned h.flow.workers.deltas ∧
      m.Conveyed (h.returned ++ h.flow.workers.deltas ++ h.flow.workers.translate.deltas ++
        h.collect sent (.beginDrain :: os)) := by
  obtain ⟨k, hk, ha⟩ := Option.bind_eq_some_iff.mp hd
  have hbegin := follows_of_after hk
  have htaking := (taking_begin hbegin).afterAll ha hos
  have hcollect : h.collect sent (.beginDrain :: os) = k.collect sent os := collect_cons hk
  cases hbegin with
  | beginDrain free =>
    obtain ⟨s, hs, hcount⟩ := taken_of_afterAll rfl ha hos
    have hconveyed : Conveyed (h.returned ++ h.flow.workers.deltas ++ h.flow.workers.translate.deltas)
        { h with draining := some (.start h.flow) } :=
      ⟨[], by simp [inDrain, Draining.start], nofun⟩
    rw [hcollect]
    exact ⟨s, hs, hcount.trans (Nat.zero_add _), htaking, hconveyed.drain rfl ha hos⟩

end History

/-- All that drains have returned is a beginning of what was sent. From the moment at which a drain is called, whatever
happens beside it, it takes as many deltas as there were and returns these; what was in the hand of the translate worker
or is sent meanwhile is then in the queue or in that hand, in order, unless the worker was made to leave with it. -/
theorem drain_takes_its_share {flow : Flow} {os : List Occurrence} {h : History}
    (hroom : flow.workers.deltas.length ≤ deltaCapacity) (hr : (History.start flow).afterAll os = some h) :
    h.returned <+: flow.workers.deltas ++ flow.workers.translate.deltas ++
        (History.start flow).collect History.sent os ∧
      h.flow.workers.deltas.length ≤ 64 ∧
      ∀ during m, h.afterAll (.beginDrain :: during) = some m → .endDrain ∉ during →
        during.count .takeDelta ≤ h.flow.workers.deltas.length ∧
        ((m.after .takeDelta).isSome ↔ during.count .takeDelta < h.flow.workers.deltas.length) ∧
        ((m.after .endDrain).isSome ↔ during.count .takeDelta = h.flow.workers.deltas.length) ∧
        ∀ last, m.after .endDrain = some last →
          last.returned = h.returned ++ h.flow.workers.deltas ∧
          ∃ dropped, h.flow.workers.translate.deltas ++ h.collect History.sent (.beginDrain :: during) =
              last.flow.workers.deltas ++ last.flow.workers.translate.deltas ++ dropped ∧
            (dropped ≠ [] → last.flow.workers.translate = .exited ∧
              (last.flow.workers.cancelled = true ∨ last.flow.workers.receiving = false)) := by
  have hstart : (History.start flow).Conveyed (flow.workers.deltas ++ flow.workers.translate.deltas) :=
    ⟨[], by simp [History.start, History.inDrain], nofun⟩
  have hconveyed := History.collect_induction
    (P := fun total k => k.Conveyed total ∨ k.Halted ∧ k.returned <+: total) hr (.inl hstart)
    fun _ _ {_ _ _} hk hf => History.returned_prefix_follows hk hf
  have hqueue : h.flow.workers.deltas.length ≤ deltaCapacity :=
    History.afterAll_induction (P := fun k => k.flow.workers.deltas.length ≤ deltaCapacity) hr hroom
      fun _ _ {_ _} hk hf => History.room_follows hk hf
  refine ⟨?_, hqueue, fun during m hd hos => ?_⟩
  · exact hconveyed.elim History.Conveyed.returned_prefix And.right
  · obtain ⟨s, hs, hcount, htaking, hall⟩ := History.drain_under_way hd hos
    obtain ⟨hle, hmore, hdone⟩ := htaking.next hs
    rw [hcount] at hle hmore hdone
    refine ⟨hle, hmore, hdone, fun last he => ?_⟩
    have hend := History.follows_of_after he
    obtain ⟨hreturned, hfree⟩ := htaking.endDrain hend
    obtain ⟨dropped, hlast, hleft⟩ := hall.follows hend (by decide)
    refine ⟨hreturned, dropped, ?_, hleft⟩
    simp only [hreturned, History.inDrain, hfree, History.sent, List.append_nil, Option.elim_none, List.append_assoc,
      List.append_cancel_left_eq] at hlast
    rw [hlast, List.append_assoc]

/-- The queue is full when the drain is called, and the delta that has waited for room enters it as soon as the first is
taken. -/
theorem drain_of_full_queue :
    let waiting : StakeDelta := ⟨"B", [], 2⟩
    let full : List StakeDelta := List.replicate 64 ⟨"A", [], 1⟩
    let flow : Flow := ⟨.empty, { channel := 0, subject := "stake", translate := .delta waiting, deltas := full }⟩
    let during : List Occurrence := [.takeDelta, .work .store] ++ List.replicate 63 .takeDelta
    ∃ m last, (History.start flow).afterAll (.beginDrain :: during) = some m ∧ m.after .endDrain = some last ∧
      during.count .takeDelta = 64 ∧ last.returned = full ∧ last.flow.workers.deltas = [waiting] := by
  intro waiting full flow during
  let after : Flow := ⟨.empty, { channel := 0, subject := "stake", deltas := [waiting] }⟩
  let m : History := { flow := after, draining := some ⟨0, full⟩ }
  let last : History := { flow := after, returned := full }
  have hroom : flow.workers.deltas.length ≤ deltaCapacity := by decide
  have hr : (History.start flow).afterAll [] = some (History.start flow) := rfl
  have hd : (History.start flow).afterAll (.beginDrain :: during) = some m := by decide +kernel
  have he : m.after .endDrain = some last := by decide +kernel
  obtain ⟨-, -, hdrain⟩ := drain_takes_its_share hroom hr
  obtain ⟨-, -, hdone, hlast⟩ := hdrain during m hd (by decide)
  have hcount : during.count .takeDelta = 64 := hdone.mp (Option.isSome_iff_exists.mpr ⟨last, he⟩)
  exact ⟨m, last, hd, he, hcount, (hlast last he).1, rfl⟩

end StakeLedger.Staking
