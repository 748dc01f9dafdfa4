import StakeLedger.Proofs.Staking.History

/-! A drain from its call to its return, while the workers move on. Main statement: it returns what was buffered
when it was called. -/

namespace StakeLedger.Staking

theorem Flow.deltas_of_moves {f g : Flow} {m : Move} (hm : f.Moves m g) :
    ∃ more, g.workers.deltas = f.workers.deltas ++ more := by
  cases hm with
  | @store d delta receiving room => exact ⟨[d], rfl⟩
  | _ => exact ⟨[], (List.append_nil _).symm⟩

theorem left_of_step {s t : Draining} {f g : Flow} (hs : s.step f = some (t, g)) : s.left = t.left + 1 := by
  rw [Draining.step] at hs
  split at hs
  · next n _ _ hl _ =>
    cases hs
    exact hl
  · cases hs

theorem finished_of_step {s : Draining} {f : Flow} (hs : s.step f = none) :
    s.left = 0 ∨ f.workers.deltas = [] := by
  rw [Draining.step, Flow.takeDelta] at hs
  cases hl : s.left with
  | zero => exact .inl rfl
  | succ n =>
    cases hd : f.workers.deltas with
    | nil => exact .inr rfl
    | cons d rest => simp [hl, hd] at hs

namespace History

variable {h h' : History} {o : Occurrence} {os : List Occurrence} {before share : List StakeDelta}

/-- A drain is under way: what it has taken and what is in the queue begin with its share, which is what was
there when it was called. -/
structure Taking (h : History) (before share : List StakeDelta) : Prop where
  returned : h.returned = before
  draining : ∃ s later, h.draining = some s ∧ s.taken ++ h.flow.workers.deltas = share ++ later ∧
    s.taken.length + s.left = share.length

theorem taking_begin (hf : h.Follows .beginDrain h') : h'.Taking h.returned h.flow.workers.deltas := by
  cases hf with
  | beginDrain free =>
    exact ⟨rfl, .start h.flow, [], rfl, (List.append_nil _).symm, Nat.zero_add _⟩

theorem Taking.follows (ht : h.Taking before share) (hf : h.Follows o h') (ho : o ≠ .endDrain) :
    h'.Taking before share := by
  obtain ⟨hb, s, later, hs, hq, hl⟩ := ht
  cases hf with
  | publish | cancel => exact ⟨hb, s, later, hs, hq, hl⟩
  | @work m g moves =>
    obtain ⟨more, hmore⟩ := Flow.deltas_of_moves moves
    have hg : s.taken ++ g.workers.deltas = share ++ (later ++ more) := by
      rw [hmore, ← List.append_assoc, hq, List.append_assoc]
    exact ⟨hb, s, later ++ more, hs, hg, hl⟩
  | @takeDelta s' t g draining step =>
    obtain rfl : s' = s := Option.some.inj (draining.symm.trans hs)
    obtain ⟨d, rest, hd, htaken, rfl⟩ := step_draining step
    have hleft := left_of_step step
    have hrest : t.taken ++ rest = share ++ later := by
      rw [htaken, ← hq, hd, List.append_assoc]
      rfl
    refine ⟨hb, t, later, rfl, hrest, ?_⟩
    rw [htaken, List.length_append, List.length_singleton]
    omega
  | beginDrain free | shutdown free => exact nomatch free.symm.trans hs
  | endDrain => exact absurd rfl ho

theorem Taking.afterAll (ht : h.Taking before share) (ha : h.afterAll os = some h') (hos : .endDrain ∉ os) :
    h'.Taking before share :=
  afterAll_induction (P := fun m => m.Taking before share) ha ht
    fun _ ho _ _ hm hf => hm.follows hf fun he => hos (he ▸ ho)

theorem Taking.endDrain (ht : h.Taking before share) (hf : h.Follows .endDrain h') :
    h'.returned = before ++ share ∧ h'.draining = none := by
  obtain ⟨hb, s, later, hs, hq, hl⟩ := ht
  cases hf with
  | @endDrain s' draining done =>
    obtain rfl : s' = s := Option.some.inj (draining.symm.trans hs)
    have hshare : s'.taken = share := by
      rcases finished_of_step done with hleft | hempty
      · exact (List.append_inj hq (by omega)).1
      · rw [hempty, List.append_nil] at hq
        have hpre : share <+: s'.taken := ⟨later, hq.symm⟩
        exact (hpre.eq_of_length_le (by omega)).symm
    exact ⟨by rw [← hb, ← hshare], rfl⟩

theorem returned_of_drain (ha : h.afterAll ([.beginDrain] ++ os ++ [.endDrain]) = some h')
    (hos : .endDrain ∉ os) : h'.returned = h.returned ++ h.flow.workers.deltas ∧ h'.draining = none := by
  obtain ⟨e, he, hend⟩ := afterAll_append.mp ha
  obtain ⟨b, hb, hwork⟩ := afterAll_append.mp he
  have hbegin := taking_begin (follows_of_after (afterAll_singleton.mp hb))
  exact (hbegin.afterAll hwork hos).endDrain (follows_of_after (afterAll_singleton.mp hend))

theorem after_endDrain {s : Draining} (hs : h.draining = some s) (hstep : s.step h.flow = none) :
    h.after .endDrain = some { h with draining := none, returned := h.returned ++ s.taken } := by
  simp only [after, hs, hstep]

theorem after_takeDelta {s t : Draining} {g : Flow} (hs : h.draining = some s)
    (hstep : s.step h.flow = some (t, g)) :
    h.after .takeDelta = some { h with flow := g, draining := some t } := by
  simp only [after, hs, hstep]
  rfl

theorem exists_endDrain {s : Draining} (hs : h.draining = some s) :
    ∃ n h', h.afterAll (List.replicate n .takeDelta ++ [.endDrain]) = some h' := by
  generalize hn : s.left = n
  induction n generalizing h s with
  | zero =>
    have hstep : s.step h.flow = none := by rw [Draining.step, hn]
    exact ⟨0, _, afterAll_singleton.mpr (after_endDrain hs hstep)⟩
  | succ n ih =>
    cases hstep : s.step h.flow with
    | none => exact ⟨0, _, afterAll_singleton.mpr (after_endDrain hs hstep)⟩
    | some next =>
      obtain ⟨t, g⟩ := next
      have hleft := left_of_step hstep
      obtain ⟨k, h', hk⟩ := ih (h := { h with flow := g, draining := some t }) rfl (by omega)
      exact ⟨k + 1, h', Option.bind_eq_some_iff.mpr ⟨_, after_takeDelta hs hstep, hk⟩⟩

end History

end StakeLedger.Staking
