namespace StakeLedger

variable {ε α β : Type} {x : Except ε α} {b : β}

theorem ok_bind {a : α} {f : α → Except ε β} : Except.ok a >>= f = f a := rfl

theorem bind_eq_ok {f : α → Except ε β} : x >>= f = .ok b ↔ ∃ a, x = .ok a ∧ f a = .ok b := by
  cases x with
  | error e => exact ⟨nofun, fun ⟨_, h, _⟩ => nomatch h⟩
  | ok a => exact ⟨fun h => ⟨a, rfl, h⟩, fun ⟨_, h, hf⟩ => Except.ok.inj h ▸ hf⟩

theorem map_eq_ok {f : α → β} : x.map f = .ok b ↔ ∃ a, x = .ok a ∧ f a = b := by
  cases x with
  | error e => exact ⟨nofun, fun ⟨_, h, _⟩ => nomatch h⟩
  | ok a => exact ⟨fun h => ⟨a, rfl, Except.ok.inj h⟩, fun ⟨_, h, hf⟩ => hf ▸ Except.ok.inj h ▸ rfl⟩

theorem map_eq_error {e : ε} {f : α → β} : x.map f = .error e ↔ x = .error e := by
  cases x with
  | error e' => exact ⟨fun h => congrArg Except.error (Except.error.inj h), fun h => congrArg _ (Except.error.inj h)⟩
  | ok a => exact ⟨nofun, nofun⟩

theorem mapM_ok_iff {f : α → Except ε β} {xs : List α} : (∃ bs, xs.mapM f = .ok bs) ↔ ∀ a ∈ xs, ∃ b, f a = .ok b := by
  induction xs with
  | nil => exact ⟨fun _ => nofun, fun _ => ⟨[], rfl⟩⟩
  | cons a xs ih =>
    rw [List.forall_mem_cons, ← ih, List.mapM_cons]
    constructor
    · rintro ⟨bs, h⟩
      obtain ⟨b, hb, h⟩ := bind_eq_ok.mp h
      obtain ⟨bs, hbs, -⟩ := bind_eq_ok.mp h
      exact ⟨⟨b, hb⟩, bs, hbs⟩
    · rintro ⟨⟨b, hb⟩, bs, hbs⟩
      exact ⟨b :: bs, bind_eq_ok.mpr ⟨b, hb, bind_eq_ok.mpr ⟨bs, hbs, rfl⟩⟩⟩

/-- The first that fails decides. -/
theorem mapM_eq_error {f : α → Except ε β} {xs : List α} {e : ε} : xs.mapM f = .error e ↔
    ∃ before a after, xs = before ++ a :: after ∧ (∀ a' ∈ before, ∃ b, f a' = .ok b) ∧ f a = .error e := by
  induction xs with
  | nil => exact ⟨nofun, fun ⟨before, a, after, h, _⟩ => by cases before <;> cases h⟩
  | cons a xs ih =>
    rw [List.mapM_cons]
    cases ha : f a with
    | error e' =>
      constructor
      · intro h
        cases h
        exact ⟨[], a, xs, rfl, nofun, ha⟩
      · rintro ⟨_ | ⟨a', before⟩, a'', after, hxs, hbefore, he⟩
        · cases hxs
          rw [Except.error.inj (ha.symm.trans he)]
          rfl
        · cases hxs
          obtain ⟨b, hb⟩ := hbefore a List.mem_cons_self
          exact nomatch ha.symm.trans hb
    | ok b =>
      rw [ok_bind]
      have hmap : (do let bs ← xs.mapM f; pure (b :: bs)) = (xs.mapM f).map (b :: ·) := by
        cases xs.mapM f <;> rfl
      rw [hmap, map_eq_error, ih]
      constructor
      · rintro ⟨before, a', after, rfl, hbefore, he⟩
        exact ⟨a :: before, a', after, rfl, List.forall_mem_cons.mpr ⟨⟨b, ha⟩, hbefore⟩, he⟩
      · rintro ⟨_ | ⟨a', before⟩, a'', after, hxs, hbefore, he⟩
        · cases hxs
          exact nomatch ha.symm.trans he
        · cases hxs
          exact ⟨before, a'', after, rfl, (List.forall_mem_cons.mp hbefore).2, he⟩

variable {Wrong : ε → Prop} {rank : ε → Nat} {fault : ε}

structure First (Wrong : ε → Prop) (rank : ε → Nat) (fault : ε) : Prop where
  wrong : Wrong fault
  least : ∀ other, Wrong other → rank fault ≤ rank other

structure Judges (Wrong : ε → Prop) (rank : ε → Nat) (x : Except ε α) : Prop where
  ok : ∀ a, x = .ok a → ∀ fault, ¬ Wrong fault
  error : ∀ fault, x = .error fault → First Wrong rank fault

theorem Judges.error_iff (h : Judges Wrong rank x)
    (hrank : ∀ {e e'}, Wrong e → Wrong e' → rank e = rank e' → e = e') : x = .error fault ↔ First Wrong rank fault := by
  refine ⟨h.error fault, fun hfirst => ?_⟩
  cases hx : x with
  | ok a => exact absurd hfirst.wrong (h.ok a hx fault)
  | error e =>
    have he := h.error e hx
    have heq := Nat.le_antisymm (he.least fault hfirst.wrong) (hfirst.least e he.wrong)
    rw [hrank he.wrong hfirst.wrong heq]

end StakeLedger
