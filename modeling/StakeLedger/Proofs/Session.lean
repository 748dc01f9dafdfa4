import StakeLedger.Session

namespace StakeLedger.Session

variable {σ α β : Type} {m : Session σ α} {f : α → Session σ β} {x : α} {s t : σ}

def Answers (m : Session σ α) (P : α → Prop) : Prop := ∀ s x, (m.run.run s).1 = some x → P x

theorem answers_pure {P : α → Prop} (h : P x) : Answers (σ := σ) (pure x) P := by
  intro s y hy
  cases hy
  exact h

theorem run_bind : (m >>= f).run.run s = match m.run.run s with
    | (none, t) => (none, t)
    | (some x, t) => (f x).run.run t := by
  rw [OptionT.run_bind, Option.elimM, StateT.run_bind]
  generalize StateT.run (OptionT.run m) s = answered
  obtain ⟨_ | x, t⟩ := answered <;> rfl

theorem Answers.bind {P : α → Prop} {Q : β → Prop} (hm : Answers m P) (h : ∀ x, P x → Answers (f x) Q) :
    Answers (m >>= f) Q := by
  intro s y hy
  rw [run_bind] at hy
  generalize hanswered : m.run.run s = answered at hy
  obtain ⟨_ | x, t⟩ := answered
  · cases hy
  · exact h x (hm s x (congrArg Prod.fst hanswered)) t y hy

theorem answers_bind {Q : β → Prop} (h : ∀ x, Answers (f x) Q) : Answers (m >>= f) Q :=
  Answers.bind (P := fun _ => True) (fun _ _ _ => trivial) fun x _ => h x

end StakeLedger.Session
