import Mathlib.Logic.Relation
import StakeLedger.Proofs.Application.Block
import StakeLedger.Proofs.Application.Powers

namespace StakeLedger

open Engine

structure Chain (σ : Type) where
  app : Application σ
  powers : Powers

namespace Chain

variable {σ : Type} {app : Application σ} {request : InitChainRequest} {c d : Chain σ}

def init (app : Application σ) (request : InitChainRequest) : Chain σ :=
  ⟨app, Powers.zero.take (app.initChain request).validators⟩

def endBlock (c : Chain σ) (request : EndBlockRequest) (env : σ) : Chain σ :=
  let ended := ((c.app.endBlock request).run env).1
  ⟨ended.2, c.powers.take ended.1.validatorUpdates⟩

def commit (c : Chain σ) (disk : Disk) : Chain σ := { c with app := (c.app.commit disk).2.1 }

/-- Between blocks anything may happen to an application that leaves its genesis document and the view
of the commit alone; in particular any deltas may come to be drained. -/
inductive Step (c : Chain σ) : Chain σ → Prop
  | endBlock (request : EndBlockRequest) (env : σ) (built : ∀ d ∈ c.app.staking.drain.1, d.IsBuilt) :
      Step c (c.endBlock request env)
  | commit (disk : Disk) : Step c (c.commit disk)
  | aside (app : Application σ) (genesis : app.genesis = c.app.genesis)
      (commitState : app.commitState = c.app.commitState) : Step c { c with app }

abbrev Run : Chain σ → Chain σ → Prop := Relation.ReflTransGen Step

structure Valid (g : Genesis) (c : Chain σ) : Prop where
  genesis : c.app.genesis = g
  agrees : Agrees g c.app.commitState.validators c.powers

theorem valid_init (h : app.commitState.validators = []) : (init app request).Valid app.genesis :=
  ⟨rfl, (congrArg (Agrees _ · _) h).mpr (agrees_genesis _)⟩

theorem Valid.endBlock {g : Genesis} (h : c.Valid g) (er : EndBlockRequest) (env : σ)
    (hd : ∀ d ∈ c.app.staking.drain.1, d.IsBuilt) : (c.endBlock er env).Valid g := by
  obtain ⟨entropy, he⟩ := Application.endBlock_run c.app er env
  rw [Chain.endBlock]
  rw [he]
  obtain ⟨rfl, hagrees⟩ := h
  exact ⟨rfl, hagrees.resolve hd⟩

theorem Valid.commit {g : Genesis} (h : c.Valid g) (disk : Disk) : (c.commit disk).Valid g := by
  rw [Chain.commit]
  rcases c.app.commit_cases disk with hc | hc
  · rw [hc]
    exact ⟨h.genesis, h.agrees⟩
  · rw [hc]
    exact h

theorem Valid.step {g : Genesis} (h : c.Valid g) (hs : Step c d) : d.Valid g := by
  cases hs with
  | endBlock er env hd => exact h.endBlock er env hd
  | commit disk => exact h.commit disk
  | aside app hg hc => exact ⟨hg.trans h.genesis, hc ▸ h.agrees⟩

theorem Valid.run {g : Genesis} (h : c.Valid g) (hr : Run c d) : d.Valid g := by
  induction hr with
  | refl => exact h
  | tail _ hs ih => exact ih.step hs

/-- However the blocks of a chain go, whoever has stake has it as power with the engine, other powers
than those of the roster are left from the genesis document, and somebody has power. -/
theorem powers_follow_roster (fresh : app.commitState.validators = [])
    (positive : ∃ a, 0 < app.genesis.powers a) (hr : Run (init app request) c) :
    (∀ v ∈ c.app.commitState.validators, 0 < v.stake → c.powers v.address = v.stake) ∧
      (∀ a, c.powers a ≠ c.app.commitState.validators.powerAt a →
        a ∈ app.genesis.addresses ∧ c.powers a = app.genesis.powers a) ∧
      ∃ a, 0 < c.powers a := by
  have h := (valid_init fresh).run hr
  exact ⟨fun v hv hpos => h.agrees.stake hv hpos, fun a ha => h.agrees.differs ha,
    h.agrees.exists_power positive⟩

/-- A deposit that is withdrawn in the same block leaves the engine with the bootstrap validator. -/
theorem bootstrap_power_after_withdrawal :
    let key := List.replicate 32 1
    let flow : Staking.Flow :=
      ⟨.empty, { channel := 0, subject := "stake", deltas := [.new key 5, .new key (-7)] }⟩
    let app : Application Unit :=
      ⟨.default, 0, .empty .check, .empty .deliver, .empty .commit, .ofFlow flow, [],
        fun state _ => (state, none), none⟩
    let c := (init app {}).endBlock ⟨1⟩ ()
    c.app.commitState.validators = [⟨none, Validator.addressOf key, key, 0⟩] ∧
      (∀ v ∈ c.app.commitState.validators, 0 < v.stake → c.powers v.address = v.stake) ∧
      (∀ a, c.powers a ≠ c.app.commitState.validators.powerAt a →
        a ∈ app.genesis.addresses ∧ c.powers a = app.genesis.powers a) ∧
      ∃ a, 0 < c.powers a := by
  intro key flow app c
  have hbuilt : ∀ d ∈ app.staking.drain.1, d.IsBuilt := by
    intro d hd
    rw [show app.staking.drain.1 = [.new key 5, .new key (-7)] from rfl] at hd
    rcases List.mem_cons.mp hd with rfl | hd
    · rfl
    · rw [List.mem_singleton.mp hd]
      rfl
  have hpositive : ∃ a, 0 < app.genesis.powers a :=
    ⟨"E0F0CE7A37BE16EDE67F70831D5608C5EA6E8540", by decide +kernel⟩
  refine ⟨by decide +kernel, ?_⟩
  exact powers_follow_roster rfl hpositive (.single (.endBlock ⟨1⟩ () hbuilt))

end Chain

end StakeLedger
