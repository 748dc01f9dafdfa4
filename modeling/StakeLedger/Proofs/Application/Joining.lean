import StakeLedger.Proofs.Application.Replica
import StakeLedger.Proofs.Validator.Deltas

/-! The roster of a ledger over whole runs, however its deltas are cut into blocks. Main statement:
`joined_of_run`. -/

namespace StakeLedger

def Demand.deltas : Demand → List StakeDelta
  | .endBlock deltas => deltas
  | .commit => []

def Report.drained (rs : List Report) : List StakeDelta := (rs.map demand).flatMap Demand.deltas

namespace Application

theorem validators_applyDeltas (s : State) (deltas : List StakeDelta) :
    (applyDeltas s deltas).1.validators = s.validators.applyAll deltas := by
  rw [applyDeltas]
  generalize ([] : List Engine.ValidatorUpdate) = updates
  induction deltas generalizing s updates with
  | nil => rfl
  | cons d ds ih => exact ih (s.applyDelta d).1 _

end Application

namespace State

variable {g : Genesis}

theorem validators_meet (s : State) (d : Demand) : (s.meet g d).2.validators = s.validators.applyAll d.deltas := by
  cases d with
  | endBlock deltas =>
    have hresolved := Application.resolveUpdates_fst g s deltas
    have happlied := Application.validators_applyDeltas s deltas
    rw [← hresolved] at happlied
    exact happlied
  | commit => rfl

theorem validators_meetAll (s : State) (ds : List Demand) :
    (s.meetAll g ds).2.validators = s.validators.applyAll (ds.flatMap Demand.deltas) := by
  induction ds generalizing s with
  | nil => rfl
  | cons d ds ih =>
    have hrest := ih (s.meet g d).2
    rw [validators_meet, ← Roster.applyAll_append, ← List.flatMap_cons] at hrest
    exact hrest

end State

namespace Application

variable {σ : Type} {app last : Application σ} {rs : List Report}

theorem Run.validators (h : Run app rs last) :
    last.commitState.validators = app.commitState.validators.applyAll (Report.drained rs) := by
  have hmeets := congrArg (fun met => met.2.validators) h.meets.2
  rw [Report.drained, ← State.validators_meetAll]
  exact hmeets.symm

/-- A ledger that starts with nobody is joined by whom its deltas name, and by nobody else. The roster hangs
on the deltas in a row and not on the blocks that they came in, and two neighbours for different addresses
may change places without a change to anybody's stake. -/
theorem joined_of_run (fresh : app.commitState.validators = []) (hrun : Run app rs last)
    (built : ∀ d ∈ Report.drained rs, d.IsBuilt) :
    last.commitState.validators.Joined (Report.drained rs) ∧
      ∀ {τ : Type} {other otherLast : Application τ} {others : List Report},
        other.commitState.validators = [] → Run other others otherLast →
        (Report.drained others = Report.drained rs →
          otherLast.commitState.validators = last.commitState.validators) ∧
        ∀ front d e back, Report.drained rs = front ++ d :: e :: back →
          Report.drained others = front ++ e :: d :: back → d.address ≠ e.address →
          ∀ a, otherLast.commitState.validators.stakeAt a = last.commitState.validators.stakeAt a := by
  have hjoined : last.commitState.validators.Joined (Report.drained rs) := by
    rw [hrun.validators, fresh]
    exact Roster.joined_nil.applyAll built
  refine ⟨hjoined, fun hfresh hother => ⟨fun hsame => ?_, ?_⟩⟩
  · rw [hother.validators, hrun.validators, hfresh, fresh, hsame]
  · intro front d e back hrs hothers hne a
    have hbuilt : ∀ d' ∈ front ++ e :: d :: back, d'.IsBuilt := by
      intro d' hd'
      apply built
      rw [hrs]
      simp only [List.mem_append, List.mem_cons] at hd' ⊢
      tauto
    have hswapped := Roster.joined_nil.applyAll hbuilt
    rw [List.nil_append, ← hothers, ← hfresh, ← hother.validators] at hswapped
    rw [hswapped.stake, hjoined.stake, hothers, hrs, StakeDelta.own_swap hne]

/-- Four deltas for two validators, in two blocks with a failed commit between them, and in one. The first
validator falls to zero on the way and keeps its place. -/
theorem joined_past_zero :
    let flow (deltas : List StakeDelta) : Staking.Flow :=
      ⟨.empty, { channel := 0, subject := "stake", deltas }⟩
    let app (deltas : List StakeDelta) : Application Unit := ⟨.default, 0, .empty .check, .empty .deliver,
      .empty .commit, .ofFlow (flow deltas), [], Effects.none, none⟩
    let front : List StakeDelta := [.new (List.replicate 32 1) 5, .new (List.replicate 32 2) 3]
    let back : List StakeDelta := [.new (List.replicate 32 1) (-9), .new (List.replicate 32 1) 2]
    ∃ rs others last otherLast, Run (app front) rs last ∧ Run (app (front ++ back)) others otherLast ∧
      rs.length = 2 ∧ others.length = 1 ∧ last.commitState.validators.map Validator.stake = [2, 3] ∧
      last.commitState.validators.Joined (front ++ back) ∧
      otherLast.commitState.validators = last.commitState.validators := by
  intro flow app front back
  let ended := (((app front).endBlock ⟨1⟩).run ()).1.2
  let refilled : Application Unit := { ended with staking := .ofFlow (flow back) }
  let disk : Disk := { entries := [] }
  have hpath : (nextState ended.commitState).path = none := by decide +kernel
  have hlost : (nextState ended.commitState).Saves disk disk _ := .unbound hpath
  have hrun := Run.step (.endBlock ⟨1⟩ ()) (.step (.commit hlost)
    (.step (.beside refilled.staking refilled.effects) (.step (.endBlock ⟨2⟩ ()) (.refl _))))
  have hother : Run (app (front ++ back)) _ _ := .step (.endBlock ⟨1⟩ ()) (.refl _)
  have hbuilt : ∀ d ∈ front ++ back, d.IsBuilt := by simp [front, back, StakeDelta.IsBuilt, StakeDelta.new]
  obtain ⟨hjoined, halike⟩ := joined_of_run rfl hrun hbuilt
  have hsame := (halike rfl hother).1 rfl
  refine ⟨_, _, _, _, hrun, hother, rfl, rfl, ?_, hjoined, hsame⟩
  decide +kernel

end Application

end StakeLedger
