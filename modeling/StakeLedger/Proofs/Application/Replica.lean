import StakeLedger.Proofs.Application.Site

/-!
An application as its engine sees it. What it reports follows from the genesis document, from the height,
the root and the roster that it starts with, and from the deltas of its blocks; whatever else is asked of
it leaves no trace. Main statement: `replicas_agree`.
-/

namespace StakeLedger

open Engine

inductive Demand
  | endBlock (deltas : List StakeDelta)
  | commit
  deriving DecidableEq, Repr

inductive Report
  | ended (deltas : List StakeDelta) (updates : List ValidatorUpdate)
  | committed (answer : CommitResponse)
  deriving DecidableEq, Repr

namespace Report

def demand : Report → Demand
  | .ended deltas _ => .endBlock deltas
  | .committed _ => .commit

/-- A commit that fails changes nothing and counts as none. -/
def ofCommit? : Except StateError CommitResponse → Option Report
  | .ok answer => some (.committed answer)
  | .error _ => none

end Report

namespace State

variable {s t : State} {g : Genesis}

structure Alike (s t : State) : Prop where
  height : s.height = t.height
  root : s.root = t.root
  validators : s.validators = t.validators

theorem Alike.applyDelta (h : s.Alike t) (d : StakeDelta) :
    (s.applyDelta d).1.Alike (t.applyDelta d).1 ∧ (s.applyDelta d).2 = (t.applyDelta d).2 := by
  have happlied : (s.applyDelta d).1.validators = (t.applyDelta d).1.validators :=
    congrArg (fun roster => (Roster.apply d roster).1) h.validators
  have hchanged : (s.applyDelta d).2 = (t.applyDelta d).2 :=
    congrArg (fun roster => (Roster.apply d roster).2) h.validators
  exact ⟨⟨h.height, h.root, happlied⟩, hchanged⟩

theorem Alike.applyDeltas (h : s.Alike t) (deltas : List StakeDelta) :
    (Application.applyDeltas s deltas).1.Alike (Application.applyDeltas t deltas).1 ∧
      (Application.applyDeltas s deltas).2 = (Application.applyDeltas t deltas).2 := by
  simp only [Application.applyDeltas]
  generalize ([] : List ValidatorUpdate) = updates
  induction deltas generalizing s t updates with
  | nil => exact ⟨h, rfl⟩
  | cons d ds ih =>
    obtain ⟨happlied, hchanged⟩ := h.applyDelta d
    simp only [List.foldl_cons, hchanged]
    exact ih happlied _

theorem Alike.resolveUpdates (h : s.Alike t) (deltas : List StakeDelta) :
    (Application.resolveUpdates g s deltas).1.Alike (Application.resolveUpdates g t deltas).1 ∧
      (Application.resolveUpdates g s deltas).2 = (Application.resolveUpdates g t deltas).2 := by
  obtain ⟨happlied, hupdates⟩ := h.applyDeltas deltas
  have hpower : (Application.applyDeltas s deltas).1.totalPower = (Application.applyDeltas t deltas).1.totalPower :=
    congrArg Roster.totalPower happlied.validators
  simp only [Application.resolveUpdates, hpower, hupdates]
  split
  · exact ⟨happlied, rfl⟩
  · exact ⟨happlied, rfl⟩

theorem Alike.nextState (h : s.Alike t) : (Application.nextState s).Alike (Application.nextState t) := by
  have hroot : (Application.nextState s).root = (Application.nextState t).root := by
    simp only [Application.nextState, computeRoot, rootParts, h.height, h.validators]
  exact ⟨congrArg (· + 1) h.height, hroot, h.validators⟩

def meet (g : Genesis) (s : State) : Demand → Report × State
  | .endBlock deltas =>
    let (next, updates) := Application.resolveUpdates g s deltas
    (.ended deltas updates, next)
  | .commit =>
    let next := Application.nextState s
    (.committed ⟨next.root, next.height⟩, next)

def meetAll (g : Genesis) (s : State) : List Demand → List Report × State
  | [] => ([], s)
  | d :: ds =>
    let (report, next) := s.meet g d
    let (reports, last) := next.meetAll g ds
    (report :: reports, last)

theorem meetAll_append (s : State) (ds es : List Demand) : s.meetAll g (ds ++ es) =
    ((s.meetAll g ds).1 ++ ((s.meetAll g ds).2.meetAll g es).1, ((s.meetAll g ds).2.meetAll g es).2) := by
  induction ds generalizing s with
  | nil => rfl
  | cons d ds ih => simp only [List.cons_append, meetAll, ih]

theorem Alike.meet (h : s.Alike t) (d : Demand) :
    (s.meet g d).1 = (t.meet g d).1 ∧ (s.meet g d).2.Alike (t.meet g d).2 := by
  cases d with
  | endBlock deltas =>
    obtain ⟨halike, hupdates⟩ := h.resolveUpdates (g := g) deltas
    exact ⟨congrArg (Report.ended deltas) hupdates, halike⟩
  | commit =>
    have hnext := h.nextState
    simp only [State.meet, hnext.root, hnext.height, true_and]
    exact hnext

theorem Alike.meetAll (h : s.Alike t) (ds : List Demand) :
    (s.meetAll g ds).1 = (t.meetAll g ds).1 ∧ (s.meetAll g ds).2.Alike (t.meetAll g ds).2 := by
  induction ds generalizing s t with
  | nil => exact ⟨rfl, h⟩
  | cons d ds ih =>
    obtain ⟨hreport, hnext⟩ := h.meet (g := g) d
    obtain ⟨hreports, hlast⟩ := ih hnext
    simp only [State.meetAll, hreport, hreports, true_and]
    exact hlast

end State

namespace Application

variable {σ : Type}

/-- One step of an application, with its report if the engine waits for one. The disk may be in any state at
a commit, and the world outside in any state at a call. -/
inductive Step (app : Application σ) : Option Report → Application σ → Prop
  | endBlock (request : EndBlockRequest) (env : σ) :
      Step app (some (.ended app.staking.drain.1 ((app.endBlock request).run env).1.1.validatorUpdates))
        ((app.endBlock request).run env).1.2
  | commit {disk disk' : Disk} {failure : Option StateError}
      (saves : (nextState app.commitState).Saves disk disk' failure) :
      Step app (Report.ofCommit? (app.conclude failure).1) (app.conclude failure).2
  | call {app' : Application σ} {disk disk' : Disk} {ε : Type} (call : Callback) (noCommit : call ≠ .commit)
      (noEnd : call ≠ .endBlock) (read : {α : Type} → Codec α → Except ε α) (env : σ)
      (answer : Except (Callback.Refusal ε) Json)
      (answered : ((call.perform read (app, disk)).run.run env).1 = some (answer, app', disk')) :
      Step app none app'
  | beside (staking : Staking.Pipeline) (effects : Effects) : Step app none { app with staking, effects }

inductive Run : Application σ → List Report → Application σ → Prop
  | refl (app : Application σ) : Run app [] app
  | step {app next last : Application σ} {r : Option Report} {rs : List Report} (hs : Step app r next)
      (hr : Run next rs last) : Run app (r.toList ++ rs) last

variable {app next last : Application σ} {r : Option Report} {rs : List Report}

theorem Step.meets (h : Step app r next) : next.genesis = app.genesis ∧
    app.commitState.meetAll app.genesis (r.toList.map Report.demand) = (r.toList, next.commitState) := by
  cases h with
  | endBlock request env =>
    obtain ⟨entropy, he⟩ := app.endBlock_run request env
    rw [he]
    exact ⟨rfl, rfl⟩
  | @commit _ _ failure saves =>
    cases failure with
    | none => exact ⟨rfl, rfl⟩
    | some e => exact ⟨rfl, rfl⟩
  | call call noCommit noEnd read env answer answered =>
    obtain ⟨-, hkept⟩ := Callback.perform_kept noCommit noEnd answered
    exact ⟨hkept.genesis, Prod.ext rfl hkept.commitState.symm⟩
  | beside staking effects => exact ⟨rfl, rfl⟩

theorem Run.meets (h : Run app rs last) : last.genesis = app.genesis ∧
    app.commitState.meetAll app.genesis (rs.map Report.demand) = (rs, last.commitState) := by
  induction h with
  | refl app => exact ⟨rfl, rfl⟩
  | step hs hr ih =>
    obtain ⟨hgenesis, hmeets⟩ := hs.meets
    rw [hgenesis] at ih
    refine ⟨ih.1, ?_⟩
    rw [List.map_append, State.meetAll_append, hmeets, ih.2]

theorem Step.isolated (h : Step app r next) :
    (next.commitState.validators ≠ app.commitState.validators → ∃ deltas us, r = some (.ended deltas us)) ∧
      (next.commitState.height ≠ app.commitState.height ∨ next.commitState.root ≠ app.commitState.root →
        ∃ answer, r = some (.committed answer)) := by
  have hmeets := congrArg Prod.snd h.meets.2
  rcases r with _ | ⟨deltas, us⟩ | answer
  · have hstate : next.commitState = app.commitState := hmeets.symm
    rw [hstate]
    simp
  · obtain ⟨validators, hv⟩ := resolveUpdates_state app.genesis app.commitState deltas
    have hstate : next.commitState = { app.commitState with validators } := hmeets.symm.trans hv
    rw [hstate]
    simp
  · have hstate : next.commitState = nextState app.commitState := hmeets.symm
    rw [hstate]
    exact ⟨fun hne => absurd rfl hne, fun _ => ⟨answer, rfl⟩⟩

/-- Two replicas that start alike and end the same blocks, with commits at the same places, have told their
engines the same and are alike again, at whatever point they are looked at and whatever else was asked of
either. For a replica changes its roster only when a block ends, and its height and root only when a
commit succeeds. -/
theorem replicas_agree {τ : Type} {other otherLast : Application τ} {others : List Report}
    (hg : app.genesis = other.genesis) (hs : app.commitState.Alike other.commitState)
    (hrun : Run app rs last) (hother : Run other others otherLast)
    (hd : rs.map Report.demand = others.map Report.demand) :
    rs = others ∧ (∀ request, last.info request = otherLast.info request) ∧
      last.commitState.validators = otherLast.commitState.validators ∧
      ∀ r next, Step last r next →
        (next.commitState.validators ≠ last.commitState.validators → ∃ deltas us, r = some (.ended deltas us)) ∧
        (next.commitState.height ≠ last.commitState.height ∨ next.commitState.root ≠ last.commitState.root →
          ∃ answer, r = some (.committed answer)) := by
  obtain ⟨hgenesis, hmeets⟩ := hrun.meets
  obtain ⟨hgenesis', hmeets'⟩ := hother.meets
  rw [← hg, ← hd] at hmeets'
  have halike := hs.meetAll (g := app.genesis) (rs.map Report.demand)
  rw [hmeets, hmeets'] at halike
  obtain ⟨hreports, hlast⟩ := halike
  refine ⟨hreports, fun request => ?_, hlast.validators, fun r next hstep => hstep.isolated⟩
  rw [info, info, hgenesis, hgenesis', hg, hlast.height, hlast.root]

/-- One replica loses a commit to its disk and never fetches entropy; the other delivers a transaction that
its policy rejects. They end one block and commit it. -/
theorem replicas_agree_past_lost_commit :
    let path : Path := Store.path ⟨⟨"data"⟩⟩ .commit
    let flow : Staking.Flow :=
      ⟨.empty, { channel := 0, subject := "stake", deltas := [.new (List.replicate 32 1) 5] }⟩
    let view : State := { State.empty .commit with path := some path }
    let app : Application Unit :=
      ⟨.default, 0, .empty .check, .empty .deliver, view, .ofFlow flow, [], Effects.none, none⟩
    let other : Application Unit := ⟨.default, 1, .empty .check, .empty .deliver, view, .ofFlow flow, [],
      fun state _ => ({ state with height := 9 }, some (.rejected "")), none⟩
    ∃ rs others last otherLast, Run app rs last ∧ Run other others otherLast ∧
      otherLast.deliverState.height = 9 ∧ rs.length = 2 ∧ rs = others ∧
      ∀ request, last.info request = otherLast.info request := by
  intro path flow view app other
  let disk : Disk := { entries := [(["data"], .directory)] }
  let document := Bytes.ofString "\x7b\"tx\":\"AQ==\"\x7d"
  let read {α : Type} (c : Codec α) : Except Fault α := c.ofBytes document
  let delivered := (other.deliverTx ⟨[1]⟩).2
  have hread : read DeliverTxRequest.codec = .ok ⟨[1]⟩ := by decide +kernel
  have hanswered : ((Callback.deliverTx.perform read (other, disk)).run.run ()).1 =
      some (.ok (DeliverTxResponse.codec.write (other.deliverTx ⟨[1]⟩).1), delivered, disk) := by
    simp only [Callback.perform, Callback.ask, hread]
    rfl
  have hlost : (nextState app.commitState).Saves disk disk (some (.io path .notFound)) :=
    .bound rfl (.fails (.untouched _) .notFound)
  let ended := ((app.endBlock ⟨1⟩).run ()).1.2
  have hsaved : ((nextState ended.commitState).save disk).2 = none := by decide +kernel
  have hsaves := (nextState ended.commitState).saves_save disk
  rw [hsaved] at hsaves
  let ended' := ((delivered.endBlock ⟨7⟩).run ()).1.2
  have hsaved' : ((nextState ended'.commitState).save disk).2 = none := by decide +kernel
  have hsaves' := (nextState ended'.commitState).saves_save disk
  rw [hsaved'] at hsaves'
  have hrun := Run.step (.commit hlost) (.step (.endBlock ⟨1⟩ ()) (.step (.commit hsaves) (.refl _)))
  have hother := Run.step (.call .deliverTx (by decide) (by decide) read () _ hanswered)
    (.step (.endBlock ⟨7⟩ ()) (.step (.commit hsaves') (.refl _)))
  have hgenesis : app.genesis = other.genesis := rfl
  have halike : app.commitState.Alike other.commitState := ⟨rfl, rfl, rfl⟩
  obtain ⟨hreports, hinfo, -⟩ := replicas_agree hgenesis halike hrun hother (by decide +kernel)
  refine ⟨_, _, _, _, hrun, hother, ?_, ?_, hreports, hinfo⟩
  · decide +kernel
  · decide +kernel

end Application

end StakeLedger
