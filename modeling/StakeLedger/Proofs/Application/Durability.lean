import StakeLedger.Application.Bootstrap
import StakeLedger.Proofs.Application.Site
import StakeLedger.Proofs.State.Save
import StakeLedger.Proofs.State.Store

namespace StakeLedger

open Disk

/-- A genesis document that was read or made up, with no double in its staking section. -/
structure Genesis.Exact (g : Genesis) : Prop where
  sourced : g.Sourced
  staking : (Application.genesisStaking g).all Staking.Params.isExact = true

namespace Site

variable {σ : Type} {store : Store} {disk d : Disk} {height : Int64} {s s' : Site σ} {g : Genesis}
  {app app' : Application σ} {t : State} {failure : Option StateError}

/-- What a process that starts now should find: the state that was renamed last, or else what was there
before. -/
def last (store : Store) (disk : Disk) (s : Site σ) (g : Genesis) : Except StateError State :=
  match s.renamed with
  | [] => store.load disk .commit g
  | t :: _ => .ok t

/-- A site whose first process found `disk` with a state of that height. -/
structure Durable (store : Store) (disk : Disk) (height : Int64) (s : Site σ) : Prop where
  /-- The snapshot is that of the last state renamed into place, or as it was. -/
  snapshot : (s.disk.read (store.path .commit)).toOption = match s.renamed with
    | [] => (disk.read (store.path .commit)).toOption
    | t :: _ => some (Bytes.ofString (State.codec.pretty t))
  /-- A process can be started, and finds exactly that state. -/
  restart : ∀ g : Genesis, g.Exact → ∃ t, s.last store disk g = .ok t ∧
    t.height = height + Int64.ofNat s.renamed.length ∧
    ∀ (interval : UInt64) (staking : Staking.Pipeline) (router : Query.Router σ) (effects : Effects),
      Application.new g store s.disk interval staking router effects = .ok
        ⟨g, interval, store.fresh .check g, store.fresh .deliver g, t, staking, router, effects, none⟩
  /-- The one that runs has that state too, but for the roster. -/
  running : ∀ app, s.app = some app → app.genesis.Exact ∧ ∃ t validators,
    s.last store disk app.genesis = .ok t ∧ app.commitState = { t with validators }
  /-- It tells the engine the height and the root of that state. -/
  info : ∀ app request, s.app = some app → ∃ t, s.last store disk app.genesis = .ok t ∧
    app.info request = ⟨Application.name, Application.protocolVersion, app.genesis.appVersion,
      height + Int64.ofNat s.renamed.length, t.root⟩
  /-- A commit that fails leaves the application and the snapshot as they are. -/
  failed : ∀ app d e, s.app = some app → (Application.nextState app.commitState).Saves s.disk d (some e) →
    app.conclude (some e) = (.error e, app) ∧
      (d.read (store.path .commit)).toOption = (s.disk.read (store.path .commit)).toOption
  /-- One that succeeds answers with the state that it saved, and goes on from there. -/
  succeeded : ∀ app d, s.app = some app → (Application.nextState app.commitState).Saves s.disk d none →
    app.conclude none =
        (.ok ⟨(Application.nextState app.commitState).root, height + Int64.ofNat (s.renamed.length + 1)⟩,
          { app with commitState := Application.nextState app.commitState }) ∧
      d.read (store.path .commit) =
        .ok (Bytes.ofString (State.codec.pretty (Application.nextState app.commitState)))

structure Sound (store : Store) (height : Int64) (t : State) : Prop where
  path : t.path = some (store.path .commit)
  height : t.height = height
  storable : t.Storable
  exact : t.isExact = true

theorem Sound.next (h : Sound store height t) (validators : Roster) :
    Sound store (height + 1) (Application.nextState { t with validators }) := by
  refine ⟨h.path, ?_, h.storable.of_staking rfl, h.exact⟩
  have hheight : t.height + 1 = height + 1 := congrArg (· + 1) h.height
  exact hheight

theorem Sound.ofBytes_pretty (h : Sound store height t) :
    State.codec.ofBytes (Bytes.ofString (State.codec.pretty t)) = .ok { t with path := none } :=
  h.storable.ofBytes_pretty h.exact

theorem sound_fresh (h : g.Exact) : Sound store 0 (store.fresh .commit g) :=
  ⟨rfl, rfl, Store.storable_fresh h.sourced, h.staking⟩

structure Valid (store : Store) (disk : Disk) (height : Int64) (s : Site σ) : Prop where
  keeps : Keeps disk s.disk
  others : ∀ phase, phase ≠ .commit → s.disk.get? (store.place disk phase) = none
  untouched : s.renamed = [] →
    s.disk.get? (store.place disk .commit) = disk.get? (store.place disk .commit)
  written : ∀ t ∈ s.renamed.head?, s.disk.read (store.path .commit) = .ok (Bytes.ofString (State.codec.pretty t))
  last : ∀ g : Genesis, g.Exact →
    ∃ t, s.last store disk g = .ok t ∧ Sound store (height + Int64.ofNat s.renamed.length) t
  running : ∀ app ∈ s.app, app.genesis.Exact ∧ ∃ t validators,
    s.last store disk app.genesis = .ok t ∧ app.commitState = { t with validators }

/-! ### Steps -/

theorem rename_none (s : Site σ) (t : State) : s.rename t none = t :: s.renamed := if_pos rfl

theorem rename_some (s : Site σ) (t : State) (e : StateError) : s.rename t (some e) = s.renamed :=
  if_neg (Option.some_ne_none e)

theorem Valid.of_running (h : s.Valid store disk height) {running : Option (Application σ)}
    (hr : ∀ app ∈ running, app.genesis.Exact ∧ ∃ t validators,
      s.last store disk app.genesis = .ok t ∧ app.commitState = { t with validators }) :
    Valid store disk height { s with app := running } :=
  ⟨h.keeps, h.others, h.untouched, h.written, h.last, hr⟩

theorem Valid.stop (h : s.Valid store disk height) :
    Valid (σ := σ) store disk height ⟨s.disk, none, s.renamed⟩ := by
  apply h.of_running
  rintro _ ⟨⟩

theorem Valid.goes_on (h : s.Valid store disk height) (hs : s.app = some app)
    (hg : app'.genesis = app.genesis) (hc : ∃ validators, app'.commitState = { app.commitState with validators }) :
    Valid store disk height { s with app := some app' } := by
  obtain ⟨hexact, t, validators, hlast, hcommit⟩ := h.running app hs
  obtain ⟨validators', hc⟩ := hc
  apply h.of_running
  rintro _ ⟨⟩
  rw [hg, hc, hcommit]
  exact ⟨hexact, t, validators', hlast, rfl⟩

theorem Valid.sound_running (h : s.Valid store disk height) (hs : s.app = some app) :
    ∃ t validators, s.last store disk app.genesis = .ok t ∧ app.commitState = { t with validators } ∧
      Sound store (height + Int64.ofNat s.renamed.length) t := by
  obtain ⟨hexact, t, validators, hlast, hcommit⟩ := h.running app hs
  obtain ⟨t', hlast', hsound⟩ := h.last app.genesis hexact
  obtain rfl : t = t' := Except.ok.inj (hlast.symm.trans hlast')
  exact ⟨t, validators, hlast, hcommit, hsound⟩

theorem Valid.sound_next (h : s.Valid store disk height) (hs : s.app = some app) :
    Sound store (height + Int64.ofNat (s.renamed.length + 1)) (Application.nextState app.commitState) := by
  obtain ⟨t, validators, -, hcommit, hsound⟩ := h.sound_running hs
  rw [hcommit, Int64.ofNat_add, ← Int64.add_assoc]
  exact hsound.next validators

theorem Valid.others_saved {content : Bytes} {fault : Option Disk.Fault} (h : s.Valid store disk height)
    (hsaved : store.Saved content s.disk d fault) {phase : Phase} (hphase : phase ≠ .commit) :
    d.get? (store.place disk phase) = none := by
  -- Directories stay, so the snapshots have the places that they had on the first disk.
  have hplace : store.place s.disk phase = store.place disk phase := Store.place_keeps h.keeps phase
  have hsame := hsaved.others phase (.inl hphase)
  rw [hplace, h.others phase hphase] at hsame
  exact hsame

theorem Valid.unsaved {content : Bytes} {fault : Disk.Fault} (h : s.Valid store disk height)
    (hsaved : store.Saved content s.disk d (some fault)) :
    Valid (σ := σ) store disk height ⟨d, none, s.renamed⟩ := by
  have hsame := hsaved.others .commit (.inr (Option.some_ne_none fault))
  refine ⟨h.keeps.trans hsaved.keeps, fun phase => h.others_saved hsaved, fun hr => ?_, fun t ht => ?_, h.last, ?_⟩
  · rw [Store.place_keeps h.keeps] at hsame
    exact hsame.trans (h.untouched hr)
  · exact Store.read_of_keeps hsaved.keeps hsame (h.written t ht)
  · rintro _ ⟨⟩

theorem Valid.saved (h : s.Valid store disk height)
    (ht : Sound store (height + Int64.ofNat (s.renamed.length + 1)) t)
    (hsaved : store.Saved (Bytes.ofString (State.codec.pretty t)) s.disk d none) :
    Valid (σ := σ) store disk height ⟨d, none, t :: s.renamed⟩ := by
  refine ⟨h.keeps.trans hsaved.keeps, fun phase => h.others_saved hsaved, ?_, ?_, ?_, ?_⟩
  · rintro ⟨⟩
  · rintro _ ⟨⟩
    exact hsaved.snapshot rfl
  · intro g hg
    exact ⟨t, rfl, ht⟩
  · rintro _ ⟨⟩

theorem Valid.crash (hc : store.Clear disk) (h : s.Valid store disk height) (hs : s.app = some app)
    (saves : (Application.nextState app.commitState).Saves s.disk d failure) :
    Valid (σ := σ) store disk height ⟨d, none, s.rename (Application.nextState app.commitState) failure⟩ := by
  have hnext := h.sound_next hs
  generalize Application.nextState app.commitState = next at saves hnext ⊢
  cases saves with
  | unbound hpath =>
    rw [hnext.path] at hpath
    cases hpath
  | @bound path _ fault hpath performs =>
    obtain rfl := Option.some.inj (hnext.path.symm.trans hpath)
    have hsaved := (hc.keeps h.keeps).saved performs
    cases fault with
    | none =>
      rw [Option.map_none, rename_none]
      exact h.saved hnext hsaved
    | some fault =>
      rw [Option.map_some, rename_some]
      exact h.unsaved hsaved

theorem Valid.commit (hc : store.Clear disk) (h : s.Valid store disk height) (hs : s.app = some app)
    (saves : (Application.nextState app.commitState).Saves s.disk d failure) :
    Valid store disk height
      ⟨d, some (app.conclude failure).2, s.rename (Application.nextState app.commitState) failure⟩ := by
  have hcrash := h.crash hc hs saves
  apply hcrash.of_running
  rintro _ ⟨⟩
  obtain ⟨hexact, t, validators, hlast, hcommit⟩ := h.running app hs
  cases failure with
  | none =>
    have hconclude : (app.conclude none).2 = { app with commitState := Application.nextState app.commitState } :=
      rfl
    rw [rename_none, hconclude]
    generalize Application.nextState app.commitState = next
    exact ⟨hexact, next, next.validators, rfl, rfl⟩
  | some e =>
    rw [rename_some]
    exact ⟨hexact, t, validators, hlast, hcommit⟩

theorem Valid.load (hu : store.Usable disk) (h : s.Valid store disk height) (hg : g.Exact) :
    store.load s.disk .commit g = s.last store disk g := by
  obtain ⟨t, hlast, hsound⟩ := h.last g hg
  rw [hlast]
  rw [Site.last] at hlast
  split at hlast
  · next hrenamed => exact hu.load_of_keeps h.keeps (h.untouched hrenamed) hlast
  · next next rest hrenamed =>
    obtain rfl := Except.ok.inj hlast
    have hread := h.written next (congrArg List.head? hrenamed)
    rw [Store.load_of_read hread hsound.ofBytes_pretty, ← hsound.path]

theorem Valid.load_other (h : s.Valid store disk height) {phase : Phase} (hphase : phase ≠ .commit) :
    store.load s.disk phase g = .ok (store.fresh phase g) := by
  apply Store.load_of_absent
  apply Store.holds_eq_false
  rw [Store.place_keeps h.keeps]
  exact h.others phase hphase

theorem Valid.new (hu : store.Usable disk) (h : s.Valid store disk height) (hg : g.Exact) (interval : UInt64)
    (staking : Staking.Pipeline) (router : Query.Router σ) (effects : Effects)
    (hlast : s.last store disk g = .ok t) :
    Application.new g store s.disk interval staking router effects = .ok
      ⟨g, interval, store.fresh .check g, store.fresh .deliver g, t, staking, router, effects, none⟩ := by
  have hcheck : store.load s.disk .check g = .ok (store.fresh .check g) := h.load_other nofun
  have hdeliver : store.load s.disk .deliver g = .ok (store.fresh .deliver g) := h.load_other nofun
  have hcommit : store.load s.disk .commit g = .ok t := (h.load hu hg).trans hlast
  rw [Application.new, hcheck, hdeliver, hcommit]
  rfl

theorem Valid.step (hu : store.Usable disk) (h : s.Valid store disk height)
    (hstep : Step store Genesis.Exact s s') : s'.Valid store disk height := by
  cases hstep with
  | call call other read env answer running answered =>
    obtain ⟨rfl, hsettled⟩ := Callback.perform_run other answered
    exact h.goes_on running hsettled.genesis hsettled.state
  | @work app staking running => exact h.goes_on running rfl ⟨app.commitState.validators, rfl⟩
  | commit running saves => exact h.commit hu.clear running saves
  | crash running saves => exact h.crash hu.clear running saves
  | stop => exact h.stop
  | @start app genesis isAllowed interval staking router effects down loaded =>
    obtain ⟨rfl, hload⟩ := Application.new_eq_ok loaded
    rw [h.load hu isAllowed] at hload
    apply h.of_running
    rintro _ ⟨⟩
    exact ⟨isAllowed, app.commitState, app.commitState.validators, hload, rfl⟩

theorem Valid.run (hu : store.Usable disk) (h : s.Valid store disk height)
    (hrun : Run store Genesis.Exact s s') : s'.Valid store disk height := by
  induction hrun with
  | refl => exact h
  | tail _ hstep ih => exact ih.step hu hstep

theorem valid_start (hu : store.Usable disk)
    (halone : ∀ phase, phase ≠ .commit → disk.holds (store.path phase) = false) (hg : app.genesis.Exact)
    (hl : store.load disk .commit app.genesis = .ok app.commitState) (he : app.commitState.isExact = true) :
    Valid store disk app.commitState.height ⟨disk, some app, []⟩ := by
  refine ⟨.refl disk, fun phase hphase => hu.absent (halone phase hphase), fun _ => rfl, ?_, ?_, ?_⟩
  · rintro _ ⟨⟩
  · intro g hexact
    -- The height is zero without a snapshot; with one the document does not matter.
    rcases Store.load_cases hl with ⟨hholds, hfresh⟩ | ⟨content, decoded, hread, hdecode, hdecoded⟩
    · have hheight : app.commitState.height = 0 := congrArg State.height hfresh
      rw [hheight]
      exact ⟨store.fresh .commit g, Store.load_of_absent hholds g, sound_fresh hexact⟩
    · refine ⟨app.commitState, ?_, ?_⟩
      · rw [hdecoded]
        exact Store.load_of_read hread hdecode g
      · exact ⟨Store.path_of_load hl, (Int64.add_zero _).symm, Store.storable_of_load hg.sourced hl, he⟩
  · rintro _ ⟨⟩
    exact ⟨hg, app.commitState, app.commitState.validators, hl, rfl⟩

/-! ### What every run leaves -/

theorem Valid.snapshot (hu : store.Usable disk) (h : s.Valid store disk height) :
    (s.disk.read (store.path .commit)).toOption = match s.renamed with
      | [] => (disk.read (store.path .commit)).toOption
      | t :: _ => some (Bytes.ofString (State.codec.pretty t)) := by
  split
  · next hrenamed => exact hu.toOption_read h.keeps (h.untouched hrenamed)
  · next next rest hrenamed =>
    rw [h.written next (congrArg List.head? hrenamed)]
    rfl

theorem Valid.durable (hu : store.Usable disk) (h : s.Valid store disk height) :
    s.Durable store disk height := by
  refine ⟨h.snapshot hu, ?_, h.running, ?_, ?_, ?_⟩
  · intro g hg
    obtain ⟨t, hlast, hsound⟩ := h.last g hg
    exact ⟨t, hlast, hsound.height, fun interval staking router effects =>
      h.new hu hg interval staking router effects hlast⟩
  · intro app request hs
    obtain ⟨t, validators, hlast, hcommit, hsound⟩ := h.sound_running hs
    rw [Application.info, hcommit, ← hsound.height]
    exact ⟨t, hlast, rfl⟩
  · intro app d e hs saves
    have hcrash := (h.crash hu.clear hs saves).snapshot hu
    rw [rename_some] at hcrash
    exact ⟨rfl, hcrash.trans (h.snapshot hu).symm⟩
  · intro app d hs saves
    have hnext := h.sound_next hs
    have hcrash := h.crash hu.clear hs saves
    rw [rename_none] at hcrash
    have hanswer : app.conclude none = (.ok ⟨(Application.nextState app.commitState).root,
        (Application.nextState app.commitState).height⟩,
          { app with commitState := Application.nextState app.commitState }) := rfl
    rw [hanswer, hnext.height]
    exact ⟨rfl, hcrash.written _ rfl⟩

/-- Commits are atomic and last: at any point of any run, the snapshot is that of the last state that was
renamed into place, and both the running process and the next one go on from that state. The same holds after
one more commit of the process that runs. -/
theorem durable_of_run (hu : store.Usable disk)
    (halone : ∀ phase, phase ≠ .commit → disk.holds (store.path phase) = false) (hg : g.Exact)
    {interval : UInt64} {staking : Staking.Pipeline} {router : Query.Router σ} {effects : Effects}
    (hnew : Application.new g store disk interval staking router effects = .ok app)
    (he : app.commitState.isExact = true) (hrun : Run store Genesis.Exact ⟨disk, some app, []⟩ s) :
    s.Durable store disk app.commitState.height ∧
      ∀ running, s.app = some running → (s.committed running).Durable store disk app.commitState.height := by
  obtain ⟨rfl, hload⟩ := Application.new_eq_ok hnew
  have hvalid := valid_start hu halone hg hload he
  have hreached := hvalid.run hu hrun
  exact ⟨hreached.durable hu, fun running hs => (hreached.step hu (step_committed hs)).durable hu⟩

/-- The process ends after the rename of its first commit, before it could answer. -/
theorem durable_past_unanswered_commit :
    let store : Store := ⟨⟨"data"⟩⟩
    let disk : Disk := { entries := [(["data"], .directory)] }
    let g : Genesis := ⟨"", "", 1, none, [], "", .null⟩
    let app : Application Unit := ⟨g, 0, store.fresh .check g, store.fresh .deliver g, store.fresh .commit g,
      .disabled .empty, [], fun state _ => (state, none), none⟩
    let next := Application.nextState app.commitState
    let first : Site Unit := ⟨disk, some app, []⟩
    let left : Site Unit := ⟨(next.save disk).1, none, [next]⟩
    Run store Genesis.Exact first left ∧ left.Durable store disk 0 := by
  intro store disk g app next first left
  have hread : Genesis.codec.ofBytes (Bytes.ofString "\x7b\x7d") = .ok g := by decide +kernel
  have hexact : g.Exact := ⟨.document hread, rfl⟩
  have hu : store.Usable disk := .inl (by decide +kernel)
  have hempty : ∀ phase, disk.holds (store.path phase) = false := by
    intro phase
    cases phase <;> decide +kernel
  have hload : ∀ phase, store.load disk phase g = .ok (store.fresh phase g) := fun phase =>
    Store.load_of_absent (hempty phase) g
  have hnew : Application.new g store disk 0 app.staking app.router app.effects = .ok app := by
    rw [Application.new, hload, hload, hload]
    rfl
  have hsaved : (next.save disk).2 = none := by decide +kernel
  have hsaves := next.saves_save disk
  rw [hsaved] at hsaves
  have hrunning : first.app = some app := rfl
  have hcrash : Step store Genesis.Exact first ⟨_, none, first.rename next none⟩ := .crash hrunning hsaves
  have hrun : Run store Genesis.Exact first left := .single hcrash
  obtain ⟨hdurable, -⟩ := durable_of_run hu (fun phase _ => hempty phase) hexact hnew rfl hrun
  exact ⟨hrun, hdurable⟩

end Site

end StakeLedger
