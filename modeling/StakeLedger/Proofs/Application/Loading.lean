import StakeLedger.Proofs.Application.Site
import StakeLedger.Proofs.Disk.Attempt
import StakeLedger.Proofs.Node
import StakeLedger.Proofs.Staking.Section

/-!
How an application starts. A snapshot that is there counts, or stops the start; only for one that is missing does
the genesis document stand in. Main statement: `Application.new_loads`.
-/

namespace StakeLedger

open Disk Network

namespace Store

variable {store : Store} {disk : Disk} {phase : Phase} {g : Genesis} {s : State} {e : StateError}

def Readable (store : Store) (disk : Disk) (phase : Phase) : Prop :=
  ∃ content decoded, disk.read (store.path phase) = .ok content ∧ State.codec.ofBytes content = .ok decoded

inductive Damaged (store : Store) (disk : Disk) (phase : Phase) : StateError → Prop
  | io {fault : Disk.Fault} (there : disk.holds (store.path phase) = true)
      (read : disk.read (store.path phase) = .error fault) : Damaged store disk phase (.io (store.path phase) fault)
  | corrupt {content : Bytes} {fault : Fault} (read : disk.read (store.path phase) = .ok content)
      (decode : State.codec.ofBytes content = .error fault) :
      Damaged store disk phase (.corrupt (store.path phase) fault)

/-- A view that has no past. Of the genesis document it takes the staking parameters, none where they are absent
or malformed. -/
def outset (store : Store) (phase : Phase) (g : Genesis) : State where
  path := some (store.path phase)
  name := phase.name
  height := 0
  root := []
  staking := (Staking.section? g.appState.value).bind fun x => (Staking.Params.codec.ofJson x).toOption
  validators := []

theorem fresh_eq_outset (store : Store) (phase : Phase) (g : Genesis) : store.fresh phase g = store.outset phase g := by
  rw [outset, ← staking_fresh store phase g]
  rfl

inductive Starts (store : Store) (disk : Disk) (g : Genesis) (phase : Phase) : State → Prop
  | snapshot {content : Bytes} {decoded : State} (read : disk.read (store.path phase) = .ok content)
      (decode : State.codec.ofBytes content = .ok decoded) :
      Starts store disk g phase { decoded with path := some (store.path phase) }
  | missing (absent : disk.holds (store.path phase) = false) : Starts store disk g phase (store.outset phase g)

theorem holds_of_read {content : Bytes} (h : disk.read (store.path phase) = .ok content) :
    disk.holds (store.path phase) = true := holds_eq_true.mpr ⟨_, read_eq_ok.mp h⟩

theorem load_eq_ok : store.load disk phase g = .ok s ↔ Starts store disk g phase s := by
  constructor
  · intro h
    rcases load_cases h with ⟨habsent, rfl⟩ | ⟨content, decoded, hread, hdecode, rfl⟩
    · exact fresh_eq_outset store phase g ▸ .missing habsent
    · exact .snapshot hread hdecode
  · intro h
    cases h with
    | snapshot hread hdecode => exact load_of_read hread hdecode g
    | missing habsent => exact (load_of_absent habsent g).trans (congrArg _ (fresh_eq_outset store phase g))

theorem load_eq_error : store.load disk phase g = .error e ↔ Damaged store disk phase e := by
  constructor
  · intro h
    rw [load] at h
    split at h
    · next hthere =>
      split at h
      · next hread =>
        cases h
        exact .io hthere hread
      · next hread =>
        split at h
        · next hdecode =>
          cases h
          exact .corrupt hread hdecode
        · cases h
    · cases h
  · intro h
    cases h with
    | io hthere hread => rw [load, if_pos hthere, hread]
    | corrupt hread hdecode =>
      rw [load, if_pos (holds_of_read hread), hread]
      dsimp only
      rw [hdecode]

theorem load_ok_iff : (∃ s, store.load disk phase g = .ok s) ↔
    (disk.holds (store.path phase) = true → Readable store disk phase) := by
  constructor
  · rintro ⟨s, h⟩ hthere
    cases load_eq_ok.mp h with
    | snapshot hread hdecode => exact ⟨_, _, hread, hdecode⟩
    | missing habsent => exact nomatch habsent.symm.trans hthere
  · intro h
    by_cases hthere : disk.holds (store.path phase) = true
    · obtain ⟨content, decoded, hread, hdecode⟩ := h hthere
      exact ⟨_, load_of_read hread hdecode g⟩
    · exact ⟨_, load_of_absent (Bool.eq_false_iff.mpr hthere) g⟩

end Store

namespace Application

variable {σ : Type} {genesis : Genesis} {store : Store} {disk : Disk} {interval : UInt64}
  {staking : Staking.Pipeline} {router : Query.Router σ} {effects : Effects} {app : Application σ} {e : StateError}

theorem new_states : (new genesis store disk interval staking router effects).map (fun app => Phase.all.map app.state) =
    Phase.all.mapM fun phase => store.load disk phase genesis := by
  rw [new, Phase.all]
  simp only [List.mapM_cons, List.mapM_nil]
  cases store.load disk .check genesis with
  | error e => rfl
  | ok check =>
    cases store.load disk .deliver genesis with
    | error e => rfl
    | ok deliver =>
      cases store.load disk .commit genesis with
      | error e => rfl
      | ok commit => rfl

theorem mem_all (phase : Phase) : phase ∈ Phase.all := by
  cases phase <;> decide

theorem new_ok_iff : (∃ app, new (σ := σ) genesis store disk interval staking router effects = .ok app) ↔
    ∀ phase, disk.holds (store.path phase) = true → Store.Readable store disk phase := by
  have hstates : (∃ app, new (σ := σ) genesis store disk interval staking router effects = .ok app) ↔
      ∃ states, Phase.all.mapM (fun phase => store.load disk phase genesis) = .ok states := by
    rw [← @new_states σ genesis store disk interval staking router effects]
    simp only [map_eq_ok]
    exact ⟨fun ⟨app, h⟩ => ⟨_, app, h, rfl⟩, fun ⟨_, app, h, _⟩ => ⟨app, h⟩⟩
  rw [hstates, mapM_ok_iff]
  exact ⟨fun h phase => Store.load_ok_iff.mp (h phase (mem_all phase)), fun h phase _ => Store.load_ok_iff.mpr (h phase)⟩

theorem new_eq_error : new (σ := σ) genesis store disk interval staking router effects = .error e ↔
    ∃ before phase after, Phase.all = before ++ phase :: after ∧
      (∀ p ∈ before, disk.holds (store.path p) = true → Store.Readable store disk p) ∧
      Store.Damaged store disk phase e := by
  rw [← map_eq_error, new_states, mapM_eq_error]
  simp only [Store.load_ok_iff, Store.load_eq_error]

theorem starts_of_new (h : new genesis store disk interval staking router effects = .ok app) (phase : Phase) :
    Store.Starts store disk genesis phase (app.state phase) := by
  obtain ⟨check, hcheck, hrest⟩ := bind_eq_ok.mp h
  obtain ⟨deliver, hdeliver, hrest⟩ := bind_eq_ok.mp hrest
  obtain ⟨commit, hcommit, he⟩ := bind_eq_ok.mp hrest
  cases he
  cases phase with
  | check => exact Store.load_eq_ok.mp hcheck
  | deliver => exact Store.load_eq_ok.mp hdeliver
  | commit => exact Store.load_eq_ok.mp hcommit

/-- An application comes up exactly when every snapshot that is there can be read, and then each of its views is what
its snapshot says or, without one, has no past. Otherwise the first damaged snapshot in the order of the phases is
reported. Whichever it is, and however the start of a node goes on, the files stay as they were. -/
theorem new_loads (genesis : Genesis) (store : Store) (disk : Disk) (interval : UInt64) (staking : Staking.Pipeline)
    (router : Query.Router σ) (effects : Effects) :
    ((∃ app, new genesis store disk interval staking router effects = .ok app) ↔
        ∀ phase, disk.holds (store.path phase) = true → Store.Readable store disk phase) ∧
      (∀ e, new genesis store disk interval staking router effects = .error e ↔
        ∃ before phase after, Phase.all = before ++ phase :: after ∧
          (∀ p ∈ before, disk.holds (store.path p) = true → Store.Readable store disk p) ∧
          Store.Damaged store disk phase e) ∧
      (∀ app, new genesis store disk interval staking router effects = .ok app →
        app.genesis = genesis ∧ ∀ phase, Store.Starts store disk genesis phase (app.state phase)) ∧
      (∀ directory made fault, Performs [.createDirectories directory] disk made fault → SameFiles disk made) ∧
      ∀ (link : Link σ) (config : Config), Session.Answers (Node.boot link config disk) fun booted =>
        ∀ node made, booted = .ok (node, made) → SameFiles disk made := by
  refine ⟨new_ok_iff, fun e => new_eq_error, fun app happ => ⟨(new_eq_ok happ).1, starts_of_new happ⟩,
    fun directory made fault => sameFiles_of_performs, fun link config s booted hbooted node made hnode => ?_⟩
  have hmade := Node.boot_disk s booted hbooted node made hnode
  exact sameFiles_of_performs (.next hmade (.done made))

/-- One snapshot that is there and two that are missing, and the same with a directory in the place of the last. -/
theorem new_past_directory :
    let store : Store := ⟨⟨"d"⟩⟩
    let snapshot := Bytes.ofString "\x7b\"name\": \"deliver_tx\", \"height\": 3\x7d"
    let disk : Disk := ⟨[(["d"], .directory), (["d", "abci-state-deliver_tx.json"], .file snapshot)], []⟩
    let blocked : Disk := disk.put ["d", "abci-state-commit.json"] .directory
    (∃ app, new (σ := Unit) default store disk 0 (.disabled .empty) [] .none = .ok app ∧ app.deliverState.height = 3 ∧
      app.commitState = store.outset .commit default) ∧
      new (σ := Unit) default store blocked 0 (.disabled .empty) [] .none =
        .error (.io (store.path .commit) .isDirectory) := by
  intro store snapshot disk blocked
  let decoded : State := ⟨none, "deliver_tx", 3, [], none, []⟩
  have hdecode : State.codec.ofBytes snapshot = .ok decoded := by decide +kernel
  have hread : disk.read (store.path .deliver) = .ok snapshot := by decide +kernel
  have hblocked : blocked.read (store.path .deliver) = .ok snapshot := by decide +kernel
  obtain ⟨hok, -, hstarts, -⟩ := new_loads (σ := Unit) default store disk 0 (.disabled .empty) [] .none
  obtain ⟨-, herror, -⟩ := new_loads (σ := Unit) default store blocked 0 (.disabled .empty) [] .none
  constructor
  · have hreadable : ∀ phase, disk.holds (store.path phase) = true → Store.Readable store disk phase := by
      intro phase hthere
      cases phase with
      | deliver => exact ⟨snapshot, decoded, hread, hdecode⟩
      | check => exact absurd hthere (by decide +kernel)
      | commit => exact absurd hthere (by decide +kernel)
    obtain ⟨app, happ⟩ := hok.mpr hreadable
    have hviews := (hstarts app happ).2
    have hdeliver : app.deliverState = { decoded with path := some (store.path .deliver) } :=
      Except.ok.inj ((Store.load_eq_ok.mpr (hviews .deliver)).symm.trans (Store.load_of_read hread hdecode default))
    have habsent : disk.holds (store.path .commit) = false := by decide +kernel
    have hcommit : app.commitState = store.fresh .commit default :=
      Except.ok.inj ((Store.load_eq_ok.mpr (hviews .commit)).symm.trans (Store.load_of_absent habsent default))
    exact ⟨app, happ, congrArg State.height hdeliver, hcommit.trans (Store.fresh_eq_outset store .commit default)⟩
  · have hdirectory : blocked.holds (store.path .commit) = true := by decide +kernel
    have hfault : blocked.read (store.path .commit) = .error .isDirectory := by decide +kernel
    refine (herror _).mpr ⟨[.check, .deliver], .commit, [], rfl, ?_, .io hdirectory hfault⟩
    intro phase hphase hthere
    cases phase with
    | deliver => exact ⟨snapshot, decoded, hblocked, hdecode⟩
    | check => exact absurd hthere (by decide +kernel)
    | commit => exact absurd hphase (by decide)

end Application

end StakeLedger
