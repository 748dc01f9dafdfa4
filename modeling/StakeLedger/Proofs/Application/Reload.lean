import StakeLedger.Proofs.Application.Durability

/-! What a node writes down it can read again: snapshots, and the states that come of them in any run. -/

namespace StakeLedger

open Disk

namespace Site

variable {σ : Type} {store : Store} {allowed : Genesis → Prop} {disk : Disk} {height : Int64} {depth : Nat}
  {s s' : Site σ} {Q : State → Prop}

structure Everywhere (Q : State → Prop) (s : Site σ) : Prop where
  running : ∀ app ∈ s.app, Q app.commitState
  renamed : ∀ t ∈ s.renamed, Q t

theorem Everywhere.next (hQ : ∀ s t, Q s → t.staking = s.staking → Q t) (h : s.Everywhere Q)
    {app : Application σ} (hs : s.app = some app) : Q (Application.nextState app.commitState) :=
  hQ _ _ (h.running app hs) rfl

theorem Everywhere.rename (h : s.Everywhere Q) {next : State} (hn : Q next) (failure : Option StateError) :
    ∀ t ∈ s.rename next failure, Q t := by
  intro t ht
  cases failure with
  | none =>
    rw [rename_none] at ht
    rcases List.mem_cons.mp ht with rfl | ht
    · exact hn
    · exact h.renamed t ht
  | some e =>
    rw [rename_some] at ht
    exact h.renamed t ht

theorem Everywhere.step (hQ : ∀ s t, Q s → t.staking = s.staking → Q t)
    (hload : ∀ g t, allowed g → store.load s.disk .commit g = .ok t → Q t) (h : s.Everywhere Q)
    (hstep : Step store allowed s s') : s'.Everywhere Q := by
  cases hstep with
  | @call app app' disk ε call other read env answer running answered =>
    have hstaking : app'.commitState.staking = app.commitState.staking :=
      (Callback.perform_run other answered).2.staking
    refine ⟨?_, h.renamed⟩
    rintro _ ⟨⟩
    exact hQ _ _ (h.running app running) hstaking
  | @work app staking running =>
    refine ⟨?_, h.renamed⟩
    rintro _ ⟨⟩
    exact h.running app running
  | @commit app disk failure running saves =>
    have hnext := h.next hQ running
    refine ⟨?_, h.rename hnext failure⟩
    rintro _ ⟨⟩
    cases failure with
    | none => exact hnext
    | some e => exact h.running app running
  | @crash app disk failure running saves =>
    refine ⟨?_, h.rename (h.next hQ running) failure⟩
    rintro _ ⟨⟩
  | stop =>
    refine ⟨?_, h.renamed⟩
    rintro _ ⟨⟩
  | @start app genesis isAllowed interval staking router effects down loaded =>
    refine ⟨?_, h.renamed⟩
    rintro _ ⟨⟩
    exact hload genesis _ isAllowed (Application.new_eq_ok loaded).2

theorem Everywhere.storable (h : s.Everywhere State.Storable) (hrun : Run store Genesis.Sourced s s') :
    s'.Everywhere State.Storable := by
  induction hrun with
  | refl => exact h
  | tail _ hstep ih =>
    refine ih.step (fun s t hs ht => hs.of_staking ht) (fun g t hg hl => ?_) hstep
    exact Store.storable_of_load hg hl

/-! ### No deeper than the application states -/

def Shallow (depth : Nat) (t : State) : Prop := t.stakingNesting + 1 ≤ max 5 depth

theorem Shallow.nesting {t : State} (h : Shallow depth t) : t.nesting ≤ max 5 depth := by
  have hle := t.nesting_le
  rw [Shallow] at h
  omega

theorem shallow_fresh {g : Genesis} (hd : g.appState.value.depth ≤ depth) (phase : Phase) :
    Shallow depth (store.fresh phase g) := by
  have hle := (Store.fresh_staking store phase g).2
  rw [Shallow]
  omega

theorem Everywhere.shallow_step (hu : store.Usable disk) (hempty : disk.holds (store.path .commit) = false)
    (hv : s.Valid store disk height) (h : s.Everywhere (Shallow depth))
    (hstep : Step store (fun g => g.Exact ∧ g.appState.value.depth ≤ depth) s s') :
    s'.Everywhere (Shallow depth) := by
  refine h.step (fun s t hs ht => ?_) (fun g t hg hl => ?_) hstep
  · rw [Shallow, State.stakingNesting, ht]
    exact hs
  · rw [hv.load hu hg.1] at hl
    rw [last] at hl
    split at hl
    · rw [Store.load_of_absent hempty] at hl
      cases hl
      exact shallow_fresh hg.2 .commit
    · next next rest hrenamed =>
      cases hl
      exact h.renamed t (hrenamed ▸ List.mem_cons_self)

theorem Everywhere.shallow (hu : store.Usable disk) (hempty : disk.holds (store.path .commit) = false)
    (hv : s.Valid store disk height) (h : s.Everywhere (Shallow depth))
    (hrun : Run store (fun g => g.Exact ∧ g.appState.value.depth ≤ depth) s s') :
    s'.Everywhere (Shallow depth) := by
  induction hrun with
  | refl => exact h
  | tail hsteps hstep ih =>
    have hreached := hv.run hu (Run.mono (fun _ hg => hg.1) hsteps)
    exact ih.shallow_step hu hempty hreached hstep

theorem everywhere_start {app : Application σ} (h : Q app.commitState) :
    Everywhere Q (⟨disk, some app, []⟩ : Site σ) := by
  refine ⟨?_, ?_⟩
  · rintro _ ⟨⟩
    exact h
  · rintro _ ⟨⟩

/-- A node can load what it saved. The snapshot of a storable state gives that state back, and so does the
snapshot of a state that was itself read, from whatever text. The states that views start with are storable,
and so are, at any point of any run, the state of the commit and all states that were renamed into place. On
a disk that held no snapshot none of them ever nests deeper than the application states do. -/
theorem reload_snapshots (σ : Type) (store : Store) :
    (∀ s : State, s.Storable → s.isExact = true →
      State.codec.ofBytes (Bytes.ofString (State.codec.pretty s)) = .ok { s with path := none } ∧
        ∀ (disk : Disk) (phase : Phase) (g : Genesis),
          disk.read (store.path phase) = .ok (Bytes.ofString (State.codec.pretty s)) →
            store.load disk phase g = .ok { s with path := some (store.path phase) }) ∧
    (∀ (content : Bytes) (s : State), State.codec.ofBytes content = .ok s → s.isExact = true →
      State.codec.ofBytes (Bytes.ofString (State.codec.pretty s)) = .ok s) ∧
    (∀ (phase : Phase) (g : Genesis), g.Sourced →
      (store.fresh phase g).Storable ∧ (store.fresh phase g).nesting ≤ max 5 g.appState.value.depth) ∧
    (∀ (disk : Disk) (app : Application σ) (s : Site σ), app.genesis.Sourced →
      store.load disk .commit app.genesis = .ok app.commitState →
        Run store Genesis.Sourced ⟨disk, some app, []⟩ s → s.Everywhere State.Storable) ∧
    ∀ (disk : Disk) (app : Application σ) (s : Site σ) (depth : Nat), store.Usable disk →
      (∀ phase, disk.holds (store.path phase) = false) → app.genesis.Exact →
        app.genesis.appState.value.depth ≤ depth → store.load disk .commit app.genesis = .ok app.commitState →
          Run store (fun g => g.Exact ∧ g.appState.value.depth ≤ depth) ⟨disk, some app, []⟩ s →
            s.Everywhere fun t => t.nesting ≤ max 5 depth := by
  refine ⟨?_, ?_, ?_, ?_, ?_⟩
  · intro s hstorable hexact
    have hback := hstorable.ofBytes_pretty hexact
    exact ⟨hback, fun disk phase g hread => Store.load_of_read hread hback g⟩
  · intro content s hread hexact
    exact State.ofBytes_pretty_of_ofBytes hread hexact
  · intro phase g hg
    exact ⟨Store.storable_fresh hg, Store.nesting_fresh store phase g⟩
  · intro disk app s hg hload hrun
    have hstart : Everywhere State.Storable ⟨disk, some app, []⟩ :=
      everywhere_start (Store.storable_of_load hg hload)
    exact hstart.storable hrun
  · intro disk app s depth hu hempty hg hd hload hrun
    have hfresh : app.commitState = store.fresh .commit app.genesis := by
      rw [Store.load_of_absent (hempty .commit)] at hload
      exact (Except.ok.inj hload).symm
    have hvalid := valid_start hu (fun phase _ => hempty phase) hg hload (hfresh ▸ (sound_fresh hg).exact)
    have hstart : Everywhere (Shallow depth) ⟨disk, some app, []⟩ :=
      everywhere_start (hfresh ▸ shallow_fresh hd .commit)
    have hreached := hstart.shallow hu (hempty .commit) hvalid hrun
    exact ⟨fun now hnow => (hreached.running now hnow).nesting, fun t ht => (hreached.renamed t ht).nesting⟩

/-- A snapshot without root, staking section and stake is read, and so is what becomes of it. -/
theorem reload_sparse_snapshot :
    let store : Store := ⟨⟨"data"⟩⟩
    let disk : Disk := { entries := [(["data"], .directory)] }
    let contract : Opaque := ⟨.record [("abi", .list [.null]), ("name", .text "Staking")], by decide⟩
    let params : Staking.Params := ⟨some contract, some ⟨some ⟨some "0x01", [contract]⟩⟩⟩
    let full : State := ⟨none, "commit", 7, [1, 2, 3], some params, [⟨some "first", "AB", [0], -5⟩]⟩
    let sparse : State := ⟨none, "commit", 7, [], none, [⟨none, "AB", [0], 0⟩]⟩
    let content := Bytes.ofString ("\x7b\"name\":\"commit\",\"height\":7,\"validators\":" ++
      "[\x7b\"address\":\"AB\",\"public_key\":\"AA==\",\"stake\":null\x7d]\x7d")
    let g : Genesis := ⟨"", "", 1, none, [], "", .null⟩
    let app : Application Unit := ⟨g, 0, store.fresh .check g, store.fresh .deliver g, store.fresh .commit g,
      .disabled .empty, [], fun state _ => (state, none), none⟩
    State.codec.ofBytes (Bytes.ofString (State.codec.pretty full)) = .ok full ∧
      State.codec.ofBytes content = .ok sparse ∧
      State.codec.ofBytes (Bytes.ofString (State.codec.pretty sparse)) = .ok sparse ∧
      (store.fresh .commit g).nesting ≤ 5 ∧
      Everywhere State.Storable (⟨disk, some app, []⟩ : Site Unit) ∧
      Everywhere (fun t => t.nesting ≤ 5) (⟨disk, some app, []⟩ : Site Unit) := by
  intro store disk contract params full sparse content g app
  obtain ⟨hstates, htexts, hfresh, hruns, hdepths⟩ := reload_snapshots Unit store
  have hcontract : full.ContractNotNull := by
    rintro _ ⟨⟩
    decide
  have hfull : full.Storable := ⟨hcontract, by decide +kernel⟩
  have hcontent : State.codec.ofBytes content = .ok sparse := by decide +kernel
  have hread : Genesis.codec.ofBytes (Bytes.ofString "\x7b\x7d") = .ok g := by decide +kernel
  have hempty : ∀ phase, disk.holds (store.path phase) = false := by
    intro phase
    cases phase <;> decide +kernel
  have hload : store.load disk .commit app.genesis = .ok app.commitState :=
    Store.load_of_absent (hempty .commit) g
  have hu : store.Usable disk := .inl (by decide +kernel)
  exact ⟨(hstates full hfull (by decide)).1, hcontent, htexts content sparse hcontent rfl,
    (hfresh .commit g (.document hread)).2, hruns disk app _ (.document hread) hload .refl,
    hdepths disk app _ 0 hu hempty ⟨.document hread, rfl⟩ (Nat.le_refl 0) hload .refl⟩

end Site

end StakeLedger
