import Mathlib.Data.List.Forall2
import Mathlib.Data.Nat.Init
import StakeLedger.Application.Basic
import StakeLedger.Proofs.Query.Routes
import StakeLedger.Proofs.Session

/-!
Entropy over the ends of many blocks: which of them call the contract, what they exchange with it, and what is kept.
Main statement: `Application.entropy_of_run`.
-/

namespace StakeLedger

open Platform Query

namespace Platform

structure Exchange where
  call : Call
  answer : Option (Except Error call.Answer)

def Service.witnessed {σ : Type} (service : Service σ) : Service (σ × List Exchange) where
  call c := fun (s, log) => ((service.call c s).1, (service.call c s).2, log ++ [⟨c, (service.call c s).1⟩])

def Service.Finishes {σ : Type} (service : Service σ) (address : String) : Prop :=
  ∀ method s, (service.call (.execute address method []) s).1 ≠ none

end Platform

namespace Entropy

inductive Fetch
  | failed (height : Int64) (e : Platform.Error)
  | succeeded (height : Int64) (value : Bytes) (advance : Except Platform.Error Bytes)

namespace Fetch

def height : Fetch → Int64
  | failed height _ | succeeded height _ _ => height

def exchanges (address : String) : Fetch → List Exchange
  | failed _ e => [⟨.execute address readMethod [], some (.error e)⟩]
  | succeeded _ value advance =>
    [⟨.execute address readMethod [], some (.ok value)⟩, ⟨.execute address advanceMethod [], some advance⟩]

def read : Fetch → Except Platform.Error Bytes
  | failed _ e => .error e
  | succeeded _ value _ => .ok value

def kept : Fetch → Option (Int64 × Bytes)
  | failed _ _ => none
  | succeeded height value _ => if value.isEmpty then none else some (height, value)

end Fetch

variable {σ : Type}

inductive Meets (service : Service σ) (address : String) (s : σ) : Fetch → σ → Prop
  | failed {height : Int64} {e : Platform.Error} {s' : σ}
      (read : service.call (.execute address readMethod []) s = (some (.error e), s')) :
      Meets service address s (.failed height e) s'
  | succeeded {height : Int64} {value : Bytes} {advanced : Except Platform.Error Bytes} {s' s'' : σ}
      (read : service.call (.execute address readMethod []) s = (some (.ok value), s'))
      (advance : service.call (.execute address advanceMethod []) s' = (some advanced, s'')) :
      Meets service address s (.succeeded height value advanced) s''

def IsFetch (interval : UInt64) (height : Int64) : Prop :=
  0 < height.toInt ∧ 0 < interval.toNat ∧ (interval.toNat : Int) ∣ height.toInt

instance (interval : UInt64) (height : Int64) : Decidable (IsFetch interval height) :=
  inferInstanceAs (Decidable (_ ∧ _))

theorem isFetchHeight_iff {interval : UInt64} {height : Int64} :
    isFetchHeight height interval = true ↔ IsFetch interval height := by
  have hinterval : interval ≠ 0 ↔ 0 < interval.toNat := by
    rw [Nat.pos_iff_ne_zero, not_iff_not, ← UInt64.toNat_inj]
    rfl
  rw [isFetchHeight, IsFetch, Bool.and_eq_true, Bool.and_eq_true, decide_eq_true_eq, decide_eq_true_eq, beq_iff_eq,
    hinterval, ← Nat.dvd_iff_mod_eq_zero, and_comm (a := 0 < interval.toNat), and_assoc]
  refine and_congr_right fun hpos => and_congr_right fun _ => ?_
  rw [← Int.natCast_dvd_natCast, Int.toNat_of_nonneg (Int.le_of_lt hpos)]

end Entropy

variable {σ : Type} {service : Service σ} {address : String} {s s' : σ} {log : List Exchange}

theorem Platform.Service.run_ask {c : Call} {answer : Option (Except Error c.Answer)}
    (h : service.call c s = (answer, s')) :
    (service.witnessed.ask c).run.run (s, log) = (answer, (s', log ++ [⟨c, answer⟩])) := by
  change ((service.call c s).1, (service.call c s).2, log ++ [⟨c, (service.call c s).1⟩]) = _
  rw [h]

namespace Query

variable {argument : String} {request : Engine.QueryRequest}

def answerOf (request : Engine.QueryRequest) : Entropy.Fetch → Except Error Engine.QueryResponse
  | .failed _ e => .error (.entropyUnavailable e.message)
  | .succeeded _ value _ => .ok ⟨0, "", value, request.height⟩

theorem run_entropyFetch {fetch : Entropy.Fetch} (h : Entropy.Meets service address s fetch s') :
    (entropyFetch (some ⟨service.witnessed, address⟩) argument request).run.run (s, log) =
      (some (answerOf request fetch), (s', log ++ fetch.exchanges address)) := by
  cases h with
  | failed hread =>
    rw [entropyFetch, Session.run_bind, Service.run_ask hread]
    rfl
  | succeeded hread hadvance =>
    rw [entropyFetch, Session.run_bind, Service.run_ask hread]
    dsimp only
    have hdiscard : discard (service.witnessed.ask (.execute address advanceMethod [])) =
        service.witnessed.ask (.execute address advanceMethod []) >>= fun _ => pure ⟨⟩ := rfl
    rw [hdiscard, Session.run_bind, Session.run_bind, Service.run_ask hadvance, List.append_assoc]
    rfl

end Query

namespace Entropy

inductive MeetsAll (service : Service σ) (address : String) (interval : UInt64) :
    σ → List Int64 → List Fetch → σ → Prop
  | done {s : σ} : MeetsAll service address interval s [] [] s
  | rest {height : Int64} {s s' : σ} {heights : List Int64} {fetches : List Fetch} (no : ¬ IsFetch interval height)
      (later : MeetsAll service address interval s heights fetches s') :
      MeetsAll service address interval s (height :: heights) fetches s'
  | fetch {height : Int64} {fetch : Fetch} {s s' s'' : σ} {heights : List Int64} {fetches : List Fetch}
      (yes : IsFetch interval height) (at_ : fetch.height = height) (meets : Meets service address s fetch s')
      (later : MeetsAll service address interval s' heights fetches s'') :
      MeetsAll service address interval s (height :: heights) (fetch :: fetches) s''

variable {interval : UInt64} {height : Int64} {heights : List Int64} {fetches : List Fetch}

theorem exists_meets (hfinish : service.Finishes address) (height : Int64) (s : σ) :
    ∃ fetch s', fetch.height = height ∧ Meets service address s fetch s' := by
  rcases hread : service.call (.execute address readMethod []) s with ⟨_ | e | value, s'⟩
  · exact absurd (congrArg Prod.fst hread) (hfinish _ s)
  · exact ⟨.failed height e, s', rfl, .failed hread⟩
  · rcases hadvance : service.call (.execute address advanceMethod []) s' with ⟨_ | advanced, s''⟩
    · exact absurd (congrArg Prod.fst hadvance) (hfinish _ s')
    · exact ⟨.succeeded height value advanced, s'', rfl, .succeeded hread hadvance⟩

theorem exists_meetsAll (hfinish : service.Finishes address) (heights : List Int64) (s : σ) :
    ∃ fetches s', MeetsAll service address interval s heights fetches s' := by
  induction heights generalizing s with
  | nil => exact ⟨[], s, .done⟩
  | cons height heights ih =>
    by_cases h : IsFetch interval height
    · obtain ⟨fetch, s', hheight, hmeets⟩ := exists_meets hfinish height s
      obtain ⟨fetches, s'', hlater⟩ := ih s'
      exact ⟨fetch :: fetches, s'', .fetch h hheight hmeets hlater⟩
    · obtain ⟨fetches, s', hlater⟩ := ih s
      exact ⟨fetches, s', .rest h hlater⟩

theorem read_ne_advance : Call.execute address readMethod [] ≠ .execute address advanceMethod [] := by
  intro h
  injection h with _ hmethod _
  exact absurd hmethod (by decide)

theorem Fetch.count_read (fetch : Fetch) :
    ((fetch.exchanges address).map Exchange.call).count (.execute address readMethod []) = 1 := by
  cases fetch with
  | failed height e => exact List.count_cons_self
  | succeeded height value advance =>
    rw [exchanges, List.map_cons, List.map_cons, List.map_nil, List.count_cons_self,
      List.count_cons_of_ne (Ne.symm read_ne_advance)]
    rfl

theorem count_reads (fetches : List Fetch) :
    ((fetches.flatMap (·.exchanges address)).map Exchange.call).count (.execute address readMethod []) =
      fetches.length := by
  induction fetches with
  | nil => rfl
  | cons fetch fetches ih =>
    rw [List.flatMap_cons, List.map_append, List.count_append, fetch.count_read, ih, List.length_cons, Nat.add_comm]

theorem MeetsAll.heights_eq (h : MeetsAll service address interval s heights fetches s') :
    fetches.map Fetch.height = heights.filter (IsFetch interval ·) := by
  induction h with
  | done => rfl
  | rest no _ ih => rw [ih, List.filter_cons_of_neg (by simpa using no)]
  | fetch yes hheight _ _ ih => rw [List.map_cons, hheight, ih, List.filter_cons_of_pos (by simpa using yes)]

/-! ### Another service -/

structure AgreesOnReads (address : String) (service service' : Service σ) : Prop where
  state : ∀ c s, (service'.call c s).2 = (service.call c s).2
  answer : ∀ c s, c ≠ .execute address advanceMethod [] → (service'.call c s).1 = (service.call c s).1

structure Fetch.Alike (fetch fetch' : Fetch) : Prop where
  height : fetch.height = fetch'.height
  read : fetch.read = fetch'.read

theorem Fetch.Alike.kept {fetch fetch' : Fetch} (h : fetch.Alike fetch') : fetch.kept = fetch'.kept := by
  obtain ⟨hheight, hread⟩ := h
  cases fetch <;> cases fetch' <;> cases hheight <;> cases hread <;> rfl

theorem Fetch.Alike.calls {fetch fetch' : Fetch} (h : fetch.Alike fetch') :
    (fetch.exchanges address).map Exchange.call = (fetch'.exchanges address).map Exchange.call := by
  have hread := h.read
  cases fetch <;> cases fetch' <;> cases hread <;> rfl

theorem kept_of_alike {fetches fetches' : List Fetch} (h : fetches.Forall₂ Fetch.Alike fetches') :
    fetches.filterMap Fetch.kept = fetches'.filterMap Fetch.kept := by
  induction h with
  | nil => rfl
  | cons hfirst _ ih => rw [List.filterMap_cons, List.filterMap_cons, hfirst.kept, ih]

theorem calls_of_alike {fetches fetches' : List Fetch} (h : fetches.Forall₂ Fetch.Alike fetches') :
    (fetches.flatMap (·.exchanges address)).map Exchange.call =
      (fetches'.flatMap (·.exchanges address)).map Exchange.call := by
  induction h with
  | nil => rfl
  | cons hfirst _ ih => rw [List.flatMap_cons, List.flatMap_cons, List.map_append, List.map_append, hfirst.calls, ih]

variable {service' : Service σ} {fetch fetch' : Fetch} {fetches' : List Fetch} {t t' : σ}

theorem Meets.alike (hagrees : AgreesOnReads address service service') (h : Meets service address s fetch s')
    (h' : Meets service' address s fetch' t') (hheight : fetch.height = fetch'.height) : fetch.Alike fetch' ∧ s' = t' := by
  have hread : service'.call (.execute address readMethod []) s = service.call (.execute address readMethod []) s :=
    Prod.ext (hagrees.answer _ s read_ne_advance) (hagrees.state _ s)
  cases h with
  | failed hfirst =>
    rw [hfirst] at hread
    cases h' with
    | failed hsecond =>
      cases hread.symm.trans hsecond
      exact ⟨⟨hheight, rfl⟩, rfl⟩
    | succeeded hsecond _ => cases hread.symm.trans hsecond
  | succeeded hfirst hadvance =>
    rw [hfirst] at hread
    cases h' with
    | failed hsecond => cases hread.symm.trans hsecond
    | succeeded hsecond hadvance' =>
      cases hread.symm.trans hsecond
      have hlast := congrArg Prod.snd hadvance'
      rw [hagrees.state, hadvance] at hlast
      exact ⟨⟨hheight, rfl⟩, hlast⟩

theorem MeetsAll.alike (hagrees : AgreesOnReads address service service')
    (h : MeetsAll service address interval s heights fetches s')
    (h' : MeetsAll service' address interval s heights fetches' t') : fetches.Forall₂ Fetch.Alike fetches' ∧ s' = t' := by
  induction h generalizing fetches' with
  | done =>
    cases h'
    exact ⟨.nil, rfl⟩
  | rest no _ ih =>
    cases h' with
    | rest _ later => exact ih later
    | fetch yes _ _ _ => exact absurd yes no
  | fetch yes hheight hmeets _ ih =>
    cases h' with
    | rest no _ => exact absurd yes no
    | fetch _ hheight' hmeets' later =>
      obtain ⟨halike, rfl⟩ := hmeets.alike hagrees hmeets' (hheight.trans hheight'.symm)
      obtain ⟨hrest, rfl⟩ := ih later
      exact ⟨.cons halike hrest, rfl⟩

/-! ### How many fetches there are -/

def heightsTo (n : Nat) : List Int64 := (List.range n).map fun i => .ofNat (i + 1)

theorem isFetch_ofNat {i : Nat} (hi : i + 1 < 0x8000000000000000) (hinterval : 0 < interval.toNat) :
    IsFetch interval (.ofNat (i + 1)) ↔ interval.toNat ∣ i + 1 := by
  rw [IsFetch, Int64.toInt_ofNat_of_lt hi, Int.natCast_dvd_natCast]
  exact ⟨fun h => h.2.2, fun h => ⟨by omega, hinterval, h⟩⟩

theorem length_filter_heightsTo {n : Nat} (hn : n < 0x8000000000000000) :
    ((heightsTo n).filter (IsFetch interval ·)).length = n / interval.toNat := by
  rcases Nat.eq_zero_or_pos interval.toNat with hzero | hpos
  · have hnever : ∀ height ∈ heightsTo n, ¬ (decide (IsFetch interval height) = true) := by
      intro height _ h
      have hinterval := (of_decide_eq_true h).2.1
      omega
    rw [List.filter_eq_nil_iff.mpr hnever, hzero, Nat.div_zero]
    rfl
  · induction n with
    | zero => rw [Nat.zero_div]; rfl
    | succ n ih =>
      have hlast : heightsTo (n + 1) = heightsTo n ++ [.ofNat (n + 1)] := by
        rw [heightsTo, List.range_succ, List.map_append]
        rfl
      rw [hlast, List.filter_append, List.length_append, ih (Nat.lt_of_succ_lt hn), Nat.succ_div, List.filter_singleton]
      by_cases h : interval.toNat ∣ n + 1
      · rw [decide_eq_true ((isFetch_ofNat hn hpos).mpr h), if_pos h]
        rfl
      · rw [decide_eq_false (mt (isFetch_ofNat hn hpos).mp h), if_neg h]
        rfl

end Entropy

namespace Application

variable {probe : Probe (σ × List Exchange)} {app : Application (σ × List Exchange)} {interval : UInt64}

def endBlocks {τ : Type} (app : Application τ) (heights : List Int64) : StateM τ (Application τ) :=
  heights.foldlM (fun app height => do return (← app.endBlock ⟨height⟩).2) app

theorem fetchEntropy_meets (hrouter : Router.withDefaults probe (some ⟨service.witnessed, address⟩) = .ok app.router)
    {fetch : Entropy.Fetch} (h : Entropy.Meets service address s fetch s') :
    (app.fetchEntropy fetch.height).run (s, log) =
      ({ app with entropy := fetch.kept.or app.entropy }, (s', log ++ fetch.exchanges address)) := by
  rw [fetchEntropy, Router.route_fetch hrouter, StateT.run_bind, run_entropyFetch h]
  rcases fetch with ⟨height, e⟩ | ⟨height, _ | ⟨byte, value⟩, advanced⟩ <;> rfl

theorem endBlock_meets (hrouter : Router.withDefaults probe (some ⟨service.witnessed, address⟩) = .ok app.router)
    {fetch : Entropy.Fetch} (hfetch : Entropy.IsFetch app.entropyInterval fetch.height)
    (h : Entropy.Meets service address s fetch s') :
    (app.endBlock ⟨fetch.height⟩).run (s, log) =
      ({ app with entropy := fetch.kept.or app.entropy }.settleBlock, (s', log ++ fetch.exchanges address)) := by
  rw [endBlock, if_pos (Entropy.isFetchHeight_iff.mpr hfetch), StateT.run_bind, fetchEntropy_meets hrouter h]
  rfl

theorem endBlock_of_not {τ : Type} {app : Application τ} {height : Int64} (t : τ)
    (hfetch : ¬ Entropy.IsFetch app.entropyInterval height) :
    (app.endBlock ⟨height⟩).run t = (app.settleBlock, t) := by
  rw [endBlock, if_neg fun h => hfetch (Entropy.isFetchHeight_iff.mp h)]
  rfl

theorem endBlocks_cons {τ : Type} (app : Application τ) (height : Int64) (heights : List Int64) (t : τ) :
    (app.endBlocks (height :: heights)).run t =
      (((app.endBlock ⟨height⟩).run t).1.2.endBlocks heights).run ((app.endBlock ⟨height⟩).run t).2 := rfl

theorem getLast?_filterMap_cons {α β : Type} {f : α → Option β} {a : α} {as : List α} {y : Option β} :
    ((a :: as).filterMap f).getLast?.or y = (as.filterMap f).getLast?.or ((f a).or y) := by
  cases hf : f a with
  | none => rw [List.filterMap_cons_none hf, Option.none_or]
  | some b =>
    rw [List.filterMap_cons_some hf, List.getLast?_cons]
    cases (as.filterMap f).getLast? <;> rfl

theorem endBlocks_meets (hrouter : Router.withDefaults probe (some ⟨service.witnessed, address⟩) = .ok app.router)
    {heights : List Int64} {fetches : List Entropy.Fetch}
    (h : Entropy.MeetsAll service address app.entropyInterval s heights fetches s') :
    ((app.endBlocks heights).run (s, log)).2 = (s', log ++ fetches.flatMap (·.exchanges address)) ∧
      ((app.endBlocks heights).run (s, log)).1.entropy = (fetches.filterMap (·.kept)).getLast?.or app.entropy := by
  generalize hinterval : app.entropyInterval = interval at h
  induction h generalizing app log with
  | done => exact ⟨by rw [List.flatMap_nil, List.append_nil]; rfl, rfl⟩
  | rest no _ ih =>
    rw [endBlocks_cons, endBlock_of_not _ (hinterval ▸ no)]
    exact ih hrouter hinterval
  | fetch yes hheight hmeets _ ih =>
    subst hheight
    rw [endBlocks_cons, endBlock_meets hrouter (hinterval ▸ yes) hmeets]
    obtain ⟨hcalls, hentropy⟩ := @ih _ ({ app with entropy := _ }.settleBlock).2 hrouter hinterval
    refine ⟨hcalls.trans ?_, hentropy.trans getLast?_filterMap_cons.symm⟩
    rw [List.flatMap_cons, List.append_assoc]

/-- A run with a contract service whose calls are all answered. The contract is called at the heights to fetch at and
nowhere else: read once, and asked for its next value once if the read succeeded. In the end the application has the
height and the bytes of the last read that gave any. Another outcome of the requests for a next value changes neither
that nor the calls, and of the heights up to a number as many are read at as the interval divides. -/
theorem entropy_of_run (hrouter : Router.withDefaults probe (some ⟨service.witnessed, address⟩) = .ok app.router)
    (hfinish : service.Finishes address) (heights : List Int64) (s : σ) (log : List Exchange) :
    ∃ fetches s', Entropy.MeetsAll service address app.entropyInterval s heights fetches s' ∧
      ((app.endBlocks heights).run (s, log)).2 = (s', log ++ fetches.flatMap (·.exchanges address)) ∧
      fetches.map (·.height) = heights.filter (Entropy.IsFetch app.entropyInterval ·) ∧
      ((app.endBlocks heights).run (s, log)).1.entropy = (fetches.filterMap (·.kept)).getLast?.or app.entropy ∧
      (∀ (service' : Service σ) (app' : Application (σ × List Exchange)), Entropy.AgreesOnReads address service service' →
        service'.Finishes address → app'.entropyInterval = app.entropyInterval → app'.entropy = app.entropy →
        Router.withDefaults probe (some ⟨service'.witnessed, address⟩) = .ok app'.router →
        ((app'.endBlocks heights).run (s, log)).1.entropy = ((app.endBlocks heights).run (s, log)).1.entropy ∧
          ((app'.endBlocks heights).run (s, log)).2.2.map Exchange.call =
            ((app.endBlocks heights).run (s, log)).2.2.map Exchange.call) ∧
      ∀ n, n < 0x8000000000000000 → heights = Entropy.heightsTo n →
        ((fetches.flatMap (·.exchanges address)).map Exchange.call).count (.execute address readMethod []) =
          n / app.entropyInterval.toNat := by
  obtain ⟨fetches, s', hmeets⟩ := Entropy.exists_meetsAll hfinish heights s
  obtain ⟨hcalls, hentropy⟩ := endBlocks_meets hrouter hmeets
  refine ⟨fetches, s', hmeets, hcalls, hmeets.heights_eq, hentropy, ?_, ?_⟩
  · intro service' app' hagrees hfinish' hinterval' hentropy' hrouter'
    obtain ⟨fetches', t', hmeets'⟩ : ∃ fetches' t', Entropy.MeetsAll service' address app.entropyInterval s heights
      fetches' t' := Entropy.exists_meetsAll hfinish' heights s
    obtain ⟨hcalls', hkept'⟩ := endBlocks_meets hrouter' (hinterval'.symm ▸ hmeets')
    obtain ⟨halike, rfl⟩ := hmeets.alike hagrees hmeets'
    rw [hcalls', hcalls, hkept', hentropy, hentropy', Entropy.kept_of_alike halike, List.map_append, List.map_append,
      Entropy.calls_of_alike halike]
    exact ⟨rfl, rfl⟩
  · rintro n hn rfl
    rw [Entropy.count_reads, ← List.length_map (·.height), hmeets.heights_eq, Entropy.length_filter_heightsTo hn]

/-- Two reads in four blocks, of which the second fails, as the request after the first did. -/
theorem entropy_past_failure :
    let failure : Platform.Error := .status 500 "down"
    let service : Service Nat := ⟨fun
      | .execute _ method _, n =>
        if method = readMethod then (some (if n = 0 then .ok [7] else .error failure), n + 1)
        else (some (.error failure), n)
      | _, n => (some (.error failure), n)⟩
    let router : Router (Nat × List Exchange) :=
      [⟨beginningWith "/p2p/filter/addr/".toList, peerFilter fun _ => pure true⟩,
        ⟨beginningWith "/baseline/entropy/fetch/".toList, entropyFetch (some ⟨service.witnessed, "c"⟩)⟩]
    let app : Application (Nat × List Exchange) :=
      ⟨default, 2, .empty .check, .empty .deliver, .empty .commit, .disabled .empty, router, .none, none⟩
    let ended := (app.endBlocks [1, 2, 3, 4]).run (0, [])
    ended.1.entropy = some (2, [7]) ∧
      (ended.2.2.map Exchange.call).count (.execute "c" readMethod []) = 2 := by
  intro failure service router app ended
  have hrouter : Router.withDefaults (fun _ => pure true) (some ⟨service.witnessed, "c"⟩) = .ok app.router :=
    Router.withDefaults_eq _ _
  have hfinish : service.Finishes "c" := by
    intro method n
    change (if method = readMethod then _ else _ : Option (Except Platform.Error Bytes) × Nat).1 ≠ none
    split <;> exact nofun
  obtain ⟨fetches, s', -, hcalls, -, -, -, hcount⟩ := entropy_of_run hrouter hfinish [1, 2, 3, 4] 0 []
  refine ⟨by decide +kernel, ?_⟩
  rw [hcalls]
  exact (hcount 4 (by decide) (by decide)).trans (by decide)

end Application

end StakeLedger
