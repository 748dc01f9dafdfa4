import StakeLedger.Proofs.Json.Opaque
import StakeLedger.Proofs.Outcome
import StakeLedger.Proofs.Session
import StakeLedger.Proofs.Staking.Target
import StakeLedger.Staking.Bootstrap

/-!
How a node comes to its pipeline. What it asks of the platform on the way is kept beside the state of the platform, so
that the calls, their order and their answers can be read off a start. A session and the same session over a platform
that keeps the calls go together (`Source.Traces`), which `bind` preserves. Main statement: `start_conducted`.
-/

namespace StakeLedger.Staking

open Platform

variable {σ α β : Type}

inductive Step
  | called (c : Call) (answer : Option (Except Platform.Error c.Answer))
  | subscribed (subject : String) (bearer : Option String) (answer : Option (Except Platform.Error Flow))

namespace Source

def witnessed (source : Source σ) : Source (σ × List Step) where
  service := ⟨fun c (s, log) =>
    ((source.service.call c s).1, (source.service.call c s).2, log ++ [.called c (source.service.call c s).1])⟩
  subscribe subject bearer := OptionT.mk fun (s, log) =>
    let (answer, s) := (source.subscribe subject bearer).run.run s
    (answer, s, log ++ [.subscribed subject bearer answer])

inductive Replays (source : Source σ) : σ → List Step → σ → Prop
  | done {s : σ} : Replays source s [] s
  | called {c : Call} {answer : Option (Except Platform.Error c.Answer)} {s s' s'' : σ} {log : List Step}
      (now : source.service.call c s = (answer, s')) (later : Replays source s' log s'') :
      Replays source s (.called c answer :: log) s''
  | subscribed {subject : String} {bearer : Option String} {answer : Option (Except Platform.Error Flow)} {s s' s'' : σ}
      {log : List Step} (now : (source.subscribe subject bearer).run.run s = (answer, s'))
      (later : Replays source s' log s'') : Replays source s (.subscribed subject bearer answer :: log) s''

variable {source : Source σ} {s s' s'' : σ} {log log' : List Step}

theorem Replays.append (h : source.Replays s log s') (h' : source.Replays s' log' s'') :
    source.Replays s (log ++ log') s'' := by
  induction h with
  | done => exact h'
  | called now _ ih => exact .called now (ih h')
  | subscribed now _ ih => exact .subscribed now (ih h')

def Traces (source : Source σ) (m : Session σ α) (m' : Session (σ × List Step) α)
    (P : List Step → Option α → Prop) : Prop :=
  ∀ s before, ∃ log, P log (m.run.run s).1 ∧ source.Replays s log (m.run.run s).2 ∧
    m'.run.run (s, before) = ((m.run.run s).1, (m.run.run s).2, before ++ log)

variable {m : Session σ α} {m' : Session (σ × List Step) α} {f : α → Session σ β} {f' : α → Session (σ × List Step) β}
  {P : List Step → Option α → Prop} {Q : List Step → Option β → Prop}

theorem traces_pure {x : α} (h : P [] (some x)) : source.Traces (pure x) (pure x) P := by
  intro s before
  refine ⟨[], h, .done, ?_⟩
  rw [List.append_nil]
  rfl

theorem Traces.bind (hm : source.Traces m m' P) (hnone : ∀ log, P log none → Q log none)
    (hf : ∀ x log, P log (some x) → source.Traces (f x) (f' x) fun more y => Q (log ++ more) y) :
    source.Traces (m >>= f) (m' >>= f') Q := by
  intro s before
  obtain ⟨log, hp, hreplays, hrun⟩ := hm s before
  rw [Session.run_bind, Session.run_bind, hrun]
  generalize m.run.run s = answered at hp hreplays ⊢
  obtain ⟨_ | x, s'⟩ := answered
  · exact ⟨log, hnone log hp, hreplays, rfl⟩
  · obtain ⟨more, hq, hlater, hthen⟩ := hf x log hp s' (before ++ log)
    refine ⟨log ++ more, hq, hreplays.append hlater, ?_⟩
    rw [← List.append_assoc]
    exact hthen

theorem traces_ask (c : Call) : source.Traces (source.service.ask c) (source.witnessed.service.ask c)
    fun log answer => log = [.called c answer] := by
  intro s before
  exact ⟨_, rfl, .called rfl .done, rfl⟩

theorem traces_subscribe (subject : String) (bearer : Option String) :
    source.Traces (source.subscribe subject bearer) (source.witnessed.subscribe subject bearer)
      fun log answer => log = [.subscribed subject bearer answer] := by
  intro s before
  exact ⟨_, rfl, .subscribed rfl .done, rfl⟩

end Source

/-! ### The contract -/

variable {source : Source σ} {target : Target} {settings : Settings} {genesis : Option Params} {params : Params}
  {artifact : Opaque}

def Unknown (found : Except Platform.Error (Option Contract)) : Prop := ∀ contract, found ≠ .ok (some contract)

def Carries (genesis : Option Params) (params : Params) (artifact : Opaque) : Prop :=
  genesis = some params ∧ params.contract = some artifact

structure Registers (target : Target) (params : Params) (artifact : Opaque) (new : NewContract) : Prop where
  address : new.address = target.address
  networkId : new.networkId = target.networkId
  name : new.name = match artifact.value.get? "name" with
    | some (.text name) => name
    | _ => "Staking"
  params : new.params.value = .record [
    ("argv", .list (((params.networks.bind Networks.ropsten).elim [] Deployment.argv).map Opaque.value)),
    ("compiled_artifact", artifact.value)]

inductive Obtains (target : Target) (genesis : Option Params) : List Step → Option (Except BootError Contract) → Prop
  | unanswered : Obtains target genesis [.called (.find target.address) none] none
  | known {contract : Contract} :
      Obtains target genesis [.called (.find target.address) (some (.ok (some contract)))] (some (.ok contract))
  | missing {found : Except Platform.Error (Option Contract)} (unknown : Unknown found)
      (lacking : ∀ params artifact, ¬ Carries genesis params artifact) :
      Obtains target genesis [.called (.find target.address) (some found)]
        (some (.error (.missingArtifact target.address)))
  | registered {found : Except Platform.Error (Option Contract)} {params : Params} {artifact : Opaque}
      {new : NewContract} {made : Option (Except Platform.Error Contract)} (unknown : Unknown found)
      (carried : Carries genesis params artifact) (registers : Registers target params artifact new) :
      Obtains target genesis [.called (.find target.address) (some found), .called (.create new) made]
        (made.map (·.mapError .platform))

theorem network_of_resolve (h : Target.resolve settings genesis = .ok (some target)) : target.network = ropsten :=
  (Target.resolve_eq_some.mp h).network

theorem itemsCanonical_map (xs : List Opaque) : Json.itemsCanonical (xs.map Opaque.value) = true := by
  induction xs with
  | nil => rfl
  | cons x xs ih => rw [List.map_cons, Json.itemsCanonical, x.canonical, ih]; rfl

theorem params_registration (htarget : target.network = ropsten) :
    (registration target params artifact).params = .ofJson (.record [
      ("argv", .list (((params.networks.bind Networks.ropsten).elim [] Deployment.argv).map Opaque.value)),
      ("compiled_artifact", artifact.value)]) := by
  rw [registration, htarget]
  obtain ⟨contract, networks⟩ := params
  rcases networks with _ | ⟨_ | d⟩ <;> rfl

theorem registers_registration (htarget : target.network = ropsten) (h : params.contract = some artifact) :
    Registers target params artifact (registration target params artifact) := by
  refine ⟨rfl, rfl, ?_, ?_⟩
  · rw [registration, Params.contractName, h]
    change (Option.bind (artifact.value.get? "name") Json.text?).getD "Staking" = _
    rcases artifact.value.get? "name" with _ | value
    · rfl
    · cases value <;> rfl
  · have hkeys : "argv" < "compiled_artifact" := by decide
    rw [params_registration htarget]
    apply Opaque.value_ofJson
    simp only [Json.isCanonical, Json.ascending, Json.membersCanonical, itemsCanonical_map, artifact.canonical, hkeys,
      decide_true, Bool.and_self]

def register (service : Service σ) (target : Target) (genesis : Option Params) :
    Session σ (Except BootError Contract) :=
  match genesis with
  | none => return .error (.missingArtifact target.address)
  | some params =>
    match params.contract with
    | none => return .error (.missingArtifact target.address)
    | some artifact => do
      match ← service.ask (.create (registration target params artifact)) with
      | .ok contract => return .ok contract
      | .error e => return .error (.platform e)

-- What is done without a contract stands in two branches of the match; here it has a name.
theorem requireContract_eq (service : Service σ) (target : Target) (genesis : Option Params) :
    requireContract service target genesis = (do
      match ← service.ask (.find target.address) with
      | .ok (some contract) => return .ok contract
      | _ => register service target genesis) := rfl

variable {found : Except Platform.Error (Option Contract)}

theorem register_traces (htarget : target.network = ropsten) (hunknown : Unknown found) :
    source.Traces (register source.service target genesis) (register source.witnessed.service target genesis)
      fun log contract => Obtains target genesis (.called (.find target.address) (some found) :: log) contract := by
  cases genesis with
  | none => exact Source.traces_pure (.missing hunknown nofun)
  | some params =>
    rw [register, register]
    cases hartifact : params.contract with
    | none =>
      have hlacking : ∀ params' artifact, ¬ Carries (some params) params' artifact := by
        rintro params' artifact ⟨hparams, hcontract⟩
        rw [← Option.some.inj hparams, hartifact] at hcontract
        cases hcontract
      exact Source.traces_pure (.missing hunknown hlacking)
    | some artifact =>
      have hregistered (made : Option (Except Platform.Error Contract)) : Obtains target (some params)
          [.called (.find target.address) (some found), .called (.create (registration target params artifact)) made]
          (made.map (·.mapError .platform)) :=
        .registered hunknown ⟨rfl, hartifact⟩ (registers_registration htarget hartifact)
      apply (Source.traces_ask _).bind
      · rintro log rfl
        exact hregistered none
      · rintro (e | contract) log rfl
        · exact Source.traces_pure (hregistered (some (.error e)))
        · exact Source.traces_pure (hregistered (some (.ok contract)))

theorem requireContract_traces (htarget : target.network = ropsten) :
    source.Traces (requireContract source.service target genesis)
      (requireContract source.witnessed.service target genesis) (Obtains target genesis) := by
  rw [requireContract_eq, requireContract_eq]
  apply (Source.traces_ask _).bind
  · rintro log rfl
    exact .unanswered
  · rintro (e | _ | contract) log rfl
    · exact register_traces htarget nofun
    · exact register_traces htarget nofun
    · exact Source.traces_pure .known

/-! ### The start -/

inductive Vends (target : Target) (genesis : Option Params) :
    List Step → Option (Except BootError (Option String)) → Prop
  | unobtained {log : List Step} (obtains : Obtains target genesis log none) : Vends target genesis log none
  | refused {log : List Step} {e : BootError} (obtains : Obtains target genesis log (some (.error e))) :
      Vends target genesis log (some (.error e))
  | unanswered {log : List Step} {contract : Contract} (obtains : Obtains target genesis log (some (.ok contract))) :
      Vends target genesis (log ++ [.called (.vend contract.address) none]) none
  | vended {log : List Step} {contract : Contract} {bearer : Except Platform.Error String}
      (obtains : Obtains target genesis log (some (.ok contract))) :
      Vends target genesis (log ++ [.called (.vend contract.address) (some bearer)]) (some (.ok bearer.toOption))

inductive Conducted (settings : Settings) (genesis : Option Params) :
    List Step → Option (Except BootError (Option Flow)) → Prop
  | untargeted (nothing : Target.resolve settings genesis = .ok none) : Conducted settings genesis [] (some (.ok none))
  | unrecognized {e : NetworkError} (fault : Target.resolve settings genesis = .error e) :
      Conducted settings genesis [] (some (.error (.network e)))
  | unvended {target : Target} {log : List Step} (resolved : Target.resolve settings genesis = .ok (some target))
      (vends : Vends target genesis log none) : Conducted settings genesis log none
  | refused {target : Target} {log : List Step} {e : BootError}
      (resolved : Target.resolve settings genesis = .ok (some target))
      (vends : Vends target genesis log (some (.error e))) : Conducted settings genesis log (some (.error e))
  | subscribed {target : Target} {log : List Step} {bearer : Option String}
      {flow : Option (Except Platform.Error Flow)} (resolved : Target.resolve settings genesis = .ok (some target))
      (vends : Vends target genesis log (some (.ok bearer))) :
      Conducted settings genesis
        (log ++ [.subscribed ("network." ++ target.networkId ++ ".contracts." ++ target.address) bearer flow])
        (flow.map fun flow => (flow.map some).mapError .platform)

theorem credentials_traces (htarget : target.network = ropsten) :
    source.Traces (credentials source.service target genesis) (credentials source.witnessed.service target genesis)
      (Vends target genesis) := by
  apply (requireContract_traces htarget).bind
  · exact fun log => .unobtained
  · rintro (e | contract) log hobtains
    · apply Source.traces_pure
      rw [List.append_nil]
      exact .refused hobtains
    · apply (Source.traces_ask _).bind
      · rintro more rfl
        exact .unanswered hobtains
      · rintro (e | bearer) more rfl
        · exact Source.traces_pure (.vended hobtains)
        · exact Source.traces_pure (.vended hobtains)

theorem start_traces : source.Traces (start settings genesis (some source))
    (start settings genesis (some source.witnessed)) (Conducted settings genesis) := by
  rw [start, start]
  cases hresolve : Target.resolve settings genesis with
  | error e => exact Source.traces_pure (.unrecognized hresolve)
  | ok target? =>
    cases target? with
    | none => exact Source.traces_pure (.untargeted hresolve)
    | some target =>
      apply (credentials_traces (network_of_resolve hresolve)).bind
      · exact fun log => .unvended hresolve
      · rintro (e | bearer) log hvends
        · apply Source.traces_pure
          rw [List.append_nil]
          exact .refused hresolve hvends
        · have hsubscribed (flow : Option (Except Platform.Error Flow)) : Conducted settings genesis
              (log ++ [.subscribed target.subject bearer flow])
              (flow.map fun flow => (flow.map some).mapError .platform) := .subscribed hresolve hvends
          apply (Source.traces_subscribe _ _).bind
          · rintro more rfl
            exact hsubscribed none
          · rintro (e | flow) more rfl
            · exact Source.traces_pure (hsubscribed (some (.error e)))
            · exact Source.traces_pure (hsubscribed (some (.ok flow)))

/-- Without a platform nothing happens. With one, a start makes the calls that its settings, the genesis document and
the answers so far demand, in their order and no others, and ends as the last of them has it. -/
theorem start_conducted (settings : Settings) (genesis : Option Params) (source : Source σ) (s : σ)
    (before : List Step) :
    (start settings genesis (none : Option (Source σ))).run.run s = (some (.ok none), s) ∧
      ∃ log, Conducted settings genesis log ((start settings genesis (some source)).run.run s).1 ∧
        source.Replays s log ((start settings genesis (some source)).run.run s).2 ∧
        (start settings genesis (some source.witnessed)).run.run (s, before) =
          (((start settings genesis (some source)).run.run s).1,
            ((start settings genesis (some source)).run.run s).2, before ++ log) :=
  ⟨rfl, start_traces s before⟩

end StakeLedger.Staking
