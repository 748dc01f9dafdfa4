import StakeLedger.Proofs.Query.Pattern
import StakeLedger.Proofs.Session
import StakeLedger.Query.Router

/-!
Which route of a table answers. Handlers are watched while they answer, so that a request is known by the calls it
leads to: there is one, to the earliest route that matches, or there is none. Main statement: `Router.first_match_wins`.
-/

namespace StakeLedger.Query

open Engine

variable {σ : Type} {router : Router σ} {r : Route σ} {i : Nat} {path argument : String} {request : QueryRequest}
  {s : σ}

/-! ### What a pattern keeps of a path -/

namespace Pattern

variable {p : Pattern} {text : String}

def Matches (p : Pattern) (text : String) : Prop := ∃ place, p.search none 0 text.toList = some place

def Captures (p : Pattern) (text argument : String) : Prop :=
  ∃ place, p.search none 0 text.toList = some place ∧ argument = .ofList (place.first.getD [])

theorem captures_iff : p.Captures text argument ↔ p.argument? text = some argument := by
  rw [Captures, argument?, Option.map_eq_some_iff]
  exact exists_congr fun place => and_congr_right fun _ => eq_comm

theorem matches_iff : p.Matches text ↔ ∃ argument, p.Captures text argument := by
  constructor
  · rintro ⟨place, hplace⟩
    exact ⟨_, place, hplace, rfl⟩
  · rintro ⟨argument, place, hplace, -⟩
    exact ⟨place, hplace⟩

theorem not_matches_iff : ¬ p.Matches text ↔ p.argument? text = none := by
  rw [Matches, argument?, Option.map_eq_none_iff, ← Option.ne_none_iff_exists', Ne, Classical.not_not]

theorem Captures.eq_empty (h : p.Captures text argument) (hp : 1 ∉ p.groups) : argument = "" := by
  obtain ⟨place, hplace, rfl⟩ := h
  rw [first_of_no_group hp hplace]
  rfl

end Pattern

/-! ### The earliest match -/

namespace Router

structure Chooses (router : Router σ) (path : String) (i : Nat) (r : Route σ) (argument : String) : Prop where
  here : router[i]? = some r
  captured : r.pattern.Captures path argument
  earlier : ∀ j r', j < i → router[j]? = some r' → ¬ r'.pattern.Matches path

theorem Chooses.cons {r' : Route σ} (h : router.Chooses path i r argument) (hr' : ¬ r'.pattern.Matches path) :
    Chooses (r' :: router) path (i + 1) r argument := by
  refine ⟨h.here, h.captured, ?_⟩
  rintro (_ | j) r'' hj hr''
  · obtain rfl := Option.some.inj hr''
    exact hr'
  · exact h.earlier j r'' (Nat.lt_of_succ_lt_succ hj) hr''

theorem exists_chooses (router : Router σ) (path : String) :
    (∃ i r argument, router.Chooses path i r argument) ∨ ∀ r ∈ router, ¬ r.pattern.Matches path := by
  induction router with
  | nil => exact .inr fun r hr => absurd hr List.not_mem_nil
  | cons r router ih =>
    cases hargument : r.pattern.argument? path with
    | some argument =>
      have hearlier : ∀ j r', j < 0 → (r :: router)[j]? = some r' → ¬ r'.pattern.Matches path := by
        intro j r' hj
        exact absurd hj (Nat.not_lt_zero j)
      exact .inl ⟨0, r, argument, rfl, Pattern.captures_iff.mpr hargument, hearlier⟩
    | none =>
      have hr := Pattern.not_matches_iff.mpr hargument
      rcases ih with ⟨i, r', argument, h⟩ | h
      · exact .inl ⟨i + 1, r', argument, h.cons hr⟩
      · exact .inr (List.forall_mem_cons.mpr ⟨hr, h⟩)

theorem Chooses.route (h : router.Chooses request.path i r argument) :
    router.route request = r.handler argument request := by
  induction router generalizing i with
  | nil => cases h.here
  | cons r' router ih =>
    cases i with
    | zero =>
      obtain rfl := Option.some.inj h.here
      rw [Router.route, Pattern.captures_iff.mp h.captured]
    | succ i =>
      have hr' := h.earlier 0 r' (Nat.succ_pos i) rfl
      rw [Router.route, Pattern.not_matches_iff.mp hr']
      apply ih
      exact ⟨h.here, h.captured, fun j r'' hj => h.earlier (j + 1) r'' (Nat.succ_lt_succ hj)⟩

theorem route_of_not_matches (h : ∀ r ∈ router, ¬ r.pattern.Matches request.path) :
    router.route request = return .error (.notHandled request.path) := by
  induction router with
  | nil => rfl
  | cons r router ih =>
    obtain ⟨hr, hrest⟩ := List.forall_mem_cons.mp h
    rw [Router.route, Pattern.not_matches_iff.mp hr]
    exact ih hrest

end Router

/-! ### Calls of handlers -/

structure Invocation where
  route : Nat
  argument : String
  request : QueryRequest
  deriving DecidableEq

def Handler.noting (i : Nat) (handler : Handler σ) : Handler (σ × List Invocation) := fun argument request =>
  OptionT.mk fun (s, calls) =>
    let (answer, s) := (handler argument request).run.run s
    (answer, (s, calls ++ [⟨i, argument, request⟩]))

namespace Router

def noting (router : Router σ) : Router (σ × List Invocation) :=
  router.zipIdx.map fun (r, i) => ⟨r.pattern, r.handler.noting i⟩

theorem getElem?_noting : router.noting[i]? = router[i]?.map fun r => ⟨r.pattern, r.handler.noting i⟩ := by
  simp [noting, Function.comp_def]

theorem Chooses.noting (h : router.Chooses path i r argument) :
    router.noting.Chooses path i ⟨r.pattern, r.handler.noting i⟩ argument := by
  refine ⟨by rw [getElem?_noting, h.here]; rfl, h.captured, fun j r' hj hr' => ?_⟩
  rw [getElem?_noting] at hr'
  obtain ⟨r'', hr'', rfl⟩ := Option.map_eq_some_iff.mp hr'
  exact h.earlier j r'' hj hr''

theorem not_matches_noting (h : ∀ r ∈ router, ¬ r.pattern.Matches path) :
    ∀ r ∈ router.noting, ¬ r.pattern.Matches path := by
  intro r hr
  obtain ⟨i, hi⟩ := List.mem_iff_getElem?.mp hr
  rw [getElem?_noting] at hi
  obtain ⟨r', hr', rfl⟩ := Option.map_eq_some_iff.mp hi
  exact h r' (List.mem_of_getElem? hr')

inductive Routed (router : Router σ) (request : QueryRequest) (s : σ) :
    Option (Except Error QueryResponse) × σ → List Invocation → Prop
  | handled {i : Nat} {r : Route σ} {argument : String} (chosen : router.Chooses request.path i r argument) :
      Routed router request s ((r.handler argument request).run.run s) [⟨i, argument, request⟩]
  | unhandled (others : ∀ r ∈ router, ¬ r.pattern.Matches request.path) :
      Routed router request s (some (.error (.notHandled request.path)), s) []

theorem run_noting_route (router : Router σ) (request : QueryRequest) (s : σ) (calls : List Invocation) :
    ∃ made, router.Routed request s ((router.route request).run.run s) made ∧
      (router.noting.route request).run.run (s, calls) =
        (((router.route request).run.run s).1, ((router.route request).run.run s).2, calls ++ made) := by
  rcases router.exists_chooses request.path with ⟨i, r, argument, h⟩ | h
  · refine ⟨[⟨i, argument, request⟩], ?_, ?_⟩
    · rw [h.route]
      exact .handled h
    · rw [h.route, h.noting.route]
      rfl
  · refine ⟨[], ?_, ?_⟩
    · rw [route_of_not_matches h]
      exact .unhandled h
    · rw [route_of_not_matches h, route_of_not_matches (not_matches_noting h), List.append_nil]
      rfl

def calls (router : Router σ) (request : QueryRequest) (s : σ) : List Invocation :=
  ((router.noting.route request).run.run (s, [])).2.2

theorem Chooses.calls (h : router.Chooses request.path i r argument) :
    router.calls request s = [⟨i, argument, request⟩] := by
  rw [Router.calls, h.noting.route]
  rfl

theorem calls_of_not_matches (h : ∀ r ∈ router, ¬ r.pattern.Matches request.path) : router.calls request s = [] := by
  rw [Router.calls, route_of_not_matches (not_matches_noting h)]
  rfl

theorem calls_eq_iff : router.calls request s = [⟨i, argument, request⟩] ↔
    ∃ r, router.Chooses request.path i r argument := by
  constructor
  · intro h
    rcases router.exists_chooses request.path with ⟨i', r', argument', h'⟩ | h'
    · rw [h'.calls, List.singleton_inj, Invocation.mk.injEq] at h
      obtain ⟨rfl, rfl, -⟩ := h
      exact ⟨r', h'⟩
    · rw [calls_of_not_matches h'] at h
      cases h
  · rintro ⟨r, h⟩
    exact h.calls

def answered (request : QueryRequest) : Except Error QueryResponse → QueryResponse
  | .ok response => response
  | .error e => { code := e.code, log := e.message, value := [], height := request.height }

theorem run_respond (router : Router σ) (request : QueryRequest) (s : σ) : (router.respond request).run.run s =
    (((router.route request).run.run s).1.map (answered request), ((router.route request).run.run s).2) := by
  rw [respond, Session.run_bind]
  generalize (router.route request).run.run s = outcome
  obtain ⟨_ | _ | _, s'⟩ := outcome <;> rfl

end Router

/-! ### Tables as they are made -/

structure Registration (σ : Type) where
  text : String
  handler : Handler σ

def Registration.route? (r : Registration σ) : Option (Route σ) :=
  (Pattern.ofText r.text).toOption.map fun pattern => ⟨pattern, r.handler⟩

namespace Router

def after (router : Router σ) (r : Registration σ) : Router σ :=
  match router.register r.text r.handler with
  | .ok router' => router'
  | .error _ => router

def registered (rs : List (Registration σ)) : Router σ := rs.foldl after []

theorem after_eq (router : Router σ) (r : Registration σ) : router.after r = router ++ r.route?.toList := by
  rw [after, register, Registration.route?]
  cases Pattern.ofText r.text with
  | ok pattern => rfl
  | error fault => exact (List.append_nil router).symm

theorem registered_eq (rs : List (Registration σ)) : registered rs = rs.filterMap Registration.route? := by
  -- The table before the first registration is general in the induction.
  have hfrom : ∀ router : Router σ, rs.foldl after router = router ++ rs.filterMap Registration.route? := by
    induction rs with
    | nil => exact fun router => (List.append_nil router).symm
    | cons r rs ih =>
      intro router
      rw [List.foldl_cons, ih, after_eq, List.append_assoc, List.filterMap_cons]
      cases r.route? <;> rfl
  exact hfrom []

theorem register_eq_error {text : String} {handler : Handler σ} {e : Error}
    (h : router.register text handler = .error e) :
    ∃ fault, Pattern.ofText text = .error fault ∧ e = .pattern text fault := by
  rw [register] at h
  cases hpattern : Pattern.ofText text with
  | ok pattern => rw [hpattern] at h; cases h
  | error fault => rw [hpattern] at h; cases h; exact ⟨fault, rfl, rfl⟩

theorem registered_of_error {before after : List (Registration σ)} {r : Registration σ} {fault : PatternFault}
    (h : Pattern.ofText r.text = .error fault) : registered (before ++ r :: after) = registered (before ++ after) := by
  have hr : r.route? = none := by
    rw [Registration.route?, h]
    rfl
  rw [registered_eq, registered_eq, List.filterMap_append, List.filterMap_append, List.filterMap_cons_none hr]

/-- A table has the patterns among what was registered, in that order. A request goes to the earliest route that matches
its path, whatever comes of it there, or to none. -/
theorem first_match_wins (rs : List (Registration σ)) :
    registered rs = rs.filterMap Registration.route? ∧
    (∀ before r after e, rs = before ++ r :: after → (registered before).register r.text r.handler = .error e →
      (∃ fault, Pattern.ofText r.text = .error fault ∧ e = .pattern r.text fault) ∧
        registered (before ++ [r]) = registered before ∧ registered rs = registered (before ++ after)) ∧
    (∀ i r path argument, (registered rs).Chooses path i r argument → 1 ∉ r.pattern.groups → argument = "") ∧
    ∀ (request : QueryRequest) (s : σ),
      (∀ calls, ∃ made, (registered rs).Routed request s (((registered rs).route request).run.run s) made ∧
        ((registered rs).noting.route request).run.run (s, calls) =
          ((((registered rs).route request).run.run s).1,
            (((registered rs).route request).run.run s).2, calls ++ made)) ∧
      ((registered rs).respond request).run.run s =
        ((((registered rs).route request).run.run s).1.map (answered request),
          (((registered rs).route request).run.run s).2) := by
  refine ⟨registered_eq rs, ?_, ?_, fun request s => ⟨run_noting_route _ request s, run_respond _ request s⟩⟩
  · rintro before r after e rfl herror
    obtain ⟨fault, hfault, he⟩ := register_eq_error herror
    refine ⟨⟨fault, hfault, he⟩, ?_, registered_of_error hfault⟩
    rw [registered_of_error hfault, List.append_nil]
  · intro i r path argument hchosen
    exact hchosen.captured.eq_empty

def echo (code : UInt32) : Handler Unit := fun argument request => return .ok ⟨code, argument, [], request.height⟩

def overlapping : List (Registration Unit) := [⟨"/a/(.*)", echo 1⟩, ⟨"/a/(", echo 2⟩, ⟨"/a/b", echo 3⟩]

theorem first_match_wins_overlapping :
    registered overlapping = registered [⟨"/a/(.*)", echo 1⟩, ⟨"/a/b", echo 3⟩] ∧
      ((registered overlapping).respond { path := "/a/b" }).run.run () = (some ⟨1, "b", [], 0⟩, ()) := by
  obtain ⟨-, hfailed, -, hrequests⟩ := first_match_wins overlapping
  constructor
  · exact (hfailed [⟨"/a/(.*)", echo 1⟩] ⟨"/a/(", echo 2⟩ [⟨"/a/b", echo 3⟩] _ rfl rfl).2.2
  · rw [(hrequests { path := "/a/b" } ()).2]
    rfl

end Router

end StakeLedger.Query
