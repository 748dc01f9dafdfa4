import Mathlib.Data.List.TakeWhile
import StakeLedger.Proofs.Query.Dispatch
import StakeLedger.Proofs.Query.Routes

/-!
Where every path goes that a node is asked for. The two routes begin differently, so that the order between them plays
no part, and what a peer is called besides its address is passed over. Main statement: `Router.withDefaults_routing`.
-/

namespace StakeLedger.Query

open Engine Platform

variable {σ : Type} {probe : Probe σ} {beacon : Option (Beacon σ)} {request : QueryRequest} {s : σ}
  {path argument lit : String}

/-! ### Addresses of peers -/

structure HostOf (peer host : String) : Prop where
  noAt : '@' ∉ host.toList
  tail : peer = host ∨ ∃ id, peer = id ++ "@" ++ host

theorem toList_peerTarget (peer : String) :
    (peerTarget peer).toList = (peer.toList.reverse.takeWhile (· ≠ '@')).reverse := String.toList_ofList

theorem hostOf_peerTarget (peer : String) : HostOf peer (peerTarget peer) := by
  constructor
  · rw [toList_peerTarget, List.mem_reverse]
    intro hmem
    simpa using List.mem_takeWhile_imp hmem
  · have hsplit := List.takeWhile_append_dropWhile (p := (· ≠ '@')) (l := peer.toList.reverse)
    have hhead := List.head?_dropWhile_not (· ≠ '@') peer.toList.reverse
    cases hrest : peer.toList.reverse.dropWhile (· ≠ '@') with
    | nil =>
      left
      apply String.toList_inj.mp
      rw [toList_peerTarget]
      rw [hrest, List.append_nil] at hsplit
      rw [hsplit, List.reverse_reverse]
    | cons c rest =>
      right
      rw [hrest] at hsplit hhead
      obtain rfl : c = '@' := by simpa using hhead
      have htext := congrArg List.reverse hsplit
      rw [List.reverse_append, List.reverse_cons, List.reverse_reverse, ← toList_peerTarget] at htext
      refine ⟨.ofList rest.reverse, ?_⟩
      apply String.toList_inj.mp
      rw [String.toList_append, String.toList_append, String.toList_ofList]
      exact htext.symm

theorem peerTarget_append (id peer : String) : peerTarget (id ++ "@" ++ peer) = peerTarget peer := by
  have hreverse : (id ++ "@" ++ peer).toList.reverse = peer.toList.reverse ++ '@' :: id.toList.reverse := by
    simp
  have hat : ('@' :: id.toList.reverse).takeWhile (· ≠ '@') = [] := List.takeWhile_cons_of_neg (by simp)
  apply String.toList_inj.mp
  rw [toList_peerTarget, toList_peerTarget, hreverse, List.takeWhile_append, hat, List.append_nil]
  split
  · next hall => rw [(List.takeWhile_prefix _).eq_of_length hall]
  · rfl

theorem peerFilter_append (probe : Probe σ) (id peer : String) (request : QueryRequest) :
    peerFilter probe (id ++ "@" ++ peer) request = peerFilter probe peer request := by
  rw [peerFilter, peerFilter, isReachable, isReachable, peerTarget_append]

/-! ### The two routes -/

theorem captures_beginning : (beginningWith lit.toList).Captures path argument ↔
    path = lit ++ argument ∧ '\n' ∉ argument.toList := by
  rw [Pattern.captures_iff, argument?_beginning_iff, ← String.toList_append, String.toList_inj]

def peerRoute (probe : Probe σ) : Route σ := ⟨beginningWith "/p2p/filter/addr/".toList, peerFilter probe⟩

def entropyRoute (beacon : Option (Beacon σ)) : Route σ :=
  ⟨beginningWith "/baseline/entropy/fetch/".toList, entropyFetch beacon⟩

theorem not_matches_peerRoute : ¬ (peerRoute probe).pattern.Matches ("/baseline/entropy/fetch/" ++ argument) := by
  intro h
  obtain ⟨peer, hpeer⟩ := Pattern.matches_iff.mp h
  have htext := congrArg String.toList (captures_beginning.mp hpeer).1
  rw [String.toList_append, String.toList_append] at htext
  have hsecond := congrArg (·[1]?) htext
  exact absurd hsecond (by simp)

namespace Router

theorem chooses_peerRoute : (∃ r, Chooses [peerRoute probe, entropyRoute beacon] path 0 r argument) ↔
    path = "/p2p/filter/addr/" ++ argument ∧ '\n' ∉ argument.toList := by
  rw [← captures_beginning]
  constructor
  · rintro ⟨r, h⟩
    obtain rfl := Option.some.inj h.here
    exact h.captured
  · intro h
    exact ⟨_, rfl, h, fun j _ hj => absurd hj (Nat.not_lt_zero j)⟩

theorem chooses_entropyRoute : (∃ r, Chooses [peerRoute probe, entropyRoute beacon] path 1 r argument) ↔
    path = "/baseline/entropy/fetch/" ++ argument ∧ '\n' ∉ argument.toList := by
  rw [← captures_beginning]
  constructor
  · rintro ⟨r, h⟩
    obtain rfl := Option.some.inj h.here
    exact h.captured
  · intro h
    refine ⟨_, rfl, h, fun j r hj hr => ?_⟩
    obtain rfl := Nat.lt_one_iff.mp hj
    obtain rfl := Option.some.inj hr
    rw [(captures_beginning.mp h).1]
    exact not_matches_peerRoute

theorem not_matches_of_calls
    (h : ∀ i a, i ≤ 1 → calls [peerRoute probe, entropyRoute beacon] request s ≠ [⟨i, a, request⟩]) :
    ∀ r ∈ [peerRoute probe, entropyRoute beacon], ¬ r.pattern.Matches request.path := by
  rcases exists_chooses [peerRoute probe, entropyRoute beacon] request.path with ⟨i, r, argument, hchosen⟩ | hothers
  · have hi : i ≤ 1 := by
      obtain ⟨hlt, -⟩ := List.getElem?_eq_some_iff.mp hchosen.here
      exact Nat.le_of_lt_succ hlt
    exact absurd hchosen.calls (h i argument hi)
  · exact hothers

theorem withDefaults_routing (probe : Probe σ) (beacon : Option (Beacon σ)) :
    ∃ router, Router.withDefaults probe beacon = .ok router ∧
      router.map Route.handler = [peerFilter probe, entropyFetch beacon] ∧
      (∀ request s a, router.calls request s = [⟨0, a, request⟩] ↔
        request.path = "/p2p/filter/addr/" ++ a ∧ '\n' ∉ a.toList) ∧
      (∀ request s a, router.calls request s = [⟨1, a, request⟩] ↔
        request.path = "/baseline/entropy/fetch/" ++ a ∧ '\n' ∉ a.toList) ∧
      (∀ request s, (∀ i a, i ≤ 1 → router.calls request s ≠ [⟨i, a, request⟩]) →
        router.calls request s = [] ∧
        (router.route request).run.run s = (some (.error (.notHandled request.path)), s) ∧
        (router.respond request).run.run s =
          (some ⟨2, (Error.notHandled request.path).message, [], request.height⟩, s)) ∧
      (∀ height request s, request.path = Entropy.fetchPath height →
        router.calls request s = [⟨1, toString height.toInt, request⟩]) ∧
      (∀ peer, ∃ host, HostOf peer host ∧ ∀ request, peerFilter probe peer request = do
        return .ok ⟨if ← probe host then 0 else 1, "", [], request.height⟩) ∧
      ∀ id peer request, peerFilter probe (id ++ "@" ++ peer) request = peerFilter probe peer request := by
  refine ⟨[peerRoute probe, entropyRoute beacon], Router.withDefaults_eq probe beacon, rfl, ?_, ?_, ?_, ?_, ?_, ?_⟩
  · intro request s a
    rw [calls_eq_iff, chooses_peerRoute]
  · intro request s a
    rw [calls_eq_iff, chooses_entropyRoute]
  · intro request s h
    have hothers := not_matches_of_calls h
    have hroute := route_of_not_matches hothers
    refine ⟨calls_of_not_matches hothers, by rw [hroute]; rfl, ?_⟩
    rw [run_respond, hroute]
    rfl
  · intro height request s hpath
    rw [calls_eq_iff, chooses_entropyRoute]
    exact ⟨hpath, fun hmem => notLineFeed_of_mem_toString hmem rfl⟩
  · intro peer
    exact ⟨peerTarget peer, hostOf_peerTarget peer, fun request => rfl⟩
  · exact peerFilter_append probe

end Router

end StakeLedger.Query
