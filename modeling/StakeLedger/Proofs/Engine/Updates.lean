import StakeLedger.Proofs.Engine.Powers

/-!
A list with one update for each address: what is recorded in it, and in which order.

Main statement: `merged_keeps_last`.
-/

namespace StakeLedger.Engine

namespace Updates

def first? (us : List ValidatorUpdate) (a : String) : Option ValidatorUpdate := us.find? (·.address == a)

def last? (us : List ValidatorUpdate) (a : String) : Option ValidatorUpdate := first? us.reverse a

variable {us : List ValidatorUpdate} {a : String}

theorem first?_cons (u : ValidatorUpdate) (us : List ValidatorUpdate) (a : String) :
    first? (u :: us) a = if u.address = a then some u else first? us a :=
  Keyed.find?_cons ValidatorUpdate.address u us a

theorem last?_cons (u : ValidatorUpdate) (us : List ValidatorUpdate) (a : String) :
    last? (u :: us) a = (last? us a).or (if u.address = a then some u else none) := by
  rw [last?, last?, first?, List.reverse_cons, List.find?_append]
  exact congrArg (Option.or _) (first?_cons u [] a)

theorem last?_isSome : (last? us a).isSome ↔ a ∈ us.map ValidatorUpdate.address := by
  rw [last?, first?, Keyed.find?_isSome, List.map_reverse, List.mem_reverse]

theorem last?_eq_some_iff {u : ValidatorUpdate} : last? us a = some u ↔
    u.address = a ∧ ∃ front back, us = front ++ u :: back ∧ a ∉ back.map ValidatorUpdate.address := by
  rw [last?, first?, List.find?_eq_some_iff_append]
  refine and_congr beq_iff_eq ⟨?_, ?_⟩
  · rintro ⟨back, front, hus, hback⟩
    refine ⟨front.reverse, back.reverse, by simpa using congrArg List.reverse hus, ?_⟩
    simpa using hback
  · rintro ⟨front, back, rfl, hback⟩
    refine ⟨back.reverse, front.reverse, by simp, ?_⟩
    simpa using hback

theorem first?_mergeUpdate (us : List ValidatorUpdate) (u : ValidatorUpdate) (a : String) :
    first? (mergeUpdate us u) a = if u.address = a then some u else first? us a := by
  induction us with
  | nil => exact first?_cons u [] a
  | cons v us ih =>
    rw [mergeUpdate]
    by_cases hv : v.address = u.address
    · rw [if_pos hv, first?_cons, first?_cons, hv]
      split <;> rfl
    · rw [if_neg hv, first?_cons, first?_cons, ih]
      by_cases ha : v.address = a
      · rw [if_pos ha, if_pos ha, if_neg fun he => hv (ha.trans he.symm)]
      · rw [if_neg ha, if_neg ha]

theorem first?_mergeUpdates (us new : List ValidatorUpdate) (a : String) :
    first? (mergeUpdates us new) a = (last? new a).or (first? us a) := by
  induction new generalizing us with
  | nil => rfl
  | cons u new ih =>
    have hrest := ih (mergeUpdate us u)
    rw [first?_mergeUpdate] at hrest
    rw [last?_cons, Option.or_assoc]
    refine hrest.trans (congrArg (Option.or _) ?_)
    split <;> rfl

theorem addresses_mergeUpdates {seen : List String} (new : List ValidatorUpdate)
    (h : us.map ValidatorUpdate.address = seen.eraseDups) :
    (mergeUpdates us new).map ValidatorUpdate.address =
      (seen ++ new.map ValidatorUpdate.address).eraseDups := by
  induction new generalizing us seen with
  | nil => rw [List.map_nil, List.append_nil, ← h]; rfl
  | cons u new ih =>
    have hnext : (mergeUpdate us u).map ValidatorUpdate.address = (seen ++ [u.address]).eraseDups := by
      rw [addresses_mergeUpdate, h, Keyed.eraseDups_concat]
      simp only [List.mem_eraseDups]
    rw [List.map_cons, List.append_cons]
    exact ih hnext

end Updates

theorem nodup_mergeUpdates {us : List ValidatorUpdate} (new : List ValidatorUpdate)
    (hn : (us.map ValidatorUpdate.address).Nodup) : ((mergeUpdates us new).map ValidatorUpdate.address).Nodup := by
  induction new generalizing us with
  | nil => exact hn
  | cons u new ih => exact ih (nodup_mergeUpdate u hn)

theorem mergeUpdate_of_notMem {us : List ValidatorUpdate} {u : ValidatorUpdate}
    (h : u.address ∉ us.map ValidatorUpdate.address) : mergeUpdate us u = us ++ [u] := by
  induction us with
  | nil => rfl
  | cons v us ih =>
    rw [List.map_cons, List.mem_cons, not_or] at h
    rw [mergeUpdate, if_neg (Ne.symm h.1), ih h.2, List.cons_append]

theorem mergeUpdates_of_nodup {us new : List ValidatorUpdate}
    (hn : ((us ++ new).map ValidatorUpdate.address).Nodup) : mergeUpdates us new = us ++ new := by
  induction new generalizing us with
  | nil => exact (List.append_nil us).symm
  | cons u new ih =>
    rw [List.append_cons] at hn
    have hus : ((us ++ [u]).map ValidatorUpdate.address).Nodup := by
      rw [List.map_append] at hn
      exact (List.nodup_append.mp hn).1
    have hu : u.address ∉ us.map ValidatorUpdate.address := by
      rw [List.map_append, List.map_singleton, List.nodup_append] at hus
      exact fun hmem => hus.2.2 _ hmem _ List.mem_cons_self rfl
    change mergeUpdates (mergeUpdate us u) new = _
    rw [mergeUpdate_of_notMem hu, ih hn, ← List.append_cons]

structure Condenses (us ms : List ValidatorUpdate) : Prop where
  distinct : (ms.map ValidatorUpdate.address).Nodup
  order : ms.map ValidatorUpdate.address = (us.map ValidatorUpdate.address).eraseDups
  last : ∀ m ∈ ms, ∃ front back, us = front ++ m :: back ∧ m.address ∉ back.map ValidatorUpdate.address

namespace Condenses

variable {us ms : List ValidatorUpdate}

theorem map_some (h : Condenses us ms) :
    ms.map some = (us.map ValidatorUpdate.address).eraseDups.map (Updates.last? us) := by
  rw [← h.order, List.map_map]
  refine List.map_congr_left fun m hm => ?_
  exact (Updates.last?_eq_some_iff.mpr ⟨rfl, h.last m hm⟩).symm

theorem unique {ns : List ValidatorUpdate} (hm : Condenses us ms) (hn : Condenses us ns) : ms = ns := by
  have hsome : ms.map some = ns.map some := hm.map_some.trans hn.map_some.symm
  exact (List.map_inj_right fun _ _ => Option.some.inj).mp hsome

end Condenses

theorem condenses_mergeUpdates (us : List ValidatorUpdate) : Condenses us (mergeUpdates [] us) := by
  have hn : ((mergeUpdates [] us).map ValidatorUpdate.address).Nodup := nodup_mergeUpdates us List.nodup_nil
  refine ⟨hn, @Updates.addresses_mergeUpdates [] [] us rfl, fun m hm => ?_⟩
  have hfirst : Updates.first? (mergeUpdates [] us) m.address = some m := Keyed.find?_of_mem hn hm
  rw [Updates.first?_mergeUpdates] at hfirst
  have hlast : Updates.last? us m.address = some m := Option.or_none.symm.trans hfirst
  exact (Updates.last?_eq_some_iff.mp hlast).2

theorem mergeUpdates_mergeUpdates (front back : List ValidatorUpdate) :
    mergeUpdates [] (mergeUpdates [] front ++ back) = mergeUpdates [] (front ++ back) := by
  have hself : mergeUpdates [] (mergeUpdates [] front) = mergeUpdates [] front :=
    mergeUpdates_of_nodup (nodup_mergeUpdates front List.nodup_nil)
  calc mergeUpdates [] (mergeUpdates [] front ++ back)
      = mergeUpdates (mergeUpdates [] (mergeUpdates [] front)) back := List.foldl_append
    _ = mergeUpdates (mergeUpdates [] front) back := by rw [hself]
    _ = mergeUpdates [] (front ++ back) := List.foldl_append.symm

/-- Updates that are recorded one after the other leave the last one for each address, in the order in which
the addresses came first, and no other list is like that. It makes no difference to record what they leave
once more, nor to put it in the place of the updates that a sequence begins with. -/
theorem merged_keeps_last (us : List ValidatorUpdate) :
    (∀ ms, mergeUpdates [] us = ms ↔ Condenses us ms) ∧
      mergeUpdates [] (mergeUpdates [] us) = mergeUpdates [] us ∧
      ∀ n, mergeUpdates [] (mergeUpdates [] (us.take n) ++ us.drop n) = mergeUpdates [] us := by
  refine ⟨fun ms => ⟨?_, fun h => (condenses_mergeUpdates us).unique h⟩, ?_, fun n => ?_⟩
  · rintro rfl
    exact condenses_mergeUpdates us
  · have hself := mergeUpdates_mergeUpdates us []
    rw [List.append_nil, List.append_nil] at hself
    exact hself
  · rw [mergeUpdates_mergeUpdates, List.take_append_drop]

example : mergeUpdates [] [⟨"A", .ed25519 [1], 5⟩, ⟨"B", .ed25519 [2], 6⟩, ⟨"A", .ed25519 [1], 0⟩] =
    [⟨"A", .ed25519 [1], 0⟩, ⟨"B", .ed25519 [2], 6⟩] := by decide

end StakeLedger.Engine
