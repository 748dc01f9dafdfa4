import StakeLedger.Proofs.Keyed
import StakeLedger.Validator.Roster

namespace StakeLedger.Engine

abbrev Powers := String → Int64

namespace Powers

def zero : Powers := fun _ => 0

def set (p : Powers) (u : ValidatorUpdate) : Powers := fun a => if a = u.address then u.power else p a

def take (p : Powers) (us : List ValidatorUpdate) : Powers := us.foldl set p

variable {p : Powers} {u : ValidatorUpdate} {us : List ValidatorUpdate}

theorem take_cons : p.take (u :: us) = (p.set u).take us := rfl

theorem set_set {v : ValidatorUpdate} (h : v.address = u.address) : (p.set v).set u = p.set u := by
  funext a
  simp only [set]
  split
  · rfl
  · next ha => rw [if_neg fun he => ha (he.trans h)]

theorem set_comm {v : ValidatorUpdate} (h : v.address ≠ u.address) :
    (p.set v).set u = (p.set u).set v := by
  funext a
  simp only [set]
  by_cases hv : a = v.address
  · rw [if_neg fun hu => h (hv.symm.trans hu), if_pos hv, if_pos hv]
  · rw [if_neg hv, if_neg hv]

theorem take_set (h : u.address ∉ us.map ValidatorUpdate.address) : (p.set u).take us = (p.take us).set u := by
  induction us generalizing p with
  | nil => rfl
  | cons v us ih =>
    rw [List.map_cons, List.mem_cons, not_or] at h
    rw [take_cons, take_cons, ← ih h.2, set_comm h.1]

theorem take_apply (a : String) :
    p.take us a = if a ∈ us.map ValidatorUpdate.address then zero.take us a else p a := by
  induction us generalizing p with
  | nil => rfl
  | cons u us ih =>
    rw [take_cons, take_cons, ih, ih (p := zero.set u)]
    by_cases hm : a ∈ us.map ValidatorUpdate.address
    · simp only [List.map_cons, List.mem_cons, hm, or_true, if_true]
    · rw [if_neg hm, if_neg hm]
      simp only [List.map_cons, List.mem_cons, hm, or_false]
      simp only [set]
      split <;> rfl

end Powers

theorem addresses_mergeUpdate (us : List ValidatorUpdate) (u : ValidatorUpdate) :
    (mergeUpdate us u).map ValidatorUpdate.address =
      if u.address ∈ us.map ValidatorUpdate.address then us.map ValidatorUpdate.address
      else us.map ValidatorUpdate.address ++ [u.address] := by
  induction us with
  | nil => rfl
  | cons v us ih =>
    rw [mergeUpdate]
    by_cases hv : v.address = u.address
    · simp [hv]
    · simp only [if_neg hv, List.map_cons, ih, List.mem_cons, Ne.symm hv, false_or]
      split <;> rfl

theorem nodup_mergeUpdate {us : List ValidatorUpdate} (u : ValidatorUpdate)
    (hn : (us.map ValidatorUpdate.address).Nodup) :
    ((mergeUpdate us u).map ValidatorUpdate.address).Nodup := by
  rw [addresses_mergeUpdate]
  split
  · exact hn
  · next hu => exact Keyed.nodup_concat hn hu

namespace Powers

variable {p : Powers} {us : List ValidatorUpdate}

theorem take_mergeUpdate (u : ValidatorUpdate) (hn : (us.map ValidatorUpdate.address).Nodup) :
    p.take (mergeUpdate us u) = (p.take us).set u := by
  induction us generalizing p with
  | nil => rfl
  | cons v us ih =>
    rw [List.map_cons, List.nodup_cons] at hn
    rw [mergeUpdate]
    by_cases hv : v.address = u.address
    · rw [if_pos hv, take_cons, take_cons, ← set_set hv]
      exact take_set (hv ▸ hn.1)
    · rw [if_neg hv, take_cons, take_cons]
      exact ih hn.2

theorem take_mergeUpdates (new : List ValidatorUpdate) (hn : (us.map ValidatorUpdate.address).Nodup) :
    p.take (mergeUpdates us new) = (p.take us).take new := by
  induction new generalizing us with
  | nil => rfl
  | cons u new ih =>
    rw [take_cons, ← take_mergeUpdate u hn]
    exact ih (nodup_mergeUpdate u hn)

end Powers

end StakeLedger.Engine
