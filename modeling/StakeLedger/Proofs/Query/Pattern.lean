import StakeLedger.Query.Pattern

/-!
Where a pattern can lead. A matcher is given what comes after it, so that all it does is to choose the places at which
that is tried; what relates each of them to the place it started from is read off the constructors of the pattern.
Main statements: `Pattern.leads` and `Pattern.first_of_no_group`.
-/

namespace StakeLedger.Query

variable {c : Char} {cs : List Char} {here : Place} {k : Place → Option Place} {m m' : Matcher} {p q : Pattern}

def Place.after (here : Place) (c : Char) (rest : List Char) : Place :=
  { here with before := some c, rest, offset := here.offset + 1 }

theorem one_nil {s : CharSet} (h : here.rest = []) : Matcher.one s here k = none := by
  rw [Matcher.one.eq_def, h]

theorem one_cons {s : CharSet} (h : here.rest = c :: cs) :
    Matcher.one s here k = if s.contains c then k (here.after c cs) else none := by
  rw [Matcher.one.eq_def, h]
  rfl

theorem matcher_seq : (Pattern.seq p q).matcher here k = p.matcher here fun there => q.matcher there k := by
  rw [Pattern.matcher]

theorem matcher_either : (Pattern.either p q).matcher here k = (p.matcher here k).or (q.matcher here k) := by
  rw [Pattern.matcher]
  dsimp only
  cases p.matcher here k with
  | none => rfl
  | some x => rfl

namespace Matcher

def Leads (R : Place → Place → Prop) (m : Matcher) : Prop :=
  ∀ here k x, m here k = some x → ∃ there, R here there ∧ k there = some x

variable {R : Place → Place → Prop}

theorem leads_one {s : CharSet}
    (h : ∀ here c rest, here.rest = c :: rest → s.contains c = true → R here (here.after c rest)) :
    Leads R (one s) := by
  intro here k x hx
  cases hrest : here.rest with
  | nil => simp [one_nil hrest] at hx
  | cons c rest =>
    rw [one_cons hrest, Option.ite_none_right_eq_some] at hx
    exact ⟨_, h here c rest hrest hx.1, hx.2⟩

theorem leads_when (hrefl : ∀ here, R here here) (condition : Place → Bool) : Leads R (.when condition) := by
  intro here k x hx
  rw [Matcher.when, Option.ite_none_right_eq_some] at hx
  exact ⟨here, hrefl here, hx.2⟩

theorem Leads.group (hm : Leads R m) (number : Nat)
    (h : number = 1 → ∀ here there first, R here there → R here { there with first := first }) :
    Leads R (.group number m) := by
  intro here k x hx
  obtain ⟨there, hthere, hk⟩ := hm here _ x hx
  split at hk
  · next hnumber => exact ⟨_, h hnumber here there _ hthere, hk⟩
  · exact ⟨there, hthere, hk⟩

theorem Leads.iterate (hrefl : ∀ here, R here here) (htrans : ∀ a b c, R a b → R b c → R a c) (hm : Leads R m)
    (greedy : Bool) (n : Nat) : Leads R (m.iterate greedy n) := by
  induction n with
  | zero => exact fun here k x hx => ⟨here, hrefl here, hx⟩
  | succ n ih =>
    intro here k x hx
    have hmore : ∀ y, m here (fun there =>
        if here.offset < there.offset then m.iterate greedy n there k else none) = some y →
        ∃ there, R here there ∧ k there = some y := by
      intro y hy
      obtain ⟨there, hthere, hk⟩ := hm here _ y hy
      rw [Option.ite_none_right_eq_some] at hk
      obtain ⟨last, hlast, hk⟩ := ih there k y hk.2
      exact ⟨last, htrans _ _ _ hthere hlast, hk⟩
    rw [Matcher.iterate] at hx
    cases greedy
    · simp only [Bool.false_eq_true, if_false] at hx
      split at hx
      · next y hy => exact ⟨here, hrefl here, hy.trans hx⟩
      · exact hmore x hx
    · simp only [if_true] at hx
      split at hx
      · next y hy => exact hmore x (hy.trans hx)
      · exact ⟨here, hrefl here, hx⟩

theorem Leads.many (hrefl : ∀ here, R here here) (htrans : ∀ a b c, R a b → R b c → R a c) (hm : Leads R m)
    (greedy : Bool) : Leads R (m.many greedy) := by
  intro here k x hx
  obtain ⟨there, hthere, hk⟩ := hm here _ x hx
  split at hk
  · obtain ⟨last, hlast, hk⟩ := hm.iterate hrefl htrans greedy _ there k x hk
    exact ⟨last, htrans _ _ _ hthere hlast, hk⟩
  · exact ⟨there, hthere, hk⟩

end Matcher

namespace Pattern

def sets : Pattern → List CharSet
  | one s => [s]
  | seq p q | either p q => p.sets ++ q.sets
  | group _ p | many _ p => p.sets
  | _ => []

def groups : Pattern → List Nat
  | seq p q | either p q => p.groups ++ q.groups
  | group number p => number :: p.groups
  | many _ p => p.groups
  | _ => []

theorem leads {R : Place → Place → Prop} (hrefl : ∀ here, R here here) (htrans : ∀ a b c, R a b → R b c → R a c)
    (p : Pattern)
    (hone : ∀ s ∈ p.sets, ∀ here c rest, here.rest = c :: rest → s.contains c = true → R here (here.after c rest))
    (hgroup : 1 ∈ p.groups → ∀ here there first, R here there → R here { there with first := first }) :
    p.matcher.Leads R := by
  induction p with
  | empty => exact fun here k x hx => ⟨here, hrefl here, hx⟩
  | one s => exact Matcher.leads_one (hone s (List.mem_singleton_self s))
  | textStart | textEnd | lineStart | lineEnd | wordBoundary => exact Matcher.leads_when hrefl _
  | seq p q ihp ihq =>
    intro here k x hx
    rw [matcher_seq] at hx
    have hp := ihp (fun s hs => hone s (List.mem_append_left _ hs)) fun h => hgroup (List.mem_append_left _ h)
    have hq := ihq (fun s hs => hone s (List.mem_append_right _ hs)) fun h => hgroup (List.mem_append_right _ h)
    obtain ⟨there, hthere, hk⟩ := hp here _ x hx
    obtain ⟨last, hlast, hk⟩ := hq there k x hk
    exact ⟨last, htrans _ _ _ hthere hlast, hk⟩
  | either p q ihp ihq =>
    intro here k x hx
    rw [matcher_either, Option.or_eq_some_iff] at hx
    have hp := ihp (fun s hs => hone s (List.mem_append_left _ hs)) fun h => hgroup (List.mem_append_left _ h)
    have hq := ihq (fun s hs => hone s (List.mem_append_right _ hs)) fun h => hgroup (List.mem_append_right _ h)
    rcases hx with hx | ⟨-, hx⟩
    · exact hp here k x hx
    · exact hq here k x hx
  | group number p ih =>
    apply Matcher.Leads.group (ih hone fun h => hgroup (List.mem_cons_of_mem _ h))
    rintro rfl
    exact hgroup List.mem_cons_self
  | many greedy p ih => exact (ih hone hgroup).many hrefl htrans greedy

theorem exists_of_search {place : Place} {before : Option Char} {offset : Nat} {text : List Char}
    (h : p.search before offset text = some place) :
    ∃ before offset rest, p.matcher ⟨before, rest, offset, none⟩ some = some place := by
  induction text generalizing before offset with
  | nil =>
    rw [search] at h
    split at h
    · next hx => exact ⟨before, offset, [], hx.trans h⟩
    · cases h
  | cons c rest ih =>
    rw [search] at h
    split at h
    · next hx => exact ⟨before, offset, c :: rest, hx.trans h⟩
    · exact ih h

theorem first_of_no_group {place : Place} {text : List Char} (hp : 1 ∉ p.groups)
    (h : p.search none 0 text = some place) : place.first = none := by
  obtain ⟨before, offset, rest, hx⟩ := exists_of_search h
  have hkept : p.matcher.Leads (fun here there => there.first = here.first) := by
    apply leads (R := fun here there => there.first = here.first) (fun _ => rfl) (fun _ _ _ hab hbc => hbc.trans hab)
    · intro _ _ _ _ _ _ _
      rfl
    · exact fun h => absurd h hp
  obtain ⟨there, hthere, hk⟩ := hkept _ _ _ hx
  cases hk
  exact hthere

end Pattern

end StakeLedger.Query
