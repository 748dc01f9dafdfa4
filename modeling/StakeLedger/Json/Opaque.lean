import StakeLedger.Json.Codec

/-!
Values that are kept as they are. The members of their records stand in strictly ascending order of
their keys; of members read with one key the last counts. Main statement: whatever is read is in
that order.
-/

namespace StakeLedger

namespace Json

def ascending : List (String × Json) → Bool
  | (k, _) :: (l, x) :: ms => k < l && ascending ((l, x) :: ms)
  | _ => true

mutual

def isCanonical : Json → Bool
  | .list items => itemsCanonical items
  | .record members => ascending members && membersCanonical members
  | _ => true

def itemsCanonical : List Json → Bool
  | [] => true
  | x :: xs => x.isCanonical && itemsCanonical xs

def membersCanonical : List (String × Json) → Bool
  | [] => true
  | (_, x) :: ms => x.isCanonical && membersCanonical ms

end

def insertMember (key : String) (value : Json) : List (String × Json) → List (String × Json)
  | [] => [(key, value)]
  | (k, x) :: ms =>
    if key < k then (key, value) :: (k, x) :: ms
    else if key = k then (key, value) :: ms
    else (k, x) :: insertMember key value ms

mutual

def Tree.value (room : Nat) : Tree → Except Fault Json
  | .fault => .error .malformed
  | .null => .ok .null
  | .bool b => .ok (.bool b)
  | .number n => match n with
    | some n => .ok (.number n)
    | none => .error .malformed
  | .text s => match s with
    | some s => .ok (.text s)
    | none => .error .malformed
  | .list items closed =>
    if room = 0 then .error .malformed
    else match Tree.values (room - 1) items with
      | .ok xs => if closed then .ok (.list xs) else .error .malformed
      | .error e => .error e
  | .record members closed =>
    if room = 0 then .error .malformed
    else match Tree.memberValues (room - 1) members [] with
      | .ok ms => if closed then .ok (.record ms) else .error .malformed
      | .error e => .error e

def Tree.values (room : Nat) : List Tree → Except Fault (List Json)
  | [] => .ok []
  | t :: ts => match Tree.value room t with
    | .ok x => (Tree.values room ts).map (x :: ·)
    | .error e => .error e

def Tree.memberValues (room : Nat) :
    List (Option String × Tree) → List (String × Json) → Except Fault (List (String × Json))
  | [], ms => .ok ms
  | (none, _) :: _, _ => .error .malformed
  | (some key, t) :: ts, ms => match Tree.value room t with
    | .ok x => Tree.memberValues room ts (insertMember key x ms)
    | .error e => .error e

end

theorem lt_of_not_lt_of_ne {a b : String} (h : ¬ a < b) (hne : a ≠ b) : b < a :=
  Decidable.byContradiction fun h' =>
    hne (String.le_antisymm (String.not_lt.1 h') (String.not_lt.1 h))

theorem ascending_cons {k : String} {x : Json} {ms : List (String × Json)}
    (h : ascending ms = true) (hk : ∀ m ∈ ms.head?, k < m.1) : ascending ((k, x) :: ms) = true := by
  cases ms with
  | nil => rfl
  | cons m ms => simpa [ascending, h] using hk m (by simp)

theorem ascending_tail {m : String × Json} {ms : List (String × Json)}
    (h : ascending (m :: ms) = true) : ascending ms = true := by
  cases ms with
  | nil => rfl
  | cons m' ms => simp only [ascending, Bool.and_eq_true] at h; exact h.2

theorem ascending_insertMember (key : String) (value : Json) (ms : List (String × Json))
    (h : ascending ms = true) :
    ascending (insertMember key value ms) = true ∧
      ∀ k, k < key → (∀ m ∈ ms.head?, k < m.1) → ∀ m ∈ (insertMember key value ms).head?, k < m.1 := by
  induction ms with
  | nil => exact ⟨rfl, fun k hk _ m hm => by simp [insertMember] at hm; subst hm; exact hk⟩
  | cons m ms ih =>
    obtain ⟨l, x⟩ := m
    unfold insertMember
    split
    · next hlt =>
      refine ⟨by simp [ascending, h, hlt], fun k hk _ m hm => ?_⟩
      simp at hm; subst hm; exact hk
    · next hlt =>
      split
      · next heq =>
        subst heq
        refine ⟨ascending_cons (ascending_tail h) fun m hm => ?_, fun k hk _ m hm => ?_⟩
        · cases ms with
          | nil => simp at hm
          | cons m' ms =>
            simp at hm; subst hm
            simp only [ascending, Bool.and_eq_true, decide_eq_true_eq] at h
            exact h.1
        · simp at hm; subst hm; exact hk
      · next hne =>
        obtain ⟨ih1, ih2⟩ := ih (ascending_tail h)
        refine ⟨ascending_cons ih1 (ih2 l (lt_of_not_lt_of_ne hlt hne) fun m hm => ?_),
          fun k _ hk m hm => ?_⟩
        · cases ms with
          | nil => simp at hm
          | cons m' ms =>
            simp at hm; subst hm
            simp only [ascending, Bool.and_eq_true, decide_eq_true_eq] at h
            exact h.1
        · simp at hm; subst hm; exact hk _ (by simp)

theorem membersCanonical_insertMember (key : String) (value : Json) (ms : List (String × Json))
    (hv : value.isCanonical = true) (h : membersCanonical ms = true) :
    membersCanonical (insertMember key value ms) = true := by
  induction ms with
  | nil => simp [insertMember, membersCanonical, hv]
  | cons m ms ih =>
    obtain ⟨k, x⟩ := m
    simp only [membersCanonical, Bool.and_eq_true] at h
    unfold insertMember
    split
    · simp [membersCanonical, hv, h]
    · split
      · simp [membersCanonical, hv, h]
      · simp [membersCanonical, h, ih]

mutual

theorem isCanonical_of_value (room : Nat) (t : Tree) (j : Json) (h : t.value room = .ok j) :
    j.isCanonical = true := by
  match t with
  | .fault => simp [Tree.value] at h
  | .null => simp [Tree.value] at h; subst h; rfl
  | .bool b => simp [Tree.value] at h; subst h; rfl
  | .number none => simp [Tree.value] at h
  | .number (some n) => simp [Tree.value] at h; subst h; rfl
  | .text none => simp [Tree.value] at h
  | .text (some s) => simp [Tree.value] at h; subst h; rfl
  | .list items closed =>
    unfold Tree.value at h
    split at h
    · cases h
    · split at h
      · next xs hxs =>
        split at h
        · cases h
          simpa [isCanonical] using itemsCanonical_of_values (room - 1) items xs hxs
        · cases h
      · cases h
  | .record members closed =>
    unfold Tree.value at h
    split at h
    · cases h
    · split at h
      · next ms hms =>
        split at h
        · cases h
          simpa [isCanonical] using
            canonical_of_memberValues (room - 1) members [] ms hms rfl rfl
        · cases h
      · cases h

theorem itemsCanonical_of_values (room : Nat) (ts : List Tree) (xs : List Json)
    (h : Tree.values room ts = .ok xs) : itemsCanonical xs = true := by
  match ts with
  | [] => simp [Tree.values] at h; subst h; rfl
  | t :: ts =>
    unfold Tree.values at h
    split at h
    · next x hx =>
      cases hts : Tree.values room ts with
      | error e => simp [hts, Except.map] at h
      | ok ys =>
        simp [hts, Except.map] at h
        subst h
        simp [itemsCanonical, isCanonical_of_value room t x hx,
          itemsCanonical_of_values room ts ys hts]
    · cases h

theorem canonical_of_memberValues (room : Nat) (ts : List (Option String × Tree))
    (ms ms' : List (String × Json)) (h : Tree.memberValues room ts ms = .ok ms')
    (ha : ascending ms = true) (hc : membersCanonical ms = true) :
    ascending ms' = true ∧ membersCanonical ms' = true := by
  match ts with
  | [] => simp [Tree.memberValues] at h; subst h; exact ⟨ha, hc⟩
  | (none, _) :: _ => simp [Tree.memberValues] at h
  | (some key, t) :: ts =>
    unfold Tree.memberValues at h
    split at h
    · next x hx =>
      exact canonical_of_memberValues room ts _ ms' h (ascending_insertMember key x ms ha).1
        (membersCanonical_insertMember key x ms (isCanonical_of_value room t x hx) hc)
    · cases h

end

end Json

structure Opaque where
  value : Json
  canonical : value.isCanonical = true
  deriving DecidableEq, Repr

namespace Opaque

def null : Opaque := ⟨.null, rfl⟩

instance : Inhabited Opaque := ⟨null⟩

def read (room : Nat) (t : Json.Tree) : Except Fault Opaque :=
  match h : t.value room with
  | .ok j => .ok ⟨j, Json.isCanonical_of_value room t j h⟩
  | .error e => .error e

def ofJson (j : Json) : Opaque :=
  match read j.depth j.toTree with
  | .ok x => x
  | .error _ => null

end Opaque

def Codec.opaqueValue : Codec Opaque where
  write := Opaque.value
  read := Opaque.read

end StakeLedger
