import StakeLedger.Bytes.Basic

/-! Groups are cut off one after the other: those done do not bear on those to come. -/

namespace StakeLedger

variable {α : Type} {n : Nat}

def Grouping.after (done : List (List α)) (g : Grouping α) : Grouping α := { g with done := g.done ++ done }

theorem Grouping.push_after (done : List (List α)) (g : Grouping α) (x : α) :
    (g.after done).push n x = (g.push n x).after done := by
  by_cases h : g.size + 1 < n
  · have hpush : g.push n x = ⟨g.done, x :: g.group, g.size + 1⟩ := if_pos h
    rw [hpush]
    exact if_pos h
  · have hpush : g.push n x = ⟨(x :: g.group).reverse :: g.done, [], 0⟩ := if_neg h
    rw [hpush]
    exact if_neg h

theorem Grouping.foldl_after (done : List (List α)) (g : Grouping α) (xs : List α) :
    xs.foldl (push n) (g.after done) = (xs.foldl (push n) g).after done := by
  induction xs generalizing g with
  | nil => rfl
  | cons x xs ih => rw [List.foldl_cons, List.foldl_cons, push_after, ih]

theorem Grouping.toList_after (done : List (List α)) (g : Grouping α) :
    (g.after done).toList = done.reverse ++ g.toList := by
  obtain ⟨_, group, _⟩ := g
  cases group with
  | nil => exact List.reverse_append
  | cons x xs => exact @List.reverse_append _ ((x :: xs).reverse :: _) done

theorem toList_foldl_push (n : Nat) (done : List (List α)) (xs : List α) :
    (xs.foldl (Grouping.push n) ⟨done, [], 0⟩).toList = done.reverse ++ groups n xs := by
  rw [groups, ← Grouping.toList_after, ← Grouping.foldl_after]
  rfl

theorem groups_two (a b : α) (rest : List α) : groups 2 (a :: b :: rest) = [a, b] :: groups 2 rest :=
  toList_foldl_push 2 [[a, b]] rest

theorem groups_three (a b c : α) (rest : List α) : groups 3 (a :: b :: c :: rest) = [a, b, c] :: groups 3 rest :=
  toList_foldl_push 3 [[a, b, c]] rest

end StakeLedger
