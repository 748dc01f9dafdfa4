/-! Lists whose entries are looked up by a key of theirs, and the keys in the order in which they are met first. -/

namespace StakeLedger.Keyed

variable {α : Type} {key : α → String} {x : α} {xs : List α} {a : String}

theorem find?_cons (key : α → String) (x : α) (xs : List α) (a : String) :
    (x :: xs).find? (key · == a) = if key x = a then some x else xs.find? (key · == a) := by
  rw [List.find?_cons]
  by_cases h : key x = a
  · simp [h]
  · simp only [beq_eq_false_iff_ne.mpr h, if_neg h]

theorem find?_isSome : (xs.find? (key · == a)).isSome ↔ a ∈ xs.map key := by
  rw [List.find?_isSome, List.mem_map]
  simp only [beq_iff_eq]

theorem find?_of_mem (hn : (xs.map key).Nodup) (hx : x ∈ xs) : xs.find? (key · == key x) = some x := by
  induction xs with
  | nil => cases hx
  | cons y xs ih =>
    rw [List.map_cons, List.nodup_cons] at hn
    rw [find?_cons]
    rcases List.mem_cons.mp hx with rfl | hx
    · exact if_pos rfl
    · have hne : key y ≠ key x := fun he => hn.1 (he ▸ List.mem_map_of_mem hx)
      rw [if_neg hne]
      exact ih hn.2 hx

theorem nodup_concat {as : List String} (hn : as.Nodup) (ha : a ∉ as) : (as ++ [a]).Nodup := by
  refine List.nodup_append.mpr ⟨hn, by simp, fun b hb c hc => ?_⟩
  rw [List.mem_singleton.mp hc]
  exact fun he => ha (he ▸ hb)

theorem eraseDups_concat (as : List String) (a : String) :
    (as ++ [a]).eraseDups = if a ∈ as then as.eraseDups else as.eraseDups ++ [a] := by
  rw [List.eraseDups_append, List.removeAll, List.filter_cons, List.filter_nil]
  by_cases h : a ∈ as
  · simp [h]
  · simp [h, List.eraseDups_cons]

end StakeLedger.Keyed
