import StakeLedger.Json.Opaque
import StakeLedger.Proofs.Outcome

namespace StakeLedger

namespace Json

theorem pairwise_of_ascending {ms : List (String × Json)} (h : ascending ms = true) :
    ms.Pairwise fun m n => m.1 < n.1 := by
  induction ms with
  | nil => exact .nil
  | cons m ms ih =>
    have hms := ih (ascending_tail h)
    refine List.pairwise_cons.mpr ⟨fun n hn => ?_, hms⟩
    cases ms with
    | nil => cases hn
    | cons m' ms =>
      simp only [ascending, Bool.and_eq_true, decide_eq_true_eq] at h
      rcases List.mem_cons.mp hn with rfl | hn
      · exact h.1
      · exact String.lt_trans h.1 ((List.pairwise_cons.mp hms).1 n hn)

theorem lookup_of_mem {name : String} {x : Json} {ms : List (String × Json)} (h : ascending ms = true)
    (hm : (name, x) ∈ ms) : ms.lookup name = some x := by
  induction ms with
  | nil => cases hm
  | cons m ms ih =>
    rcases List.mem_cons.mp hm with rfl | hm
    · exact List.lookup_cons_self
    · have hlt := (List.pairwise_cons.mp (pairwise_of_ascending h)).1 (name, x) hm
      have hne : (name == m.1) = false := beq_eq_false_iff_ne.mpr fun he => String.lt_irrefl _ (he ▸ hlt)
      rw [List.lookup_cons, hne]
      exact ih (ascending_tail h) hm

theorem canonical_of_mem {m : String × Json} {ms : List (String × Json)} (h : membersCanonical ms = true)
    (hm : m ∈ ms) : m.2.isCanonical = true := by
  induction ms with
  | nil => cases hm
  | cons n ms ih =>
    rw [membersCanonical, Bool.and_eq_true] at h
    rcases List.mem_cons.mp hm with rfl | hm
    · exact h.1
    · exact ih h.2 hm

theorem insertMember_of_lt {key : String} {value : Json} {ms : List (String × Json)}
    (h : ∀ m ∈ ms, m.1 < key) : insertMember key value ms = ms ++ [(key, value)] := by
  induction ms with
  | nil => rfl
  | cons m ms ih =>
    obtain ⟨hm, hms⟩ := List.forall_mem_cons.mp h
    rw [insertMember, if_neg fun hlt => String.lt_irrefl _ (String.lt_trans hm hlt),
      if_neg fun he => String.lt_irrefl _ (he ▸ hm), ih hms]
    rfl

theorem lookup_insertMember (key : String) (value : Json) (ms : List (String × Json)) (name : String) :
    (insertMember key value ms).lookup name = if name = key then some value else ms.lookup name := by
  induction ms with
  | nil =>
    rw [insertMember, List.lookup_cons]
    by_cases hn : name = key
    · simp [hn]
    · simp [hn, beq_eq_false_iff_ne.mpr hn]
  | cons m ms ih =>
    obtain ⟨k, x⟩ := m
    rw [insertMember]
    by_cases hn : name = key
    · subst hn
      rw [if_pos rfl] at ih ⊢
      split
      · exact List.lookup_cons_self
      · split
        · exact List.lookup_cons_self
        · next hne => rw [List.lookup_cons, beq_eq_false_iff_ne.mpr hne, ih]
    · rw [if_neg hn] at ih ⊢
      split
      · rw [List.lookup_cons, beq_eq_false_iff_ne.mpr hn]
      · split
        · next he =>
          subst he
          rw [List.lookup_cons, List.lookup_cons, beq_eq_false_iff_ne.mpr hn]
        · rw [List.lookup_cons, List.lookup_cons, ih]

theorem depthMembers_insertMember (key : String) (value : Json) (ms : List (String × Json)) :
    depthMembers (insertMember key value ms) ≤ max value.depth (depthMembers ms) := by
  induction ms with
  | nil => exact Nat.le_refl _
  | cons m ms ih =>
    obtain ⟨k, x⟩ := m
    rw [insertMember]
    split
    · exact Nat.le_refl _
    · split
      · simp only [depthMembers]
        omega
      · simp only [depthMembers]
        omega

mutual

theorem value_toTree (room : Nat) : ∀ j : Json, j.isCanonical = true → j.depth ≤ room →
    j.toTree.value room = .ok j
  | .null, _, _ => rfl
  | .bool _, _, _ => rfl
  | .number _, _, _ => rfl
  | .text _, _, _ => rfl
  | .list items, hc, hd => by
    rw [depth] at hd
    rw [toTree, Tree.value, if_neg (by omega), values_itemTrees (room - 1) items hc (by omega)]
    rfl
  | .record members, hc, hd => by
    rw [depth] at hd
    rw [isCanonical, Bool.and_eq_true] at hc
    rw [toTree, Tree.value, if_neg (by omega),
      memberValues_memberTrees (room - 1) members [] hc.1 hc.2 (by omega)]
    rfl

theorem values_itemTrees (room : Nat) : ∀ xs : List Json, itemsCanonical xs = true →
    depthItems xs ≤ room → Tree.values room (itemTrees xs) = .ok xs
  | [], _, _ => rfl
  | x :: xs, hc, hd => by
    rw [itemsCanonical, Bool.and_eq_true] at hc
    rw [depthItems] at hd
    rw [itemTrees, Tree.values, value_toTree room x hc.1 (by omega), values_itemTrees room xs hc.2 (by omega)]
    rfl

theorem memberValues_memberTrees (room : Nat) : ∀ ms before : List (String × Json),
    ascending (before ++ ms) = true → membersCanonical ms = true → depthMembers ms ≤ room →
      Tree.memberValues room (memberTrees ms) before = .ok (before ++ ms)
  | [], before, _, _, _ => by
    rw [List.append_nil]
    rfl
  | (k, x) :: ms, before, ha, hc, hd => by
    rw [membersCanonical, Bool.and_eq_true] at hc
    rw [depthMembers] at hd
    have hlast : ∀ m ∈ before, m.1 < k := fun m hm =>
      (List.pairwise_append.mp (pairwise_of_ascending ha)).2.2 m hm (k, x) List.mem_cons_self
    rw [List.append_cons] at ha ⊢
    rw [memberTrees, Tree.memberValues, value_toTree room x hc.1 (by omega)]
    dsimp only
    rw [insertMember_of_lt hlast]
    exact memberValues_memberTrees room ms (before ++ [(k, x)]) ha hc.2 (by omega)

end

mutual

theorem depth_of_value (room : Nat) : ∀ (t : Tree) (j : Json), t.value room = .ok j → j.depth ≤ room
  | .fault, _, h => by cases h
  | .null, _, h | .bool _, _, h | .number (some _), _, h | .text (some _), _, h => by
    cases h
    exact Nat.zero_le room
  | .number none, _, h | .text none, _, h => by cases h
  | .list items closed, j, h => by
    rw [Tree.value] at h
    split at h
    · cases h
    · split at h
      · next xs hxs =>
        have hdepth := depth_of_values (room - 1) items xs hxs
        split at h
        · cases h
          rw [depth]
          omega
        · cases h
      · cases h
  | .record members closed, j, h => by
    rw [Tree.value] at h
    split at h
    · cases h
    · split at h
      · next ms hms =>
        have hdepth := depth_of_memberValues (room - 1) members [] ms hms (Nat.zero_le _)
        split at h
        · cases h
          rw [depth]
          omega
        · cases h
      · cases h

theorem depth_of_values (room : Nat) : ∀ (ts : List Tree) (xs : List Json),
    Tree.values room ts = .ok xs → depthItems xs ≤ room
  | [], _, h => by
    cases h
    exact Nat.zero_le room
  | t :: ts, xs, h => by
    rw [Tree.values] at h
    split at h
    · next x hx =>
      have hhead := depth_of_value room t x hx
      obtain ⟨ys, hts, rfl⟩ := map_eq_ok.mp h
      have htail := depth_of_values room ts ys hts
      rw [depthItems]
      omega
    · cases h

theorem depth_of_memberValues (room : Nat) : ∀ (ts : List (Option String × Tree))
    (before ms : List (String × Json)), Tree.memberValues room ts before = .ok ms →
      depthMembers before ≤ room → depthMembers ms ≤ room
  | [], _, _, h, hb => by
    cases h
    exact hb
  | (none, _) :: _, _, _, h, _ => by cases h
  | (some key, t) :: ts, before, ms, h, hb => by
    rw [Tree.memberValues] at h
    split at h
    · next x hx =>
      have hhead := depth_of_value room t x hx
      have hinsert := depthMembers_insertMember key x before
      exact depth_of_memberValues room ts _ ms h (by omega)
    · cases h

end

theorem eq_null_of_value {room : Nat} {t : Tree} (h : t.value room = .ok .null) : t = .null := by
  cases t with
  | fault => cases h
  | null => rfl
  | bool b => cases h
  | number n => cases n <;> cases h
  | text s => cases s <;> cases h
  | list items closed =>
    rw [Tree.value] at h
    repeat' split at h
    all_goals cases h
  | record members closed =>
    rw [Tree.value] at h
    repeat' split at h
    all_goals cases h

end Json

namespace Opaque

theorem value_of_read {room : Nat} {t : Json.Tree} {x : Opaque} (h : read room t = .ok x) :
    t.value room = .ok x.value := by
  rw [read] at h
  split at h
  · next j hj =>
    cases h
    exact hj
  · cases h

theorem read_of_value {room : Nat} {t : Json.Tree} {x : Opaque} (h : t.value room = .ok x.value) :
    read room t = .ok x := by
  rw [read]
  split
  · next j hj =>
    obtain ⟨value, canonical⟩ := x
    rw [hj] at h
    cases h
    rfl
  · next e he =>
    rw [he] at h
    cases h

theorem value_ofJson {j : Json} (h : j.isCanonical = true) : (ofJson j).value = j := by
  rw [ofJson, read_of_value (x := ⟨j, h⟩) (Json.value_toTree j.depth j h (Nat.le_refl _))]

end Opaque

end StakeLedger
