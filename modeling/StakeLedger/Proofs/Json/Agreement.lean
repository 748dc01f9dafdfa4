import StakeLedger.Proofs.Json.Lookup

/-!
A type is read of a text as it is read of the value that the text stands for, as long as no record in the text has
two members of one name.
-/

namespace StakeLedger

namespace Json

mutual

def Tree.keysDistinct : Tree → Bool
  | .list items _ => itemsDistinct items
  | .record members _ => (members.map Prod.fst).Nodup && membersDistinct members
  | _ => true

def itemsDistinct : List Tree → Bool
  | [] => true
  | t :: ts => t.keysDistinct && itemsDistinct ts

def membersDistinct : List (Option String × Tree) → Bool
  | [] => true
  | (_, t) :: ms => t.keysDistinct && membersDistinct ms

end

inductive Tree.Stands (room : Nat) : Tree → Json → Prop
  | null : Stands room .null .null
  | bool {b} : Stands room (.bool b) (.bool b)
  | number {n} : Stands room (.number (some n)) (.number n)
  | text {s} : Stands room (.text (some s)) (.text s)
  | list {items xs} : room ≠ 0 → Tree.values (room - 1) items = .ok xs → Stands room (.list items true) (.list xs)
  | record {members ms} : room ≠ 0 → Tree.memberValues (room - 1) members [] = .ok ms →
      Stands room (.record members true) (.record ms)

variable {room depth : Nat} {t : Tree} {j x : Json} {items : List Tree} {xs : List Json}
  {members : List (Option String × Tree)} {ms before : List (String × Json)} {name : String}

theorem stands_of_value (h : t.value room = .ok j) : t.Stands room j := by
  cases t with
  | fault => cases h
  | null =>
    cases h
    exact .null
  | bool b =>
    cases h
    exact .bool
  | number n =>
    cases n <;> cases h
    exact .number
  | text s =>
    cases s <;> cases h
    exact .text
  | list items closed =>
    rw [Tree.value] at h
    split at h
    · cases h
    · next h0 =>
      split at h
      · next xs hxs =>
        cases closed <;> cases h
        exact .list h0 hxs
      · cases h
  | record members closed =>
    rw [Tree.value] at h
    split at h
    · cases h
    · next h0 =>
      split at h
      · next ms hms =>
        cases closed <;> cases h
        exact .record h0 hms
      · cases h

theorem values_cons (h : Tree.values room (t :: items) = .ok xs) :
    ∃ x ys, t.value room = .ok x ∧ Tree.values room items = .ok ys ∧ xs = x :: ys := by
  rw [Tree.values] at h
  split at h
  · next x hx =>
    obtain ⟨ys, hys, rfl⟩ := map_eq_ok.mp h
    exact ⟨x, ys, hx, hys, rfl⟩
  · cases h

theorem memberValues_cons {key : Option String}
    (h : Tree.memberValues room ((key, t) :: members) before = .ok ms) :
    ∃ k x, key = some k ∧ t.value room = .ok x ∧ Tree.memberValues room members (insertMember k x before) = .ok ms := by
  cases key with
  | none => cases h
  | some k =>
    rw [Tree.memberValues] at h
    split at h
    · next x hx => exact ⟨k, x, rfl, hx, h⟩
    · cases h

theorem named_of_memberValues (h : Tree.memberValues room members before = .ok ms) : ∀ m ∈ members, m.1 ≠ none := by
  induction members generalizing before with
  | nil => exact nofun
  | cons m members ih =>
    obtain ⟨key, t⟩ := m
    obtain ⟨k, x, rfl, -, hrest⟩ := memberValues_cons h
    exact List.forall_mem_cons.mpr ⟨nofun, ih hrest⟩

theorem lookup_memberValues (h : Tree.memberValues room members before = .ok ms)
    (hn : (members.map Prod.fst).Nodup) (name : String) :
    match members.lookup (some name) with
    | some t => ∃ x, t.value room = .ok x ∧ ms.lookup name = some x
    | none => ms.lookup name = before.lookup name := by
  induction members generalizing before with
  | nil =>
    cases h
    rfl
  | cons m members ih =>
    obtain ⟨key, t⟩ := m
    obtain ⟨k, x, rfl, hx, hrest⟩ := memberValues_cons h
    obtain ⟨hnew, hn⟩ := List.nodup_cons.mp hn
    have hlater := ih hrest hn
    by_cases hk : name = k
    · subst hk
      have hnone : members.lookup (some name) = none := by
        rw [List.lookup_eq_none_iff]
        intro m hm
        simpa using fun he => hnew (List.mem_map.mpr ⟨m, hm, he.symm⟩)
      rw [hnone] at hlater
      rw [List.lookup_cons_self]
      exact ⟨x, hx, by rw [hlater, lookup_insertMember, if_pos rfl]⟩
    · have hne : (some name == some k) = false := by simpa using hk
      rw [List.lookup_cons, hne]
      simpa only [lookup_insertMember, if_neg hk] using hlater

theorem nodup_of_ascending (h : ascending ms = true) : (ms.map Prod.fst).Nodup := by
  rw [List.nodup_iff_pairwise_ne, List.pairwise_map]
  refine (pairwise_of_ascending h).imp fun hlt he => ?_
  rw [he] at hlt
  exact String.lt_irrefl _ hlt

theorem distinct_of_lookup (h : membersDistinct members = true) (hl : members.lookup (some name) = some t) :
    t.keysDistinct = true := by
  induction members with
  | nil => cases hl
  | cons m members ih =>
    rw [membersDistinct, Bool.and_eq_true] at h
    rw [List.lookup_cons] at hl
    split at hl
    · cases hl
      exact h.1
    · exact ih h.2 hl

end Json

namespace Codec

open Json

variable {α : Type} {c : Codec α} {room depth : Nat} {t : Tree} {j : Json}

structure Agrees (c : Codec α) : Prop where
  read {room depth : Nat} {t : Tree} {j : Json} {x : α} : t.value room = .ok j → t.keysDistinct = true →
    j.depth ≤ depth → (c.read depth j.toTree = .ok x ↔ c.read room t = .ok x)

theorem agrees_text : text.Agrees := by
  refine ⟨fun {room depth t j x} h _ _ => ?_⟩
  cases stands_of_value h <;> exact Iff.rfl

theorem agrees_opaqueValue : opaqueValue.Agrees := by
  refine ⟨fun {room depth t j x} h _ hd => ?_⟩
  have hread : ∀ {room t}, Opaque.read room t = .ok x ↔ t.value room = .ok x.value :=
    ⟨Opaque.value_of_read, Opaque.read_of_value⟩
  have hvalue := value_toTree depth j (isCanonical_of_value room t j h) hd
  exact hread.trans (by rw [hvalue, ← h]) |>.trans hread.symm

theorem Agrees.optional (hc : c.Agrees) : c.optional.Agrees := by
  refine ⟨fun {room depth t j x} h hk hd => ?_⟩
  by_cases ht : t = .null
  · subst ht
    cases h
    exact Iff.rfl
  · have hj : j ≠ .null := by
      rintro rfl
      exact ht (eq_null_of_value h)
    rw [read_optional ht, read_optional (toTree_ne_null hj), map_eq_ok, map_eq_ok]
    exact exists_congr fun y => and_congr_left fun _ => hc.read h hk hd

theorem Agrees.mapM (hc : c.Agrees) {items : List Tree} {js : List Json} {xs : List α}
    (h : Tree.values room items = .ok js) (hk : itemsDistinct items = true) (hd : depthItems js ≤ depth) :
    (itemTrees js).mapM (c.read depth) = .ok xs ↔ items.mapM (c.read room) = .ok xs := by
  induction items generalizing js xs with
  | nil =>
    cases h
    exact Iff.rfl
  | cons t items ih =>
    obtain ⟨j, js, hj, hjs, rfl⟩ := values_cons h
    rw [itemsDistinct, Bool.and_eq_true] at hk
    rw [depthItems, Nat.max_le] at hd
    rw [itemTrees, List.mapM_cons, List.mapM_cons, bind_eq_ok, bind_eq_ok]
    refine exists_congr fun y => and_congr (hc.read hj hk.1 hd.1) ?_
    rw [bind_eq_ok, bind_eq_ok]
    exact exists_congr fun ys => and_congr_left fun _ => ih hjs hk.2 hd.2

theorem Agrees.list (hc : c.Agrees) : (list c).Agrees := by
  refine ⟨fun {room depth t j xs} h hk hd => ?_⟩
  cases stands_of_value h with
  | @list items js h0 hjs =>
    rw [Json.depth] at hd
    rw [toTree, read_list h0, read_list (by omega)]
    exact hc.mapM hjs hk (by omega)
  | _ => exact Iff.rfl

end Codec

namespace Json

variable {α : Type} {as : List Type} {room depth : Nat} {members : List (Option String × Tree)}
  {ms : List (String × Json)}

theorem Field.picks_agrees {f : Field α} {x : α} (hf : f.codec.Agrees)
    (h : Tree.memberValues room members [] = .ok ms) (hn : (members.map Prod.fst).Nodup)
    (hk : membersDistinct members = true) (hd : depthMembers ms ≤ depth) :
    f.Picks depth (memberTrees ms) x ↔ f.Picks room members x := by
  have hlookup := lookup_memberValues h hn f.name
  rw [Picks, Picks, lookup_memberTrees]
  cases hl : members.lookup (some f.name) with
  | none =>
    rw [hl] at hlookup
    dsimp only at hlookup
    rw [hlookup]
    exact Iff.rfl
  | some t =>
    rw [hl] at hlookup
    obtain ⟨j, hj, hm⟩ := hlookup
    rw [hm]
    exact hf.read hj (distinct_of_lookup hk hl) (Nat.le_trans (depth_le_of_mem (mem_of_lookup hm)) hd)

namespace Fields

theorem readItems_agrees {fields : Fields as} (hf : fields.Each fun f => f.codec.Agrees) {items : List Tree}
    {js : List Json} (h : Tree.values room items = .ok js) (hk : itemsDistinct items = true)
    (hd : depthItems js ≤ depth) {row : Row as} :
    fields.readItems depth (itemTrees js) true = .ok row ↔ fields.readItems room items true = .ok row := by
  induction fields generalizing items js with
  | nil =>
    cases items with
    | nil =>
      cases h
      exact Iff.rfl
    | cons t items =>
      obtain ⟨j, js, -, -, rfl⟩ := values_cons h
      exact Iff.rfl
  | cons field rest ih =>
    obtain ⟨x, row⟩ := row
    cases items with
    | nil =>
      cases h
      have hnil : Tree.values room [] = .ok [] := rfl
      rw [itemTrees, readItems, readItems, if_pos rfl, if_pos rfl]
      cases field.beyond with
      | none => exact Iff.rfl
      | some y =>
        dsimp only
        rw [map_eq_ok, map_eq_ok]
        exact exists_congr fun later => and_congr_left fun _ => ih hf.2 hnil rfl (Nat.zero_le _)
    | cons t items =>
      obtain ⟨j, js, hj, hjs, rfl⟩ := values_cons h
      rw [itemsDistinct, Bool.and_eq_true] at hk
      rw [depthItems, Nat.max_le] at hd
      rw [itemTrees, readItems, readItems, bind_eq_ok, bind_eq_ok]
      refine exists_congr fun y => and_congr (hf.1.read hj hk.1 hd.1) ?_
      rw [bind_eq_ok, bind_eq_ok]
      exact exists_congr fun later => and_congr_left fun _ => ih hf.2 hjs hk.2 hd.2

theorem readMembers_agrees {fields : Fields as} (hn : fields.names.Nodup)
    (hf : fields.Each fun f => f.codec.Agrees) (h : Tree.memberValues room members [] = .ok ms)
    (hm : (members.map Prod.fst).Nodup) (hk : membersDistinct members = true) (ha : ascending ms = true)
    (hd : depthMembers ms ≤ depth) {row : Row as} :
    fields.readMembers depth (memberTrees ms) true = .ok row ↔ fields.readMembers room members true = .ok row := by
  rw [readMembers_iff hn (told_memberTrees (nodup_of_ascending ha)),
    readMembers_iff hn (.of_nodup (named_of_memberValues h) hm)]
  constructor
  · exact fun hall => hall.each (fun f x hf => (f.picks_agrees hf h hm hk hd).mp) hf
  · exact fun hall => hall.each (fun f x hf => (f.picks_agrees hf h hm hk hd).mpr) hf

end Fields

end Json

theorem Codec.Agrees.record {ρ : Type} {as : List Type} {fields : Json.Fields as} {build : Json.Row as → ρ}
    {parts : ρ → Json.Row as} (hn : fields.names.Nodup) (hf : fields.Each fun f => f.codec.Agrees) :
    (record fields build parts).Agrees := by
  refine ⟨fun {room depth t j x} h hk hd => ?_⟩
  change (fields.read depth j.toTree).map build = .ok x ↔ (fields.read room t).map build = .ok x
  rw [map_eq_ok, map_eq_ok]
  refine exists_congr fun row => and_congr_left fun _ => ?_
  have hcanonical := Json.isCanonical_of_value room t j h
  cases Json.stands_of_value h with
  | list h0 hjs =>
    rw [Json.depth] at hd
    rw [Json.toTree, Json.Fields.read, Json.Fields.read, if_neg h0, if_neg (by omega)]
    exact Json.Fields.readItems_agrees hf hjs hk (by omega)
  | record h0 hms =>
    rw [Json.depth] at hd
    rw [Json.Tree.keysDistinct, Bool.and_eq_true, decide_eq_true_eq] at hk
    rw [Json.isCanonical, Bool.and_eq_true] at hcanonical
    rw [Json.toTree, Json.Fields.read, Json.Fields.read, if_neg h0, if_neg (by omega)]
    exact Json.Fields.readMembers_agrees hn hf hms hk.1 hk.2 hcanonical.1 (by omega)
  | _ => exact Iff.rfl

end StakeLedger
