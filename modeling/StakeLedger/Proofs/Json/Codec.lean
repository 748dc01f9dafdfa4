import StakeLedger.Proofs.Bytes.Base64
import StakeLedger.Proofs.Json.Lexing
import StakeLedger.Proofs.Json.Opaque
import StakeLedger.Proofs.Outcome

namespace StakeLedger.Codec

open Json

variable {α : Type} {c : Codec α} {x : α} {k : Nat}

def ReadsBack (c : Codec α) (x : α) : Prop :=
  ∀ room, (c.write x).depth ≤ room → c.read room (c.write x).toTree = .ok x

def Bounded (c : Codec α) (k : Nat) : Prop :=
  ∀ room t x, c.read room t = .ok x → (c.write x).depth ≤ max k room

theorem ofBytes_eq_ok {bytes : Bytes} : c.ofBytes bytes = .ok x ↔
    c.read Json.room (Document.ofBytes bytes).tree = .ok x ∧ (Document.ofBytes bytes).trailing = false := by
  rw [ofBytes, ofDocument]
  cases c.read Json.room (Document.ofBytes bytes).tree with
  | error e => exact ⟨nofun, fun h => nomatch h.1⟩
  | ok y =>
    rw [ok_bind]
    cases (Document.ofBytes bytes).trailing with
    | true => exact ⟨nofun, fun h => nomatch h.2⟩
    | false => exact ⟨fun h => ⟨h, rfl⟩, And.left⟩

theorem read_of_ofBytes {bytes : Bytes} (h : c.ofBytes bytes = .ok x) : ∃ t, c.read Json.room t = .ok x :=
  ⟨_, (ofBytes_eq_ok.mp h).1⟩

theorem Bounded.mono {l : Nat} (h : c.Bounded k) (hl : k ≤ l) : c.Bounded l := by
  intro room t x hx
  have hdepth := h room t x hx
  omega

theorem readsBack_text (s : String) : text.ReadsBack s := fun _ _ => rfl

theorem bounded_text : text.Bounded k := fun _ _ _ _ => Nat.zero_le _

theorem int64?_toInt (n : Int64) : int64? n.toInt = some n := by
  rw [int64?, if_pos ⟨Int64.le_toInt n, Int64.toInt_lt n⟩, Int64.ofInt_toInt]

theorem readsBack_int64 (n : Int64) : int64.ReadsBack n := by
  intro room _
  simp only [int64, integer, toTree, Number.ofInt64, int64?_toInt]

theorem bounded_int64 : int64.Bounded k := fun _ _ _ _ => Nat.zero_le _

theorem toTree_integer {number : α → Number} {value? : Int → Option α} :
    ((integer number value?).write x).toTree = .number (some (number x)) := by rw [integer, toTree]

theorem read_integer {number : α → Number} {value? : Int → Option α} {m : Number}
    (hm : ∃ n hn, m = .whole n hn ∧ value? n = some x) (room : Nat) :
    (integer number value?).read room (.number (some m)) = .ok x := by
  obtain ⟨n, hn, rfl, hx⟩ := hm
  simp only [integer, hx]

theorem uint64?_toNat (n : UInt64) : uint64? n.toNat = some n := by
  have hfits : 0 ≤ (n.toNat : Int) ∧ (n.toNat : Int) < 0x10000000000000000 := by
    have hlt := n.toNat_lt
    omega
  rw [uint64?, if_pos hfits, Int.toNat_natCast, UInt64.ofNat_toNat]

theorem read_uint64 (n : UInt64) (room : Nat) : uint64.read room (.number (some (.ofUInt64 n))) = .ok n := by
  have hread := @read_integer _ n Number.ofUInt64 uint64? (.ofUInt64 n) ⟨n.toNat, _, rfl, uint64?_toNat n⟩
  rw [uint64]
  exact hread room

theorem uint32?_toNat (n : UInt32) : uint32? n.toUInt64.toNat = some n := by
  have hfits : 0 ≤ (n.toNat : Int) ∧ (n.toNat : Int) < 0x100000000 := by
    have hlt := n.toNat_lt
    omega
  rw [UInt32.toNat_toUInt64, uint32?, if_pos hfits, Int.toNat_natCast, UInt32.ofNat_toNat]

theorem read_uint32 (n : UInt32) (room : Nat) :
    uint32.read room (.number (some (.ofUInt64 n.toUInt64))) = .ok n := by
  have hread := @read_integer _ n (fun n => Number.ofUInt64 n.toUInt64) uint32? (.ofUInt64 n.toUInt64)
    ⟨n.toUInt64.toNat, _, rfl, uint32?_toNat n⟩
  rw [uint32]
  exact hread room

theorem read_choice [DecidableEq α] {names : List (String × α)} {name : String} (h : names.lookup name = some x)
    (room : Nat) : (choice names).read room (.text (some name)) = .ok x := by
  simp only [choice, h]

theorem readsBack_bytes (b : Bytes) : bytes.ReadsBack b := by
  intro room _
  simp only [bytes, toTree, Base64.decode_encode]

theorem bounded_bytes : bytes.Bounded k := fun _ _ _ _ => Nat.zero_le _

theorem readsBack_opaqueValue (x : Opaque) : opaqueValue.ReadsBack x := by
  intro room hd
  exact Opaque.read_of_value (value_toTree room x.value x.canonical hd)

theorem bounded_opaqueValue : opaqueValue.Bounded k := by
  intro room t x h
  have hdepth := depth_of_value room t x.value (Opaque.value_of_read h)
  exact Nat.le_trans hdepth (Nat.le_max_right _ _)

theorem toTree_ne_null {j : Json} (h : j ≠ .null) : j.toTree ≠ .null := by
  cases j with
  | null => exact absurd rfl h
  | _ => exact nofun

theorem read_optional {room : Nat} {t : Tree} (h : t ≠ .null) :
    c.optional.read room t = (c.read room t).map some := by
  cases t with
  | null => exact absurd rfl h
  | _ => rfl

theorem read_nullable {room : Nat} {t : Tree} (h : t ≠ .null) : (c.nullable x).read room t = c.read room t := by
  cases t with
  | null => exact absurd rfl h
  | _ => rfl

theorem readsBack_none : c.optional.ReadsBack none := fun _ _ => rfl

theorem ReadsBack.some (h : c.ReadsBack x) (hn : c.write x ≠ .null) : c.optional.ReadsBack (some x) := by
  intro room hd
  change c.optional.read room (c.write x).toTree = _
  rw [read_optional (toTree_ne_null hn), h room hd]
  rfl

theorem ReadsBack.nullable {y : α} (h : c.ReadsBack x) (hn : c.write x ≠ .null) :
    (c.nullable y).ReadsBack x := by
  intro room hd
  exact (read_nullable (toTree_ne_null hn)).trans (h room hd)

theorem Bounded.optional (h : c.Bounded k) : c.optional.Bounded k := by
  intro room t x hx
  by_cases ht : t = .null
  · subst ht
    cases hx
    exact Nat.zero_le _
  · rw [read_optional ht] at hx
    obtain ⟨y, hread, rfl⟩ := map_eq_ok.mp hx
    exact h room t y hread

theorem Bounded.nullable {y : α} (h : c.Bounded k) (hy : (c.write y).depth ≤ k) :
    (c.nullable y).Bounded k := by
  intro room t x hx
  by_cases ht : t = .null
  · subst ht
    cases hx
    exact Nat.le_trans hy (Nat.le_max_left _ _)
  · rw [read_nullable ht] at hx
    exact h room t x hx

theorem depthItems_map (c : Codec α) (xs : List α) {d : Nat} (h : ∀ x ∈ xs, (c.write x).depth ≤ d) :
    depthItems (xs.map c.write) ≤ d := by
  induction xs with
  | nil => exact Nat.zero_le d
  | cons x xs ih =>
    obtain ⟨hx, hxs⟩ := List.forall_mem_cons.mp h
    exact Nat.max_le.mpr ⟨hx, ih hxs⟩

theorem itemsExact_map (c : Codec α) (xs : List α) (h : ∀ x ∈ xs, (c.write x).isExact = true) :
    itemsExact (xs.map c.write) = true := by
  induction xs with
  | nil => rfl
  | cons x xs ih =>
    obtain ⟨hx, hxs⟩ := List.forall_mem_cons.mp h
    rw [List.map_cons, itemsExact, hx, ih hxs]
    rfl

theorem exact_optional {x : Option α} (h : ∀ y ∈ x, (c.write y).isExact = true) :
    (c.optional.write x).isExact = true := by
  cases x with
  | none => rfl
  | some y => exact h y rfl

theorem mapM_itemTrees {room : Nat} (xs : List α) (h : ∀ x ∈ xs, c.ReadsBack x)
    (hd : depthItems (xs.map c.write) ≤ room) :
    (itemTrees (xs.map c.write)).mapM (c.read room) = .ok xs := by
  induction xs with
  | nil => rfl
  | cons x xs ih =>
    obtain ⟨hx, hxs⟩ := List.forall_mem_cons.mp h
    rw [List.map_cons, depthItems, Nat.max_le] at hd
    rw [List.map_cons, itemTrees, List.mapM_cons, hx room hd.1, ih hxs hd.2]
    rfl

theorem read_list {room : Nat} {items : List Tree} {xs : List α} (h0 : room ≠ 0) :
    (list c).read room (.list items true) = .ok xs ↔ items.mapM (c.read (room - 1)) = .ok xs := by
  change (if room = 0 then Except.error Fault.malformed else do
    let xs ← items.mapM (c.read (room - 1))
    if true then .ok xs else .error .malformed) = _ ↔ _
  rw [if_neg h0]
  cases items.mapM (c.read (room - 1)) <;> exact Iff.rfl

theorem readsBack_list {xs : List α} (h : ∀ x ∈ xs, c.ReadsBack x) : (list c).ReadsBack xs := by
  intro room hd
  change depthItems (xs.map c.write) + 1 ≤ room at hd
  exact (read_list (by omega)).mpr (mapM_itemTrees xs h (by omega))

theorem forall_of_mapM {β ε : Type} {f : β → Except ε α} {P : α → Prop} (h : ∀ b x, f b = .ok x → P x)
    {bs : List β} {xs : List α} (hxs : bs.mapM f = .ok xs) : ∀ x ∈ xs, P x := by
  induction bs generalizing xs with
  | nil =>
    cases hxs
    exact nofun
  | cons b bs ih =>
    rw [List.mapM_cons] at hxs
    obtain ⟨y, hy, hrest⟩ := bind_eq_ok.mp hxs
    obtain ⟨ys, hys, he⟩ := bind_eq_ok.mp hrest
    cases he
    exact List.forall_mem_cons.mpr ⟨h b y hy, ih hys⟩

theorem list_of_read {room : Nat} {t : Tree} {xs : List α} (h : (list c).read room t = .ok xs) :
    room ≠ 0 ∧ ∃ items, t = .list items true ∧ items.mapM (c.read (room - 1)) = .ok xs := by
  cases t with
  | list items closed =>
    change (if room = 0 then Except.error Fault.malformed else do
      let xs ← items.mapM (c.read (room - 1))
      if closed then .ok xs else .error .malformed) = _ at h
    split at h
    · cases h
    · next h0 =>
      obtain ⟨ys, hitems, hclosed⟩ := bind_eq_ok.mp h
      cases closed <;> cases hclosed
      exact ⟨h0, items, rfl, hitems⟩
  | _ => cases h

theorem Bounded.list (h : c.Bounded k) : (list c).Bounded (k + 1) := by
  intro room t xs hx
  obtain ⟨h0, items, -, hitems⟩ := list_of_read hx
  have hall := forall_of_mapM (fun t x => h (room - 1) t x) hitems
  have hdepth := depthItems_map c xs hall
  change depthItems (xs.map c.write) + 1 ≤ _
  omega

end StakeLedger.Codec
