import StakeLedger.Json.Record
import StakeLedger.Proofs.Json.Codec

/-! Records are read back from their fields, and every field of a record that was read has come from
somewhere. -/

namespace StakeLedger

namespace Json

variable {α : Type} {as : List Type} {room : Nat}

theorem depth_le_of_mem {m : String × Json} {ms : List (String × Json)} (h : m ∈ ms) :
    m.2.depth ≤ depthMembers ms := by
  induction ms with
  | nil => cases h
  | cons n ms ih =>
    rcases List.mem_cons.mp h with rfl | h
    · exact Nat.le_max_left _ _
    · exact Nat.le_trans (ih h) (Nat.le_max_right _ _)

def Field.Origin (room : Nat) (f : Field α) (x : α) : Prop :=
  f.absent = some x ∨ f.beyond = some x ∨ ∃ t, f.codec.read room t = .ok x

structure Field.Bounded (k : Nat) (f : Field α) : Prop where
  codec : f.codec.Bounded k
  absent : ∀ x, f.absent = some x → (f.codec.write x).depth ≤ k
  beyond : ∀ x, f.beyond = some x → (f.codec.write x).depth ≤ k

theorem Field.Bounded.origin {k : Nat} {f : Field α} {x : α} (h : f.Bounded k) (ho : f.Origin room x) :
    (f.codec.write x).depth ≤ max k room := by
  rcases ho with ha | hb | ⟨t, ht⟩
  · exact Nat.le_trans (h.absent x ha) (Nat.le_max_left _ _)
  · exact Nat.le_trans (h.beyond x hb) (Nat.le_max_left _ _)
  · exact h.codec room t x ht

theorem Field.bounded_required {k : Nat} {name : String} {c : Codec α} (h : c.Bounded k) :
    (Field.required name c).Bounded k := ⟨h, nofun, nofun⟩

theorem Field.bounded_orElse {k : Nat} {name : String} {c : Codec α} {default : α} (h : c.Bounded k)
    (hd : (c.write default).depth ≤ k) : (Field.orElse name c default).Bounded k := by
  refine ⟨h, fun x hx => ?_, fun x hx => ?_⟩
  · cases hx
    exact hd
  · cases hx
    exact hd

namespace Fields

def names : {as : List Type} → Fields as → List String
  | _, .nil => []
  | _, .cons field rest => field.name :: rest.names

def All (Q : {α : Type} → Field α → α → Prop) : {as : List Type} → Fields as → Row as → Prop
  | _, .nil, _ => True
  | _, .cons field rest, (x, row) => Q field x ∧ rest.All Q row

def AllSlots (Q : {α : Type} → Field α → α → Prop) : {as : List Type} → Fields as → Slots as → Prop
  | _, .nil, _ => True
  | _, .cons field rest, (slot, slots) => (∀ x, slot = some x → Q field x) ∧ rest.AllSlots Q slots

def shown : {as : List Type} → Fields as → Row as → Slots as
  | _, .nil, _ => ()
  | _, .cons field rest, (x, row) => (if field.hidden x then none else some x, rest.shown row)

def Each (P : {α : Type} → Field α → Prop) : {as : List Type} → Fields as → Prop
  | _, .nil => True
  | _, .cons field rest => P field ∧ rest.Each P

variable {P : {α : Type} → Field α → Prop} {Q R : {α : Type} → Field α → α → Prop}

theorem All.imp (h : ∀ {α : Type} (f : Field α) (x : α), Q f x → R f x) {fields : Fields as} {row : Row as}
    (hall : fields.All Q row) : fields.All R row := by
  induction fields with
  | nil => trivial
  | cons field rest ih => exact ⟨h _ _ hall.1, ih hall.2⟩

theorem All.each (h : ∀ {α : Type} (f : Field α) (x : α), P f → Q f x → R f x) {fields : Fields as}
    {row : Row as} (hall : fields.All Q row) (heach : fields.Each P) : fields.All R row := by
  induction fields with
  | nil => trivial
  | cons field rest ih => exact ⟨h _ _ heach.1 hall.1, ih hall.2 heach.2⟩

theorem names_write {fields : Fields as} {row : Row as} :
    ∀ m ∈ memberTrees (fields.write row), ∃ name ∈ fields.names, m.1 = some name := by
  induction fields with
  | nil => exact nofun
  | cons field rest ih =>
    obtain ⟨x, row⟩ := row
    intro m hm
    rw [write] at hm
    split at hm
    · obtain ⟨name, hname, he⟩ := ih m hm
      exact ⟨name, List.mem_cons_of_mem _ hname, he⟩
    · rcases List.mem_cons.mp hm with rfl | hm
      · exact ⟨field.name, List.mem_cons_self, rfl⟩
      · obtain ⟨name, hname, he⟩ := ih m hm
        exact ⟨name, List.mem_cons_of_mem _ hname, he⟩

theorem acceptMember_of_ne {field : Field α} {rest : Fields as} {slot : Option α} {slots : Slots as}
    {member : Option String × Tree} (h : member.1 ≠ some field.name) :
    (cons field rest).acceptMember room (slot, slots) member =
      (rest.acceptMember room slots member).map fun slots => (slot, slots) := by
  obtain ⟨_ | name, t⟩ := member
  · rfl
  · exact if_neg fun he => h (congrArg some he.symm)

theorem foldlM_of_ne {field : Field α} {rest : Fields as} {slot : Option α}
    {ms : List (Option String × Tree)} (h : ∀ m ∈ ms, m.1 ≠ some field.name) (slots : Slots as) :
    ms.foldlM ((cons field rest).acceptMember room) (slot, slots) =
      (ms.foldlM (rest.acceptMember room) slots).map fun slots => (slot, slots) := by
  induction ms generalizing slots with
  | nil => rfl
  | cons m ms ih =>
    obtain ⟨hm, hms⟩ := List.forall_mem_cons.mp h
    rw [List.foldlM_cons, List.foldlM_cons, acceptMember_of_ne hm]
    cases rest.acceptMember room slots m with
    | error e => rfl
    | ok slots => exact ih hms slots

theorem foldlM_write {fields : Fields as} {row : Row as} (hn : fields.names.Nodup)
    (hr : fields.All (fun f x => f.codec.ReadsBack x) row)
    (hd : depthMembers (fields.write row) ≤ room) :
    (memberTrees (fields.write row)).foldlM (fields.acceptMember room) fields.emptySlots =
      .ok (fields.shown row) := by
  induction fields with
  | nil => rfl
  | cons field rest ih =>
    obtain ⟨x, row⟩ := row
    obtain ⟨hx, hrow⟩ := hr
    obtain ⟨hnew, hnodup⟩ := List.nodup_cons.mp hn
    have hne : ∀ m ∈ memberTrees (rest.write row), m.1 ≠ some field.name := by
      intro m hm he
      obtain ⟨name, hname, hm⟩ := names_write m hm
      exact hnew (Option.some.inj (he.symm.trans hm) ▸ hname)
    rw [write] at hd ⊢
    rw [shown]
    by_cases hh : field.hidden x = true
    · rw [if_pos hh] at hd ⊢
      rw [if_pos hh, emptySlots, foldlM_of_ne hne, ih hnodup hrow hd]
      rfl
    · rw [if_neg hh] at hd ⊢
      rw [depthMembers, Nat.max_le] at hd
      have hfirst : (cons field rest).acceptMember room (cons field rest).emptySlots
          (some field.name, (field.codec.write x).toTree) = .ok (some x, rest.emptySlots) := by
        change (if field.name = field.name then _ else _) = _
        rw [if_pos rfl, hx room hd.1]
        rfl
      rw [if_neg hh, memberTrees, List.foldlM_cons, hfirst]
      change (memberTrees (rest.write row)).foldlM _ (some x, rest.emptySlots) = _
      rw [foldlM_of_ne hne, ih hnodup hrow hd.2]
      rfl

theorem complete_shown {fields : Fields as} {row : Row as}
    (h : fields.All (fun f x => f.hidden x = true → f.absent = some x) row) :
    fields.complete (fields.shown row) = .ok row := by
  induction fields with
  | nil => rfl
  | cons field rest ih =>
    obtain ⟨x, row⟩ := row
    obtain ⟨hx, hrow⟩ := h
    have hslot : (if field.hidden x = true then none else some x).or field.absent = some x := by
      split
      · next hh => exact hx hh
      · rfl
    rw [shown, complete, hslot, ih hrow]
    rfl

theorem depthMembers_write {d : Nat} {fields : Fields as} {row : Row as}
    (h : fields.All (fun f x => (f.codec.write x).depth ≤ d) row) : depthMembers (fields.write row) ≤ d := by
  induction fields with
  | nil => exact Nat.zero_le d
  | cons field rest ih =>
    obtain ⟨x, row⟩ := row
    rw [write]
    split
    · exact ih h.2
    · exact Nat.max_le.mpr ⟨h.1, ih h.2⟩

theorem membersExact_write {fields : Fields as} {row : Row as}
    (h : fields.All (fun f x => (f.codec.write x).isExact = true) row) :
    membersExact (fields.write row) = true := by
  induction fields with
  | nil => rfl
  | cons field rest ih =>
    obtain ⟨x, row⟩ := row
    rw [write]
    split
    · exact ih h.2
    · rw [membersExact, h.1, ih h.2]
      rfl

theorem allSlots_emptySlots (fields : Fields as) : fields.AllSlots Q fields.emptySlots := by
  induction fields with
  | nil => trivial
  | cons field rest ih => exact ⟨nofun, ih⟩

theorem AllSlots.accept {fields : Fields as} {slots slots' : Slots as} {name : String} {t : Tree}
    (h : fields.AllSlots (Field.Origin room) slots) (ha : fields.accept room name t slots = .ok slots') :
    fields.AllSlots (Field.Origin room) slots' := by
  induction fields with
  | nil => trivial
  | cons field rest ih =>
    obtain ⟨slot, slots⟩ := slots
    change (if field.name = name then _ else _) = _ at ha
    split at ha
    · cases slot with
      | some y => cases ha
      | none =>
        obtain ⟨x, hread, rfl⟩ := map_eq_ok.mp ha
        refine ⟨fun y hy => ?_, h.2⟩
        cases hy
        exact .inr (.inr ⟨t, hread⟩)
    · obtain ⟨slots'', hrest, rfl⟩ := map_eq_ok.mp ha
      exact ⟨h.1, ih h.2 hrest⟩

theorem AllSlots.foldlM {fields : Fields as} {slots slots' : Slots as} {ms : List (Option String × Tree)}
    (h : fields.AllSlots (Field.Origin room) slots)
    (ha : ms.foldlM (fields.acceptMember room) slots = .ok slots') :
    fields.AllSlots (Field.Origin room) slots' := by
  induction ms generalizing slots with
  | nil =>
    cases ha
    exact h
  | cons m ms ih =>
    rw [List.foldlM_cons] at ha
    obtain ⟨next, hm, hms⟩ := bind_eq_ok.mp ha
    obtain ⟨_ | name, t⟩ := m
    · cases hm
    · exact ih (h.accept hm) hms

theorem AllSlots.complete {fields : Fields as} {slots : Slots as} {row : Row as}
    (h : fields.AllSlots (Field.Origin room) slots) (hc : fields.complete slots = .ok row) :
    fields.All (Field.Origin room) row := by
  induction fields with
  | nil => trivial
  | cons field rest ih =>
    obtain ⟨slot, slots⟩ := slots
    rw [Fields.complete] at hc
    cases hslot : slot.or field.absent with
    | none =>
      rw [hslot] at hc
      cases hc
    | some x =>
      rw [hslot] at hc
      obtain ⟨row, hrest, rfl⟩ := map_eq_ok.mp hc
      refine ⟨?_, ih h.2 hrest⟩
      cases slot with
      | none => exact .inl hslot
      | some y => exact h.1 x hslot

theorem origin_of_readItems {fields : Fields as} {items : List Tree} {closed : Bool} {row : Row as}
    (h : fields.readItems room items closed = .ok row) : fields.All (Field.Origin room) row := by
  induction fields generalizing items with
  | nil => trivial
  | cons field rest ih =>
    cases items with
    | nil =>
      rw [readItems] at h
      split at h
      · cases hbeyond : field.beyond with
        | none =>
          rw [hbeyond] at h
          cases h
        | some x =>
          rw [hbeyond] at h
          obtain ⟨row, hrest, rfl⟩ := map_eq_ok.mp h
          exact ⟨.inr (.inl hbeyond), ih hrest⟩
      · cases h
    | cons t items =>
      rw [readItems] at h
      obtain ⟨x, hread, hitems⟩ := bind_eq_ok.mp h
      obtain ⟨row, hrest, he⟩ := bind_eq_ok.mp hitems
      cases he
      exact ⟨.inr (.inr ⟨t, hread⟩), ih hrest⟩

theorem origin_of_read {fields : Fields as} {t : Tree} {row : Row as} (h : fields.read room t = .ok row) :
    room ≠ 0 ∧ fields.All (Field.Origin (room - 1)) row := by
  cases t with
  | list items closed =>
    rw [read] at h
    split at h
    · cases h
    · next h0 => exact ⟨h0, origin_of_readItems h⟩
  | record members closed =>
    rw [read] at h
    split at h
    · cases h
    · next h0 =>
      rw [readMembers] at h
      obtain ⟨slots, hslots, hcomplete⟩ := bind_eq_ok.mp h
      cases closed with
      | false => cases hcomplete
      | true => exact ⟨h0, ((allSlots_emptySlots fields).foldlM hslots).complete hcomplete⟩
  | _ => cases h

end Fields

end Json

namespace Codec

open Json

variable {ρ : Type} {as : List Type} {fields : Fields as} {build : Row as → ρ} {parts : ρ → Row as}

theorem readsBack_record {x : ρ} (hn : fields.names.Nodup) (hb : build (parts x) = x)
    (hr : fields.All (fun f x => (f.hidden x = true → f.absent = some x) ∧ f.codec.ReadsBack x) (parts x)) :
    (record fields build parts).ReadsBack x := by
  intro room hd
  change depthMembers (fields.write (parts x)) + 1 ≤ room at hd
  have hmembers : depthMembers (fields.write (parts x)) ≤ room - 1 := by omega
  have hshown := Fields.foldlM_write hn (hr.imp fun _ _ h => h.2) hmembers
  have hcomplete := Fields.complete_shown (hr.imp fun _ _ h => h.1)
  change (fields.read room (.record (memberTrees (fields.write (parts x))) true)).map build = _
  rw [Fields.read, if_neg (by omega), Fields.readMembers, hshown]
  change (fields.complete (fields.shown (parts x))).map build = _
  rw [hcomplete]
  exact congrArg Except.ok hb

theorem origin_of_read {room : Nat} {t : Tree} {x : ρ} (h : (record fields build parts).read room t = .ok x) :
    room ≠ 0 ∧ ∃ row, build row = x ∧ fields.All (Field.Origin (room - 1)) row := by
  obtain ⟨row, hrow, hbuild⟩ := map_eq_ok.mp h
  obtain ⟨h0, hall⟩ := Fields.origin_of_read hrow
  exact ⟨h0, row, hbuild, hall⟩

theorem Bounded.record {k : Nat} (hp : ∀ row, parts (build row) = row)
    (h : fields.Each (Field.Bounded k)) : (record fields build parts).Bounded (k + 1) := by
  intro room t x hx
  obtain ⟨h0, row, rfl, hall⟩ := origin_of_read hx
  have hdepth := Fields.depthMembers_write (hall.each (fun f x hb ho => hb.origin ho) h)
  change depthMembers (fields.write (parts (build row))) + 1 ≤ _
  rw [hp]
  omega

end Codec

end StakeLedger
