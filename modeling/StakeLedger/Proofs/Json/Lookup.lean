import StakeLedger.Proofs.Json.Record

/-!
A record that has no two members for one field is read by looking every field up: the order of the members and the
unknown ones among them do not count. Main statement: `readMembers_iff`.
-/

namespace StakeLedger.Json

variable {α : Type} {as : List Type} {room : Nat} {names : List String} {members : List (Option String × Tree)}

structure Told (names : List String) (members : List (Option String × Tree)) : Prop where
  named : ∀ m ∈ members, m.1 ≠ none
  once : ∀ name ∈ names, (members.map Prod.fst).count (some name) ≤ 1

theorem Told.of_nodup (hnamed : ∀ m ∈ members, m.1 ≠ none) (h : (members.map Prod.fst).Nodup) : Told names members :=
  ⟨hnamed, fun name _ => List.nodup_iff_count.mp h (some name)⟩

theorem Told.rest {name : String} (h : Told (name :: names) members) : Told names members :=
  ⟨h.named, fun other hother => h.once other (List.mem_cons_of_mem _ hother)⟩

theorem Told.others {name : String} {t : Tree} {before after : List (Option String × Tree)}
    (h : Told names (before ++ (some name, t) :: after)) (hname : name ∈ names) :
    ∀ m ∈ before ++ after, m.1 ≠ some name := by
  intro m hm he
  have hcount := h.once name hname
  rw [List.map_append, List.map_cons, List.count_append, List.count_cons_self] at hcount
  have hmem : some name ∈ (before ++ after).map Prod.fst := List.mem_map.mpr ⟨m, hm, he⟩
  have hpos := List.count_pos_iff.mpr hmem
  rw [List.map_append, List.count_append] at hpos
  omega

def Field.Picks (room : Nat) (members : List (Option String × Tree)) (f : Field α) (x : α) : Prop :=
  match members.lookup (some f.name) with
  | some t => f.codec.read room t = .ok x
  | none => f.absent = some x

theorem Field.picks_of_lookup_eq_some {f : Field α} {x : α} {t : Tree} (h : members.lookup (some f.name) = some t) :
    f.Picks room members x ↔ f.codec.read room t = .ok x := by
  rw [Picks, h]

theorem Field.picks_of_lookup_eq_none {f : Field α} {x : α} (h : members.lookup (some f.name) = none) :
    f.Picks room members x ↔ f.absent = some x := by
  rw [Picks, h]

def Field.Slot (room : Nat) (members : List (Option String × Tree)) (f : Field α) (slot : Option α) : Prop :=
  match members.lookup (some f.name) with
  | some t => ∃ x, f.codec.read room t = .ok x ∧ slot = some x
  | none => slot = none

theorem Field.picks_iff {members : List (Option String × Tree)} {f : Field α} {x : α} :
    f.Picks room members x ↔ ∃ slot, f.Slot room members slot ∧ slot.or f.absent = some x := by
  rw [Picks]
  simp only [Slot]
  cases members.lookup (some f.name) with
  | none => simp
  | some t => simp

theorem mem_of_lookup {κ β : Type} [BEq κ] [LawfulBEq κ] {ms : List (κ × β)} {key : κ} {y : β}
    (h : ms.lookup key = some y) : (key, y) ∈ ms := by
  obtain ⟨before, after, rfl, -⟩ := List.lookup_eq_some_iff.mp h
  exact List.mem_append_right _ List.mem_cons_self

theorem ne_of_lookup_eq_none {members : List (Option String × Tree)} {name : String}
    (h : members.lookup (some name) = none) : ∀ m ∈ members, m.1 ≠ some name := by
  intro m hm he
  have hne := List.lookup_eq_none_iff.mp h m hm
  rw [he] at hne
  simp at hne

theorem lookup_memberTrees (ms : List (String × Json)) (name : String) :
    (memberTrees ms).lookup (some name) = (ms.lookup name).map toTree := by
  induction ms with
  | nil => rfl
  | cons m ms ih =>
    obtain ⟨k, x⟩ := m
    rw [memberTrees, List.lookup_cons, List.lookup_cons, ih, Option.some_beq_some]
    cases name == k <;> rfl

theorem map_fst_memberTrees (ms : List (String × Json)) :
    (memberTrees ms).map Prod.fst = (ms.map Prod.fst).map some := by
  induction ms with
  | nil => rfl
  | cons m ms ih => rw [memberTrees, List.map_cons, ih, List.map_cons, List.map_cons]

theorem told_memberTrees {ms : List (String × Json)} (h : (ms.map Prod.fst).Nodup) : Told names (memberTrees ms) := by
  have hkeys := map_fst_memberTrees ms
  refine .of_nodup (fun m hm he => ?_) ?_
  · have hmem : none ∈ (ms.map Prod.fst).map some := hkeys ▸ List.mem_map.mpr ⟨m, hm, he⟩
    simp at hmem
  · rw [hkeys, List.nodup_iff_pairwise_ne, List.pairwise_map]
    exact (List.nodup_iff_pairwise_ne.mp h).imp fun hne he => hne (Option.some.inj he)

namespace Fields

theorem accept_of_not_mem {fields : Fields as} {name : String} {t : Tree} (h : name ∉ fields.names)
    (slots : Slots as) : fields.accept room name t slots = .ok slots := by
  induction fields with
  | nil => rfl
  | cons field rest ih =>
    obtain ⟨hne, hrest⟩ := List.ne_and_not_mem_of_not_mem_cons h
    obtain ⟨slot, slots⟩ := slots
    change (if field.name = name then _ else _) = _
    rw [if_neg (Ne.symm hne), ih hrest]
    rfl

theorem foldlM_nil {members : List (Option String × Tree)} (h : ∀ m ∈ members, m.1 ≠ none) :
    members.foldlM (acceptMember room .nil) () = .ok () := by
  induction members with
  | nil => rfl
  | cons m ms ih =>
    obtain ⟨hm, hms⟩ := List.forall_mem_cons.mp h
    obtain ⟨_ | name, t⟩ := m
    · exact absurd rfl hm
    · rw [List.foldlM_cons, acceptMember, accept, ok_bind, ih hms]

theorem foldlM_cons_iff {field : Field α} {rest : Fields as} (hnew : field.name ∉ rest.names)
    (hn : Told (field.name :: names) members) {slots slots' : Slots as} {slot : Option α} :
    members.foldlM ((cons field rest).acceptMember room) (none, slots) = .ok (slot, slots') ↔
      field.Slot room members slot ∧ members.foldlM (rest.acceptMember room) slots = .ok slots' := by
  rw [Field.Slot]
  cases hl : members.lookup (some field.name) with
  | none =>
    rw [foldlM_of_ne (ne_of_lookup_eq_none hl), map_eq_ok]
    simp [eq_comm, and_comm]
  | some t =>
    obtain ⟨before, after, rfl, hbefore⟩ := List.lookup_eq_some_iff.mp hl
    have hother := hn.others List.mem_cons_self
    obtain ⟨hbefore, hafter⟩ := List.forall_mem_append.mp hother
    have hskip : ∀ s, rest.acceptMember room s (some field.name, t) = .ok s := accept_of_not_mem hnew
    have hfill : ∀ s, (cons field rest).acceptMember room (none, s) (some field.name, t) =
        (field.codec.read room t).map fun x => (some x, s) := fun s => if_pos rfl
    rw [List.foldlM_append, List.foldlM_append, foldlM_of_ne hbefore]
    cases before.foldlM (rest.acceptMember room) slots with
    | error e => exact ⟨nofun, fun h => nomatch h.2⟩
    | ok s =>
      rw [Except.map, ok_bind, ok_bind, List.foldlM_cons, List.foldlM_cons, hskip, hfill]
      dsimp only
      cases field.codec.read room t with
      | error e => exact ⟨nofun, fun ⟨⟨_, h, _⟩, _⟩ => nomatch h⟩
      | ok x =>
        rw [Except.map, ok_bind, ok_bind, foldlM_of_ne hafter, map_eq_ok]
        constructor
        · rintro ⟨_, hrest, he⟩
          cases he
          exact ⟨⟨x, rfl, rfl⟩, hrest⟩
        · rintro ⟨⟨_, hx, rfl⟩, hrest⟩
          cases hx
          exact ⟨slots', hrest, rfl⟩

theorem readMembers_iff {fields : Fields as} (hf : fields.names.Nodup) (hn : Told fields.names members) {row : Row as} :
    fields.readMembers room members true = .ok row ↔ fields.All (Field.Picks room members) row := by
  have hread : ∀ {as : List Type} (fields : Fields as) (row : Row as),
      fields.readMembers room members true = .ok row ↔
        ∃ slots, members.foldlM (fields.acceptMember room) fields.emptySlots = .ok slots ∧
          fields.complete slots = .ok row := fun fields row => bind_eq_ok
  rw [hread]
  induction fields with
  | nil => exact ⟨fun _ => trivial, fun _ => ⟨(), foldlM_nil hn.named, rfl⟩⟩
  | cons field rest ih =>
    obtain ⟨hnew, hf⟩ := List.nodup_cons.mp hf
    obtain ⟨x, row⟩ := row
    have hcomplete : ∀ slot slots, (cons field rest).complete (slot, slots) = .ok (x, row) ↔
        slot.or field.absent = some x ∧ rest.complete slots = .ok row := by
      intro slot slots
      rw [complete]
      cases slot.or field.absent with
      | none => simp
      | some y =>
        dsimp only
        rw [map_eq_ok]
        simp [and_comm, eq_comm]
    refine Iff.trans ?_ (and_congr Field.picks_iff.symm (ih hf hn.rest))
    constructor
    · rintro ⟨⟨slot, slots⟩, hfold, hrow⟩
      obtain ⟨hslot, hrest⟩ := (foldlM_cons_iff hnew hn).mp hfold
      obtain ⟨hx, hrow⟩ := (hcomplete slot slots).mp hrow
      exact ⟨⟨slot, hslot, hx⟩, slots, hrest, hrow⟩
    · rintro ⟨⟨slot, hslot, hx⟩, slots, hrest, hrow⟩
      exact ⟨(slot, slots), (foldlM_cons_iff hnew hn).mpr ⟨hslot, hrest⟩, (hcomplete slot slots).mpr ⟨hx, hrow⟩⟩

end Fields

end StakeLedger.Json
