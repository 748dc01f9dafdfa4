import StakeLedger.Json.Tagged
import StakeLedger.Proofs.Json.Lookup
import StakeLedger.Proofs.Json.Tree

/-!
The ways to write a value down: the members of a record in any order, others that it does not know among them, and
those left out that hold their default. Main statement: `Spells.read`, whatever the way, the value is read.
-/

namespace StakeLedger

namespace Json

variable {α : Type} {as : List Type} {fields : Fields as} {row : Row as} {f : Field α} {x : α}

inductive Fields.Holds : {as : List Type} → Fields as → Row as → {α : Type} → Field α → α → Prop
  | here {α : Type} {as : List Type} {f : Field α} {rest : Fields as} {x : α} {row : Row as} :
    Holds (.cons f rest) (x, row) f x
  | there {α β : Type} {as : List Type} {f : Field α} {g : Field β} {rest : Fields as} {x : α} {y : β} {row : Row as} :
    Holds rest row f x → Holds (.cons g rest) (y, row) f x

structure Lossless {ρ : Type} (fields : Fields as) (build : Row as → ρ) (parts : ρ → Row as) : Prop where
  names : fields.names.Nodup
  parts : ∀ x, build (parts x) = x
  shown : fields.Each fun f => ∀ x, f.hidden x = false

inductive Spells : {α : Type} → Codec α → α → Tree → Prop
  | text {s : String} : Spells .text s (.text (some s))
  | bool {b : Bool} : Spells .bool b (.bool b)
  | int64 {n : Int64} : Spells .int64 n (.number (some (.ofInt64 n)))
  | uint64 {n : UInt64} : Spells .uint64 n (.number (some (.ofUInt64 n)))
  | uint32 {n : UInt32} : Spells .uint32 n (.number (some (.ofUInt64 n.toUInt64)))
  | bytes {b : Bytes} : Spells .bytes b (.text (some (Base64.encode b)))
  | choice {α : Type} [DecidableEq α] {names : List (String × α)} {name : String} {x : α} :
    names.lookup name = some x → Spells (.choice names) x (.text (some name))
  | null {α : Type} {c : Codec α} : Spells c.optional none .null
  | optional {α : Type} {c : Codec α} {x : α} {t : Tree} : t ≠ .null → Spells c x t → Spells c.optional (some x) t
  | list {α : Type} {c : Codec α} {xs : List α} {ts : List Tree} :
    xs.length = ts.length → (∀ p ∈ xs.zip ts, Spells c p.1 p.2) → Spells (.list c) xs (.list ts true)
  | tagged {kind : String} {b : Bytes} {members : List (Option String × Tree)} :
    Told ["type", "value"] members → members.lookup (some "type") = some (.text (some kind)) →
    members.lookup (some "value") = some (.text (some (Base64.encode b))) →
    Spells (.tagged kind .bytes) b (.record members true)
  | mapped {α β : Type} {c : Codec α} {build : α → β} {part : β → α} {x : α} {t : Tree} :
    part (build x) = x → Spells c x t →
    Spells ⟨fun y => c.write (part y), fun room t => (c.read room t).map build⟩ (build x) t
  | record {ρ : Type} {as : List Type} {fields : Fields as} {build : Row as → ρ} {parts : ρ → Row as} {x : ρ}
    {members : List (Option String × Tree)} : Lossless fields build parts → Told fields.names members →
    (∀ {α : Type} (f : Field α) (y : α) (t : Tree), fields.Holds (parts x) f y →
      members.lookup (some f.name) = some t → Spells f.codec y t) →
    (∀ {α : Type} (f : Field α) (y : α), fields.Holds (parts x) f y →
      members.lookup (some f.name) = none → f.absent = some y) →
    Spells (.record fields build parts) x (.record members true)

theorem Fields.Holds.mem_names (h : fields.Holds row f x) : f.name ∈ fields.names := by
  induction h with
  | here => exact List.mem_cons_self
  | there _ ih => exact List.mem_cons_of_mem _ ih

theorem Fields.all_of_holds {Q : {α : Type} → Field α → α → Prop}
    (h : ∀ {α : Type} (f : Field α) (x : α), fields.Holds row f x → Q f x) : fields.All Q row := by
  induction fields with
  | nil => trivial
  | cons field rest ih => exact ⟨h _ _ .here, ih fun f x hf => h f x (.there hf)⟩

theorem Fields.Each.of_holds {P : {α : Type} → Field α → Prop} (h : fields.Each P) (hf : fields.Holds row f x) :
    P f := by
  induction hf with
  | here => exact h.1
  | there _ ih => exact ih h.2

theorem Fields.Each.imp {P Q : {α : Type} → Field α → Prop} (h : ∀ {α : Type} (f : Field α), P f → Q f)
    (hf : fields.Each P) : fields.Each Q := by
  induction fields with
  | nil => trivial
  | cons field rest ih => exact ⟨h field hf.1, ih hf.2⟩

theorem Fields.All.of_holds {Q : {α : Type} → Field α → α → Prop} (h : fields.All Q row) (hf : fields.Holds row f x) :
    Q f x := by
  induction hf with
  | here => exact h.1
  | there _ ih => exact ih h.2

def Field.Spelled (members : List (Option String × Tree)) (f : Field α) (x : α) : Prop :=
  match members.lookup (some f.name) with
  | some t => Spells f.codec x t
  | none => f.absent = some x

theorem Field.Spelled.shown {members : List (Option String × Tree)} {t : Tree}
    (ht : members.lookup (some f.name) = some t) (h : Spells f.codec x t) : f.Spelled members x := by
  rwa [Spelled, ht]

theorem Field.Spelled.left_out {members : List (Option String × Tree)} (hnone : members.lookup (some f.name) = none)
    (h : f.absent = some x) : f.Spelled members x := by
  rwa [Spelled, hnone]

theorem Spells.of_fields {ρ : Type} {build : Row as → ρ} {parts : ρ → Row as} {x : ρ}
    {members : List (Option String × Tree)} (hl : Lossless fields build parts) (hn : Told fields.names members)
    (h : fields.All (Field.Spelled members) (parts x)) :
    Spells (.record fields build parts) x (.record members true) := by
  refine .record hl hn (fun f y t hf ht => ?_) fun f y hf hnone => ?_
  · have hspelled := h.of_holds hf
    rwa [Field.Spelled, ht] at hspelled
  · have hspelled := h.of_holds hf
    rwa [Field.Spelled, hnone] at hspelled

theorem Fields.Holds.mem_write (h : fields.Holds row f x) (hf : f.hidden x = false) :
    (f.name, f.codec.write x) ∈ fields.write row := by
  induction h with
  | here =>
    rw [write, if_neg (ne_true_of_eq_false hf)]
    exact List.mem_cons_self
  | there _ ih =>
    rw [write]
    split
    · exact ih hf
    · exact List.mem_cons_of_mem _ (ih hf)

theorem depth_le_depthItems {c : Codec α} {xs : List α} (h : x ∈ xs) :
    (c.write x).depth ≤ depthItems (xs.map c.write) := by
  induction xs with
  | nil => cases h
  | cons y ys ih =>
    rw [List.map_cons, depthItems]
    rcases List.mem_cons.mp h with rfl | h
    · exact Nat.le_max_left _ _
    · exact Nat.le_trans (ih h) (Nat.le_max_right _ _)

theorem mapM_of_zip {ε β : Type} {g : β → Except ε α} : ∀ {xs : List α} {ts : List β}, xs.length = ts.length →
    (∀ p ∈ xs.zip ts, g p.2 = .ok p.1) → ts.mapM g = .ok xs
  | [], [], _, _ => rfl
  | [], _ :: _, hl, _ => nomatch hl
  | _ :: _, [], hl, _ => nomatch hl
  | x :: xs, t :: ts, hl, h => by
    rw [List.zip_cons_cons, List.forall_mem_cons] at h
    rw [List.mapM_cons, h.1, mapM_of_zip (Nat.succ.inj hl) h.2]
    rfl

namespace Tagged

variable {room : Nat} {members : List (Option String × Tree)} {tag : Codec Unit} {c : Codec α} {p q r : Progress α}
  {t t' : Tree} {v : Opaque}

def Unknown (m : Option String × Tree) : Prop := m.1 ≠ none ∧ m.1 ≠ some "type" ∧ m.1 ≠ some "value"

theorem foldlM_unknown (h : ∀ m ∈ members, Unknown m) : members.foldlM (step tag c room) p = .ok p := by
  induction members with
  | nil => rfl
  | cons m ms ih =>
    obtain ⟨⟨hnamed, hkind, hvalue⟩, hms⟩ := List.forall_mem_cons.mp h
    obtain ⟨_ | name, t⟩ := m
    · exact absurd rfl hnamed
    · have hstep : step tag c room p (some name, t) = .ok p := by
        have hne : name ≠ "type" := fun he => hkind (congrArg some he)
        have hne' : name ≠ "value" := fun he => hvalue (congrArg some he)
        simp only [step, hne, hne', if_false]
      rw [List.foldlM_cons, hstep]
      exact ih hms

theorem foldlM_two {first middle last : List (Option String × Tree)} {m m' : Option String × Tree}
    (hfirst : ∀ m ∈ first, Unknown m) (hm : step tag c room p m = .ok q) (hmiddle : ∀ m ∈ middle, Unknown m)
    (hm' : step tag c room q m' = .ok r) (hlast : ∀ m ∈ last, Unknown m) :
    (first ++ m :: (middle ++ m' :: last)).foldlM (step tag c room) p = .ok r := by
  rw [List.foldlM_append, foldlM_unknown hfirst, ok_bind, List.foldlM_cons, hm, ok_bind, List.foldlM_append,
    foldlM_unknown hmiddle, ok_bind, List.foldlM_cons, hm', ok_bind, foldlM_unknown hlast]

theorem exists_unknown {first last : List (Option String × Tree)} {name name' : String} {t t' : Tree}
    (h : Told ["type", "value"] (first ++ (some name, t) :: last))
    (hnames : [name, name'].Perm ["type", "value"]) (hm : (some name', t') ∈ last) :
    ∃ middle rest, last = middle ++ (some name', t') :: rest ∧ (∀ m ∈ first, Unknown m) ∧
      (∀ m ∈ middle, Unknown m) ∧ ∀ m ∈ rest, Unknown m := by
  obtain ⟨middle, rest, rfl⟩ := List.append_of_mem hm
  have hname : ∀ m ∈ first ++ (middle ++ (some name', t') :: rest), m.1 ≠ some name :=
    h.others (hnames.mem_iff.mp List.mem_cons_self)
  have hname' : ∀ m ∈ (first ++ (some name, t) :: middle) ++ rest, m.1 ≠ some name' := by
    have h' := h
    rw [← List.cons_append, ← List.append_assoc] at h'
    exact h'.others (hnames.mem_iff.mp (List.mem_cons_of_mem _ List.mem_cons_self))
  have hunknown : ∀ m ∈ first ++ (middle ++ rest), Unknown m := by
    intro m hm
    have hboth : ∀ known ∈ [name, name'], m.1 ≠ some known := by
      refine List.forall_mem_cons.mpr ⟨hname m ?_, List.forall_mem_singleton.mpr (hname' m ?_)⟩
      · grind
      · grind
    refine ⟨h.named m (by grind), hboth _ (hnames.mem_iff.mpr List.mem_cons_self), hboth _ ?_⟩
    exact hnames.mem_iff.mpr (List.mem_cons_of_mem _ List.mem_cons_self)
  refine ⟨middle, rest, rfl, fun m hm => hunknown m ?_, fun m hm => hunknown m ?_, fun m hm => hunknown m ?_⟩
  · exact List.mem_append_left _ hm
  · exact List.mem_append_right _ (List.mem_append_left _ hm)
  · exact List.mem_append_right _ (List.mem_append_right _ hm)

theorem step_kind (ht : tag.read room t = .ok ()) : step tag c room .start (some "type", t) = .ok .kind := by
  simp only [step, if_true, ht]
  rfl

theorem step_value (ht : c.read room t = .ok x) : step tag c room .kind (some "value", t) = .ok (.done x) := by
  simp only [step, String.reduceEq, if_true, if_false, ht]
  rfl

theorem step_held (ht : Opaque.read room t = .ok v) : step tag c room .start (some "value", t) = .ok (.held v) := by
  simp only [step, String.reduceEq, if_true, if_false, ht]
  rfl

theorem step_kind_held (ht : tag.read room t = .ok ()) (hv : c.ofJson v.value = .ok x) :
    step tag c room (.held v) (some "type", t) = .ok (.done x) := by
  simp only [step, if_true, ht, hv, ok_bind]

theorem readMembers_of_foldlM (h : members.foldlM (step tag c room) .start = .ok (.done x)) :
    readMembers tag c room members true = .ok x := by
  rw [readMembers, h]
  rfl

theorem readMembers_of_lookup (h : Told ["type", "value"] members) (hkind : members.lookup (some "type") = some t)
    (hvalue : members.lookup (some "value") = some t') (ht : tag.read room t = .ok ())
    (hx : c.read room t' = .ok x) (hv : Opaque.read room t' = .ok v) (hheld : c.ofJson v.value = .ok x) :
    readMembers tag c room members true = .ok x := by
  refine readMembers_of_foldlM ?_
  obtain ⟨before, after, rfl, -⟩ := List.lookup_eq_some_iff.mp hkind
  have hmem := mem_of_lookup hvalue
  -- A value that comes before the kind is held until it is known what to read it as.
  rcases List.mem_append.mp hmem with hmem | hmem
  · obtain ⟨first, rest, rfl⟩ := List.append_of_mem hmem
    rw [List.append_assoc, List.cons_append] at h ⊢
    obtain ⟨middle, last, he, hfirst, hmiddle, hlast⟩ := exists_unknown h (.swap _ _ _)
      (List.mem_append_right _ List.mem_cons_self)
    rw [he]
    exact foldlM_two hfirst (step_held hv) hmiddle (step_kind_held ht hheld) hlast
  · rcases List.mem_cons.mp hmem with hsame | hmem
    · have hnames : "value" = "type" := Option.some.inj (congrArg Prod.fst hsame)
      exact absurd hnames (by decide)
    · obtain ⟨middle, last, rfl, hfirst, hmiddle, hlast⟩ := exists_unknown h (.refl _) hmem
      exact foldlM_two hfirst (step_kind ht) hmiddle (step_value hx) hlast

end Tagged

theorem Spells.read {c : Codec α} {t : Tree} (h : Spells c x t) :
    ∀ room, (c.write x).depth ≤ room → c.read room t = .ok x := by
  -- Unknown members may nest deeper than the value, so room is measured on how the value itself is written.
  induction h with
  | text => exact Codec.readsBack_text _
  | bool => exact fun _ _ => rfl
  | int64 => exact Codec.readsBack_int64 _
  | uint64 => exact fun room _ => Codec.read_uint64 _ room
  | uint32 => exact fun room _ => Codec.read_uint32 _ room
  | bytes => exact Codec.readsBack_bytes _
  | choice hname => exact fun room _ => Codec.read_choice hname room
  | null => exact Codec.readsBack_none
  | optional ht _ ih =>
    intro room hd
    rw [Codec.read_optional ht, ih room hd]
    rfl
  | @list _ c xs ts hl _ ih =>
    intro room hd
    change depthItems (xs.map c.write) + 1 ≤ room at hd
    have hitems : ts.mapM (c.read (room - 1)) = .ok xs := by
      refine mapM_of_zip hl fun p hp => ih p hp (room - 1) ?_
      have hdepth := depth_le_depthItems (c := c) (List.of_mem_zip hp).1
      omega
    exact (Codec.read_list (by omega)).mpr hitems
  | tagged hn hkind hvalue =>
    intro room hd
    change (if room = 0 then Except.error Fault.malformed else _) = _
    rw [if_neg (by change 0 + 1 ≤ room at hd; omega)]
    exact Tagged.readMembers_of_lookup hn hkind hvalue (Codec.read_choice List.lookup_cons_self _)
      (Codec.readsBack_bytes _ _ (Nat.zero_le _)) (Opaque.read_of_value (x := ⟨.text _, rfl⟩) rfl)
      (Codec.readsBack_bytes _ _ (Nat.zero_le _))
  | mapped hpart _ ih =>
    intro room hd
    dsimp only at hd ⊢
    rw [hpart] at hd
    rw [ih room hd]
    rfl
  | @record ρ as fields build parts x members hl hn _ hleft ih =>
    intro room hd
    change depthMembers (fields.write (parts x)) + 1 ≤ room at hd
    have hpicks : fields.All (Field.Picks (room - 1) members) (parts x) := by
      refine Fields.all_of_holds fun f y hf => ?_
      have hmem := hf.mem_write (hl.shown.of_holds hf y)
      have hdepth := depth_le_of_mem hmem
      rw [Field.Picks]
      split
      · next t ht => exact ih f y t hf ht (room - 1) (by dsimp only at hdepth; omega)
      · next ht => exact hleft f y hf ht
    change (fields.read room (.record members true)).map build = _
    rw [Fields.read, if_neg (by omega), (Fields.readMembers_iff hl.names hn).mpr hpicks]
    exact congrArg Except.ok (hl.parts x)

theorem itemTrees_eq (xs : List Json) : itemTrees xs = xs.map toTree := by
  induction xs with
  | nil => rfl
  | cons x xs ih => rw [itemTrees, ih, List.map_cons]

theorem Fields.map_fst_write (h : fields.Each fun f => ∀ x, f.hidden x = false) :
    (fields.write row).map Prod.fst = fields.names := by
  induction fields with
  | nil => rfl
  | cons field rest ih =>
    obtain ⟨x, row⟩ := row
    rw [write, if_neg (ne_true_of_eq_false (h.1 x)), List.map_cons, ih h.2]
    rfl

theorem Fields.Holds.lookup_write (h : fields.Holds row f x) (hn : fields.names.Nodup)
    (hs : fields.Each fun f => ∀ x, f.hidden x = false) :
    (fields.write row).lookup f.name = some (f.codec.write x) := by
  induction h with
  | @here _ _ f _ x =>
    rw [write, if_neg (ne_true_of_eq_false (hs.1 x)), List.lookup_cons_self]
  | @there _ _ _ f g _ _ y _ hrest ih =>
    obtain ⟨hnew, hn⟩ := List.nodup_cons.mp hn
    have hne : (f.name == g.name) = false := beq_eq_false_iff_ne.mpr fun he => hnew (he ▸ hrest.mem_names)
    rw [write, if_neg (ne_true_of_eq_false (hs.1 y)), List.lookup_cons, hne]
    exact ih hn hs.2

end Json

namespace Codec

open Json

variable {α : Type} {c : Codec α} {x : α} {k : Nat}

structure Faithful (c : Codec α) (k : Nat) : Prop where
  spells : ∀ x, Spells c x (c.write x).toTree
  depth : ∀ x, (c.write x).depth ≤ k
  exact : ∀ x, (c.write x).isExact = true

theorem faithful_text : text.Faithful k := ⟨fun _ => .text, fun _ => Nat.zero_le k, fun _ => rfl⟩

theorem faithful_bool : bool.Faithful k := ⟨fun _ => .bool, fun _ => Nat.zero_le k, fun _ => rfl⟩

theorem faithful_int64 : int64.Faithful k := ⟨fun _ => .int64, fun _ => Nat.zero_le k, fun _ => rfl⟩

theorem faithful_uint64 : uint64.Faithful k :=
  ⟨fun n => toTree_integer (x := n) ▸ .uint64, fun _ => Nat.zero_le k, fun _ => rfl⟩

theorem faithful_uint32 : uint32.Faithful k :=
  ⟨fun n => toTree_integer (x := n) ▸ .uint32, fun _ => Nat.zero_le k, fun _ => rfl⟩

theorem faithful_bytes : bytes.Faithful k := ⟨fun _ => .bytes, fun _ => Nat.zero_le k, fun _ => rfl⟩

theorem faithful_choice [DecidableEq α] {names : List (String × α)}
    (h : ∀ x, names.lookup (((names.find? fun (_, y) => y = x).map Prod.fst).getD "") = some x) :
    (choice names).Faithful k := ⟨fun x => .choice (h x), fun _ => Nat.zero_le k, fun _ => rfl⟩

theorem Faithful.optional (h : c.Faithful k) (hn : ∀ x, c.write x ≠ .null) : c.optional.Faithful k := by
  refine ⟨fun x => ?_, fun x => ?_, fun x => exact_optional fun y _ => h.exact y⟩
  · cases x with
    | none => exact .null
    | some y => exact .optional (toTree_ne_null (hn y)) (h.spells y)
  · cases x with
    | none => exact Nat.zero_le k
    | some y => exact h.depth y

theorem Faithful.list (h : c.Faithful k) : (list c).Faithful (k + 1) := by
  refine ⟨fun xs => ?_, fun xs => ?_, fun xs => itemsExact_map c xs fun x _ => h.exact x⟩
  · change Spells _ xs (.list (itemTrees (xs.map c.write)) true)
    rw [itemTrees_eq, List.map_map]
    refine .list (List.length_map _).symm fun p hp => ?_
    rw [← List.map_prod_left_eq_zip] at hp
    obtain ⟨x, -, rfl⟩ := List.mem_map.mp hp
    exact h.spells x
  · exact Nat.succ_le_succ (depthItems_map c xs fun x _ => h.depth x)

theorem faithful_tagged {kind : String} : (tagged kind .bytes).Faithful (k + 1) := by
  refine ⟨fun b => .tagged ?_ rfl rfl, fun b => ?_, fun _ => rfl⟩
  · have hnames : ([("type", .text kind), ("value", bytes.write b)].map Prod.fst).Nodup := by
      change ["type", "value"].Nodup
      decide
    exact told_memberTrees hnames
  · exact Nat.succ_le_succ (Nat.zero_le k)

theorem Faithful.mapped {β : Type} {build : α → β} {part : β → α} (h : c.Faithful k) (hpart : ∀ x, part (build x) = x)
    (hbuild : ∀ y, build (part y) = y) :
    Codec.Faithful ⟨fun y => c.write (part y), fun room t => (c.read room t).map build⟩ k := by
  refine ⟨fun y => ?_, fun y => h.depth (part y), fun y => h.exact (part y)⟩
  have hy := Spells.mapped (hpart (part y)) (h.spells (part y))
  rwa [hbuild] at hy

structure FaithfulField (k : Nat) (f : Json.Field α) : Prop where
  shown : ∀ x, f.hidden x = false
  codec : f.codec.Faithful k

theorem FaithfulField.required {name : String} (h : c.Faithful k) : FaithfulField k (Field.required name c) :=
  ⟨fun _ => rfl, h⟩

theorem FaithfulField.orElse {name : String} {default : α} (h : c.Faithful k) :
    FaithfulField k (Field.orElse name c default) :=
  ⟨fun _ => rfl, h⟩

theorem Faithful.record {ρ : Type} {as : List Type} {fields : Fields as} {build : Row as → ρ} {parts : ρ → Row as}
    (hn : fields.names.Nodup) (hparts : ∀ x, build (parts x) = x) (hf : fields.Each (FaithfulField k)) :
    (record fields build parts).Faithful (k + 1) := by
  have hl : Lossless fields build parts := ⟨hn, hparts, hf.imp fun _ => FaithfulField.shown⟩
  have h : fields.Each fun f => f.codec.Faithful k := hf.imp fun _ => FaithfulField.codec
  have hlookup : ∀ (x : ρ) {α : Type} (f : Json.Field α) (y : α), fields.Holds (parts x) f y →
      (memberTrees (fields.write (parts x))).lookup (some f.name) = some (f.codec.write y).toTree := by
    intro x α f y hf
    rw [lookup_memberTrees, hf.lookup_write hl.names hl.shown]
    rfl
  have hnames : ∀ x, ((fields.write (parts x)).map Prod.fst).Nodup := fun x =>
    (Fields.map_fst_write hl.shown).symm ▸ hl.names
  refine ⟨fun x => .record hl (told_memberTrees (hnames x)) ?_ ?_, fun x => ?_, fun x => ?_⟩
  · intro α f y t hf ht
    rw [hlookup x f y hf] at ht
    exact Option.some.inj ht ▸ (h.of_holds hf).spells y
  · intro α f y hf hnone
    rw [hlookup x f y hf] at hnone
    cases hnone
  · exact Nat.succ_le_succ (Fields.depthMembers_write (Fields.all_of_holds fun f y hf => (h.of_holds hf).depth y))
  · exact Fields.membersExact_write (Fields.all_of_holds fun f y hf => (h.of_holds hf).exact y)

theorem ofBytes_ofString (s : String) : c.ofBytes (Bytes.ofString s) = c.ofString s :=
  congrArg c.ofDocument (Json.ofBytes_ofString s)

theorem Faithful.ofBytes (h : c.Faithful Json.room) {content : Bytes} {t : Tree}
    (hdoc : Document.ofBytes content = ⟨t, false⟩) (ht : Spells c x t) : c.ofBytes content = .ok x := by
  rw [ofBytes_eq_ok, hdoc]
  exact ⟨ht.read Json.room (h.depth x), rfl⟩

theorem Faithful.ofBytes_compact (h : c.Faithful Json.room) {j : Json} (hj : j.isExact = true)
    (ht : Spells c x j.toTree) : c.ofBytes (Bytes.ofString j.compact) = .ok x :=
  h.ofBytes ((Json.ofBytes_ofString j.compact).trans (Json.ofString_compact hj)) ht

theorem Faithful.ofString_compact (h : c.Faithful Json.room) (x : α) : c.ofString (c.compact x) = .ok x := by
  rw [← ofBytes_ofString]
  exact h.ofBytes_compact (h.exact x) (h.spells x)

end Codec

end StakeLedger
