import StakeLedger.Proofs.Json.Building
import StakeLedger.Proofs.Json.Record
import StakeLedger.Proofs.Json.Splicing

/-!
The places in a tree at which a type is read, as trees with a hole. Main statements: `Hole.read`, where the whole is
read so is what stands there, and anything else that is read as the same may stand there; and `Hole.ofBytes_splice`,
which finds the place in the bytes of a document.
-/

namespace StakeLedger

namespace Json

variable {α β : Type} {as : List Type} {room : Nat} {name : String} {t : Tree}

namespace Fields

inductive Named (name : String) : {as : List Type} → Fields as → {α : Type} → Field α → Prop
  | here {α : Type} {as : List Type} {f : Field α} {rest : Fields as} : f.name = name → Named name (.cons f rest) f
  | there {α β : Type} {as : List Type} {f : Field α} {g : Field β} {rest : Fields as} :
    g.name ≠ name → Named name rest f → Named name (.cons g rest) f

inductive Nth : Nat → {as : List Type} → Fields as → {α : Type} → Field α → Prop
  | here {α : Type} {as : List Type} {f : Field α} {rest : Fields as} : Nth 0 (.cons f rest) f
  | there {i : Nat} {α β : Type} {as : List Type} {f : Field α} {g : Field β} {rest : Fields as} :
    Nth i rest f → Nth (i + 1) (.cons g rest) f

variable {fields : Fields as} {f : Field α} {slots slots' : Slots as} {row : Row as}

theorem Named.accept (h : fields.Named name f) (ha : fields.accept room name t slots = .ok slots') :
    ∃ x, f.codec.read room t = .ok x ∧
      ∀ t', f.codec.read room t' = .ok x → fields.accept room name t' slots = .ok slots' := by
  induction h with
  | @here _ _ f rest hname =>
    obtain ⟨slot, slots⟩ := slots
    have haccept : ∀ t, (cons f rest).accept room name t (slot, slots) = _ := fun t => if_pos hname
    rw [haccept] at ha
    cases slot with
    | some y => cases ha
    | none =>
      obtain ⟨x, hx, he⟩ := map_eq_ok.mp ha
      refine ⟨x, hx, fun t' hx' => ?_⟩
      rw [haccept]
      exact map_eq_ok.mpr ⟨x, hx', he⟩
  | @there _ _ _ f g rest hname _ ih =>
    obtain ⟨slot, slots⟩ := slots
    have haccept : ∀ t, (cons g rest).accept room name t (slot, slots) = _ := fun t => if_neg hname
    rw [haccept] at ha
    obtain ⟨later, hlater, he⟩ := map_eq_ok.mp ha
    obtain ⟨x, hx, hother⟩ := ih hlater
    refine ⟨x, hx, fun t' hx' => ?_⟩
    rw [haccept]
    exact map_eq_ok.mpr ⟨later, hother t' hx', he⟩

theorem Named.readMembers {before after : List (Option String × Tree)} {closed : Bool} (h : fields.Named name f)
    (hread : fields.readMembers room (before ++ (some name, t) :: after) closed = .ok row) :
    ∃ x, f.codec.read room t = .ok x ∧ ∀ t', f.codec.read room t' = .ok x →
      fields.readMembers room (before ++ (some name, t') :: after) closed = .ok row := by
  obtain ⟨final, hfold, hrow⟩ := bind_eq_ok.mp hread
  rw [List.foldlM_append] at hfold
  obtain ⟨slots, hbefore, hfold⟩ := bind_eq_ok.mp hfold
  rw [List.foldlM_cons] at hfold
  obtain ⟨slots', ha, hafter⟩ := bind_eq_ok.mp hfold
  obtain ⟨x, hx, hother⟩ := h.accept ha
  refine ⟨x, hx, fun t' hx' => bind_eq_ok.mpr ⟨final, ?_, hrow⟩⟩
  have ha' : fields.acceptMember room slots (some name, t') = .ok slots' := hother t' hx'
  rw [List.foldlM_append, hbefore, ok_bind, List.foldlM_cons, ha', ok_bind, hafter]

theorem Nth.readItems {before after : List Tree} {closed : Bool} (h : fields.Nth before.length f)
    (hread : fields.readItems room (before ++ t :: after) closed = .ok row) :
    ∃ x, f.codec.read room t = .ok x ∧ ∀ t', f.codec.read room t' = .ok x →
      fields.readItems room (before ++ t' :: after) closed = .ok row := by
  generalize hi : before.length = i at h
  induction h generalizing before with
  | here =>
    obtain rfl := List.eq_nil_of_length_eq_zero hi
    obtain ⟨x, hx, hrest⟩ := bind_eq_ok.mp hread
    exact ⟨x, hx, fun t' hx' => bind_eq_ok.mpr ⟨x, hx', hrest⟩⟩
  | there _ ih =>
    obtain ⟨first, before, rfl⟩ := List.exists_cons_of_length_eq_add_one hi
    obtain ⟨y, hy, hrest⟩ := bind_eq_ok.mp hread
    obtain ⟨later, hlater, he⟩ := bind_eq_ok.mp hrest
    obtain ⟨x, hx, hother⟩ := ih hlater (Nat.succ.inj hi)
    exact ⟨x, hx, fun t' hx' => bind_eq_ok.mpr ⟨y, hy, bind_eq_ok.mpr ⟨later, hother t' hx', he⟩⟩⟩

theorem read_record_eq_ok {members : List (Option String × Tree)} {closed : Bool} :
    fields.read room (.record members closed) = .ok row ↔
      room ≠ 0 ∧ fields.readMembers (room - 1) members closed = .ok row := by
  rw [Fields.read]
  by_cases h0 : room = 0
  · rw [if_pos h0]
    constructor
    · intro h
      cases h
    · intro h
      exact absurd h0 h.1
  · rw [if_neg h0, and_iff_right h0]

theorem read_list_eq_ok {items : List Tree} {closed : Bool} :
    fields.read room (.list items closed) = .ok row ↔
      room ≠ 0 ∧ fields.readItems (room - 1) items closed = .ok row := by
  rw [Fields.read]
  by_cases h0 : room = 0
  · rw [if_pos h0]
    constructor
    · intro h
      cases h
    · intro h
      exact absurd h0 h.1
  · rw [if_neg h0, and_iff_right h0]

theorem closed_of_readItems {items : List Tree} {closed : Bool} (h : fields.readItems room items closed = .ok row) :
    closed = true := by
  induction fields generalizing items with
  | nil =>
    rw [readItems] at h
    split at h
    · next hclosed => exact hclosed.2
    · cases h
  | cons field rest ih =>
    cases items with
    | nil =>
      rw [readItems] at h
      split at h
      · next hclosed => exact hclosed
      · cases h
    | cons t items =>
      obtain ⟨x, -, hitems⟩ := bind_eq_ok.mp h
      obtain ⟨later, hlater, -⟩ := bind_eq_ok.mp hitems
      exact ih hlater

theorem isOpen_of_read (h : fields.read room t = .ok row) : t.isOpen = false := by
  cases t with
  | record members closed =>
    obtain ⟨-, hmembers⟩ := read_record_eq_ok.mp h
    obtain ⟨slots, -, hcomplete⟩ := bind_eq_ok.mp hmembers
    cases closed with
    | false => cases hcomplete
    | true => rfl
  | list items closed =>
    obtain ⟨-, hitems⟩ := read_list_eq_ok.mp h
    rw [Tree.isOpen, closed_of_readItems hitems]
    rfl
  | _ => cases h

end Fields

inductive Hole {β : Type} (part : Codec β) : {α : Type} → Codec α → (Tree → Tree) → Prop
  | here : Hole part part id
  | optional {α : Type} {c : Codec α} {k : Tree → Tree} :
    (∀ u, k u ≠ .null) → Hole part c k → Hole part c.optional k
  | item {α : Type} {c : Codec α} {k : Tree → Tree} (before after : List Tree) (closed : Bool) :
    Hole part c k → Hole part (.list c) fun u => .list (before ++ k u :: after) closed
  | member {ρ : Type} {as : List Type} {fields : Fields as} {build : Row as → ρ} {parts : ρ → Row as} {name : String}
    {α : Type} {f : Field α} {k : Tree → Tree} (before after : List (Option String × Tree)) (closed : Bool) :
    fields.Named name f → Hole part f.codec k →
    Hole part (.record fields build parts) fun u => .record (before ++ (some name, k u) :: after) closed
  | nth {ρ : Type} {as : List Type} {fields : Fields as} {build : Row as → ρ} {parts : ρ → Row as} {α : Type}
    {f : Field α} {k : Tree → Tree} (before after : List Tree) (closed : Bool) :
    fields.Nth before.length f → Hole part f.codec k →
    Hole part (.record fields build parts) fun u => .list (before ++ k u :: after) closed

inductive Inside (name : String) : (Tree → Tree) → Prop
  | intro (before after : List (Option String × Tree)) (closed : Bool) :
    Inside name fun u => .record (before ++ (some name, u) :: after) closed

inductive Among : (Tree → Tree) → Prop
  | intro (before after : List Tree) (closed : Bool) : Among fun u => .list (before ++ u :: after) closed

theorem Inside.hole {ρ : Type} {part : Codec β} {fields : Fields as} {build : Row as → ρ} {parts : ρ → Row as}
    {f : Field α} {outer k : Tree → Tree} (h : Inside name outer) (hf : fields.Named name f)
    (hk : Hole part f.codec k) : Hole part (.record fields build parts) (outer ∘ k) := by
  obtain ⟨before, after, closed⟩ := h
  exact .member before after closed hf hk

theorem Among.hole {part : Codec β} {c : Codec α} {outer k : Tree → Tree} (h : Among outer) (hk : Hole part c k) :
    Hole part (.list c) (outer ∘ k) := by
  obtain ⟨before, after, closed⟩ := h
  exact .item before after closed hk

theorem Inside.ne_null {outer : Tree → Tree} (h : Inside name outer) (u : Tree) : outer u ≠ .null := by
  cases h
  exact nofun

theorem mapM_splice {ε α β : Type} {g : α → Except ε β} {before after : List α} {a : α} {ys : List β}
    (h : (before ++ a :: after).mapM g = .ok ys) :
    ∃ y, g a = .ok y ∧ ∀ a', g a' = .ok y → (before ++ a' :: after).mapM g = .ok ys := by
  obtain ⟨y, hy⟩ := mapM_ok_iff.mp ⟨ys, h⟩ a (List.mem_append_right _ List.mem_cons_self)
  refine ⟨y, hy, fun a' hy' => ?_⟩
  rw [List.mapM_append, List.mapM_cons, hy] at h
  rwa [List.mapM_append, List.mapM_cons, hy']

theorem Hole.read {part : Codec β} {c : Codec α} {k : Tree → Tree} {u : Tree} {x : α} (h : Hole part c k)
    (hread : c.read room (k u) = .ok x) :
    ∃ inner y, part.read inner u = .ok y ∧ ∀ v, part.read inner v = .ok y → c.read room (k v) = .ok x := by
  induction h generalizing room with
  | here => exact ⟨room, x, hread, fun _ hv => hv⟩
  | optional hnull _ ih =>
    rw [Codec.read_optional (hnull u)] at hread
    obtain ⟨y, hy, he⟩ := map_eq_ok.mp hread
    obtain ⟨inner, z, hz, hother⟩ := ih hy
    refine ⟨inner, z, hz, fun v hv => ?_⟩
    rw [Codec.read_optional (hnull v)]
    exact map_eq_ok.mpr ⟨y, hother v hv, he⟩
  | item before after closed _ ih =>
    obtain ⟨h0, items, hitems, hmap⟩ := Codec.list_of_read hread
    cases hitems
    obtain ⟨y, hy, hsplice⟩ := mapM_splice hmap
    obtain ⟨inner, z, hz, hother⟩ := ih hy
    exact ⟨inner, z, hz, fun v hv => (Codec.read_list h0).mpr (hsplice _ (hother v hv))⟩
  | member before after closed hf _ ih =>
    obtain ⟨row, hrow, he⟩ := map_eq_ok.mp hread
    obtain ⟨h0, hmembers⟩ := Fields.read_record_eq_ok.mp hrow
    obtain ⟨y, hy, hsplice⟩ := hf.readMembers hmembers
    obtain ⟨inner, z, hz, hother⟩ := ih hy
    exact ⟨inner, z, hz, fun v hv => map_eq_ok.mpr ⟨row, Fields.read_record_eq_ok.mpr ⟨h0, hsplice _ (hother v hv)⟩, he⟩⟩
  | nth before after closed hf _ ih =>
    obtain ⟨row, hrow, he⟩ := map_eq_ok.mp hread
    obtain ⟨h0, hitems⟩ := Fields.read_list_eq_ok.mp hrow
    obtain ⟨y, hy, hsplice⟩ := hf.readItems hitems
    obtain ⟨inner, z, hz, hother⟩ := ih hy
    exact ⟨inner, z, hz, fun v hv => map_eq_ok.mpr ⟨row, Fields.read_list_eq_ok.mpr ⟨h0, hsplice _ (hother v hv)⟩, he⟩⟩

/-! ### The text of a place -/

theorem forall_getLast?_append {α : Type} {P : α → Prop} {xs ys : List α} (hx : ∀ x ∈ xs.getLast?, P x)
    (hy : ∀ y ∈ ys.getLast?, P y) : ∀ z ∈ (xs ++ ys).getLast?, P z := by
  intro z hz
  rw [List.getLast?_append] at hz
  cases hlast : ys.getLast? with
  | none =>
    rw [hlast] at hz
    exact hx z hz
  | some y =>
    rw [hlast] at hz hy
    exact hy z hz

theorem not_isNumber_of_getLast? {opener separator : Token} {ts : List Token} (ho : ¬ Lexer.IsNumber opener)
    (hs : ¬ Lexer.IsNumber separator) : ∀ t ∈ (opener :: (ts ++ [separator]).tail).getLast?, ¬ Lexer.IsNumber t := by
  cases ts with
  | nil =>
    rintro t ⟨⟩
    exact ho
  | cons t ts =>
    rw [List.cons_append, List.tail_cons, ← List.cons_append, List.getLast?_concat]
    rintro t ⟨⟩
    exact hs

def Around (k : Tree → Tree) : Prop :=
  ∃ before after, (∀ u, (k u).tokens = before ++ u.tokens ++ after) ∧ ∀ t ∈ before.getLast?, ¬ Lexer.IsNumber t

theorem Around.list {k : Tree → Tree} (h : Around k) (first later : List Tree) (closed : Bool) :
    Around fun u => .list (first ++ k u :: later) closed := by
  obtain ⟨before, after, htokens, hlast⟩ := h
  refine ⟨(.openList :: (Tree.itemTokens first ++ [Token.comma]).tail) ++ before,
    after ++ Tree.itemTokens later ++ [.closeList], fun u => ?_,
    forall_getLast?_append (not_isNumber_of_getLast? id id) hlast⟩
  rw [Tree.tokens, Tree.itemTokens_append, Tree.itemTokens, List.cons_append, List.cons_append, tail_append_cons, htokens]
  simp only [List.cons_append, List.append_assoc]

theorem Around.record {k : Tree → Tree} (h : Around k) (first later : List (Option String × Tree)) (closed : Bool)
    (key : Option String) : Around fun u => .record (first ++ (key, k u) :: later) closed := by
  obtain ⟨before, after, htokens, hlast⟩ := h
  refine ⟨(.openRecord :: ((Tree.memberTokens first ++ [Token.comma, Token.text key]) ++ [Token.colon]).tail) ++ before,
    after ++ Tree.memberTokens later ++ [.closeRecord], fun u => ?_,
    forall_getLast?_append (not_isNumber_of_getLast? id id) hlast⟩
  rw [Tree.tokens, Tree.memberTokens_append, Tree.memberTokens, htokens]
  simp only [List.cons_append, List.append_assoc, List.nil_append]
  rw [tail_append_cons, tail_append_cons _ _ [Token.text key, .colon]]
  simp only [List.cons_append, List.append_assoc, List.nil_append]

theorem Hole.around {part : Codec β} {c : Codec α} {k : Tree → Tree} (h : Hole part c k) : Around k := by
  induction h with
  | here => exact ⟨[], [], fun u => (List.append_nil _).symm, fun t ht => by cases ht⟩
  | optional _ _ ih => exact ih
  | item before after closed _ ih => exact ih.list before after closed
  | member before after closed _ _ ih => exact ih.record before after closed _
  | nth before after closed _ _ ih => exact ih.list before after closed

theorem Hole.whole {part : Codec β} {c : Codec α} {k : Tree → Tree} {u v : Tree} (h : Hole part c k)
    (hu : (k u).Whole) (hv : v.Whole) : (k v).Whole := by
  have hlist : ∀ {k : Tree → Tree} {before after : List Tree} {closed : Bool}, ((k u).Whole → (k v).Whole) →
      (Tree.list (before ++ k u :: after) closed).Whole → (Tree.list (before ++ k v :: after) closed).Whole := by
    intro k before after closed ih hall
    obtain ⟨hitems, rfl⟩ := hall.of_list
    obtain ⟨hbefore, hrest⟩ := List.forall_mem_append.mp hitems
    obtain ⟨hk, hafter⟩ := List.forall_mem_cons.mp hrest
    exact .list (List.forall_mem_append.mpr ⟨hbefore, List.forall_mem_cons.mpr ⟨ih hk, hafter⟩⟩)
  induction h with
  | here => exact hv
  | optional _ _ ih => exact ih hu
  | item before after closed _ ih => exact hlist ih hu
  | nth before after closed _ _ ih => exact hlist ih hu
  | member before after closed _ _ ih =>
    obtain ⟨hmembers, rfl⟩ := hu.of_record
    obtain ⟨hbefore, hrest⟩ := List.forall_mem_append.mp hmembers
    obtain ⟨hk, hafter⟩ := List.forall_mem_cons.mp hrest
    exact .record (List.forall_mem_append.mpr ⟨hbefore, List.forall_mem_cons.mpr ⟨ih hk, hafter⟩⟩)

theorem Hole.ofBytes_splice {part : Codec β} {c : Codec α} {k : Tree → Tree} {n : Option Number} {content : Bytes}
    (h : Hole part c k) (hdoc : Document.ofBytes content = ⟨k (.number n), false⟩)
    (hopen : (k (.number n)).isOpen = false) :
    ∃ pre lit post, content = pre ++ lit ++ post ∧ Document.ofBytes lit = ⟨.number n, false⟩ ∧
      ∀ quoted s, Document.ofBytes quoted = ⟨.text s, false⟩ →
        Document.ofBytes (pre ++ quoted ++ post) = ⟨k (.text s), false⟩ := by
  obtain ⟨before, after, htokens, hlast⟩ := h.around
  obtain ⟨hwhole, hcontent⟩ := tokens_of_ofTokens hdoc hopen
  have hsplit : tokens (Utf8.decode content) = before ++ .number n :: after := by
    rw [hcontent, htokens, List.append_assoc]
    rfl
  obtain ⟨pre, lit, post, rfl, hlit, hsplice⟩ := tokens_decode_splice hsplit hlast
  refine ⟨pre, lit, post, rfl, ?_, fun quoted s hquoted => ?_⟩
  · change Document.ofTokens (tokens (Utf8.decode lit)) = _
    rw [hlit]
    exact ofTokens_tokens .number
  · have hall := hsplice quoted s (tokens_of_ofTokens hquoted rfl).2
    have htext : (k (.text s)).tokens = before ++ .text s :: after := by
      rw [htokens, List.append_assoc]
      rfl
    change Document.ofTokens (tokens (Utf8.decode (pre ++ quoted ++ post))) = _
    rw [hall, ← htext]
    exact ofTokens_tokens (h.whole hwhole .text)

end Json

end StakeLedger
