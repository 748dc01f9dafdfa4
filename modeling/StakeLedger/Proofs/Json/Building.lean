import StakeLedger.Json.Tree

/-!
The tokens of a tree. A text that is a document has the tokens of its tree, and no others. Main statements:
`ofTokens_tokens` and `tokens_of_ofTokens`.
-/

namespace StakeLedger.Json

inductive Tree.Whole : Tree → Prop
  | null : Whole .null
  | bool {b : Bool} : Whole (.bool b)
  | number {n : Option Number} : Whole (.number n)
  | text {s : Option String} : Whole (.text s)
  | list {items : List Tree} : (∀ t ∈ items, Whole t) → Whole (.list items true)
  | record {members : List (Option String × Tree)} : (∀ m ∈ members, Whole m.2) → Whole (.record members true)

def Tree.isOpen : Tree → Bool
  | .fault => true
  | .list _ closed | .record _ closed => !closed
  | _ => false

mutual

def Tree.tokens : Tree → List Token
  | .fault => [.fault]
  | .null => [.null]
  | .bool b => [.bool b]
  | .number n => [.number n]
  | .text s => [.text s]
  | .list items _ => .openList :: (Tree.itemTokens items).tail ++ [.closeList]
  | .record members _ => .openRecord :: (Tree.memberTokens members).tail ++ [.closeRecord]

def Tree.itemTokens : List Tree → List Token
  | [] => []
  | t :: ts => .comma :: t.tokens ++ Tree.itemTokens ts

def Tree.memberTokens : List (Option String × Tree) → List Token
  | [] => []
  | (key, t) :: ms => .comma :: .text key :: .colon :: t.tokens ++ Tree.memberTokens ms

end

variable {items : List Tree} {members : List (Option String × Tree)} {ts : List Token} {t : Tree}

theorem Tree.Whole.of_list {closed : Bool} (h : (Tree.list items closed).Whole) :
    (∀ t ∈ items, t.Whole) ∧ closed = true := by
  cases h with
  | list hitems => exact ⟨hitems, rfl⟩

theorem Tree.Whole.of_record {closed : Bool} (h : (Tree.record members closed).Whole) :
    (∀ m ∈ members, m.2.Whole) ∧ closed = true := by
  cases h with
  | record hmembers => exact ⟨hmembers, rfl⟩

theorem Tree.itemTokens_append {others : List Tree} :
    itemTokens (items ++ others) = itemTokens items ++ itemTokens others := by
  induction items with
  | nil => rfl
  | cons t items ih => rw [List.cons_append, itemTokens, ih, itemTokens, List.append_assoc]

theorem Tree.memberTokens_append {others : List (Option String × Tree)} :
    memberTokens (members ++ others) = memberTokens members ++ memberTokens others := by
  induction members with
  | nil => rfl
  | cons m members ih =>
    obtain ⟨key, t⟩ := m
    rw [List.cons_append, memberTokens, ih, memberTokens, List.append_assoc]

theorem tail_append_cons {α : Type} (xs : List α) (a : α) (ys : List α) :
    (xs ++ a :: ys).tail = (xs ++ [a]).tail ++ ys := by
  cases xs with
  | nil => rfl
  | cons x xs => exact (List.append_assoc xs [a] ys).symm

namespace Builder

variable {stack rest : List Frame} {expected : Expected} {token : Token} {s : State}

/-! ### The tokens of a tree build it -/

theorem step_text (h : takesValue expected = true) (s : Option String) :
    step (.reading stack expected) (.text s) = plug stack (.text s) := by
  cases expected <;> first | rfl | cases h

theorem step_scalar (h : takesValue expected = true)
    (ht : token = .null ∧ t = .null ∨ (∃ b, token = .bool b ∧ t = .bool b) ∨
      ∃ n, token = .number n ∧ t = .number n) :
    step (.reading stack expected) token = plug stack t := by
  rcases ht with ⟨rfl, rfl⟩ | ⟨b, rfl, rfl⟩ | ⟨n, rfl, rfl⟩ <;> exact if_pos h

theorem step_openList (h : takesValue expected = true) :
    step (.reading stack expected) .openList = .reading (.list [] :: stack) .firstItem := if_pos h

theorem step_openRecord (h : takesValue expected = true) :
    step (.reading stack expected) .openRecord = .reading (.record [] :: stack) .firstMember := if_pos h

def Builds (t : Tree) : Prop :=
  ∀ stack expected, takesValue expected = true → t.tokens.foldl step (.reading stack expected) = plug stack t

theorem foldl_itemTokens (h : ∀ t ∈ items, Builds t) (before : List Tree) :
    (Tree.itemTokens items).foldl step (.reading (.list before :: stack) .nextItem) =
      .reading (.list (items.reverse ++ before) :: stack) .nextItem := by
  induction items generalizing before with
  | nil => rfl
  | cons t items ih =>
    obtain ⟨ht, hitems⟩ := List.forall_mem_cons.mp h
    have hvalue := ht (.list before :: stack) .value rfl
    rw [Tree.itemTokens, List.cons_append, List.foldl_cons, List.foldl_append]
    change (Tree.itemTokens items).foldl step (t.tokens.foldl step (.reading (.list before :: stack) .value)) = _
    rw [hvalue, plug, ih hitems, List.reverse_cons, List.append_assoc]
    rfl

theorem foldl_memberTokens (h : ∀ m ∈ members, Builds m.2) (before : List (Option String × Tree)) :
    (Tree.memberTokens members).foldl step (.reading (.record before :: stack) .nextMember) =
      .reading (.record (members.reverse ++ before) :: stack) .nextMember := by
  induction members generalizing before with
  | nil => rfl
  | cons m members ih =>
    obtain ⟨key, t⟩ := m
    obtain ⟨ht, hmembers⟩ := List.forall_mem_cons.mp h
    have hvalue := ht (.member before key :: stack) .value rfl
    rw [Tree.memberTokens, List.cons_append, List.cons_append, List.cons_append, List.foldl_cons, List.foldl_cons,
      List.foldl_cons, List.foldl_append]
    change (Tree.memberTokens members).foldl step
      (t.tokens.foldl step (.reading (.member before key :: stack) .value)) = _
    rw [hvalue, plug, ih hmembers, List.reverse_cons, List.append_assoc]
    rfl

theorem builds_of_whole (h : t.Whole) : Builds t := by
  induction h with
  | null => exact fun _ _ he => step_scalar he (.inl ⟨rfl, rfl⟩)
  | @bool b => exact fun _ _ he => step_scalar he (.inr (.inl ⟨b, rfl, rfl⟩))
  | @number n => exact fun _ _ he => step_scalar he (.inr (.inr ⟨n, rfl, rfl⟩))
  | @text s => exact fun _ _ he => step_text he s
  | @list items _ ih =>
    intro stack expected he
    rw [Tree.tokens, List.cons_append, List.foldl_cons, step_openList he, List.foldl_append]
    cases items with
    | nil => rfl
    | cons t items =>
      obtain ⟨ht, hitems⟩ := List.forall_mem_cons.mp ih
      have hfirst := ht (.list [] :: stack) .firstItem rfl
      rw [Tree.itemTokens, List.cons_append, List.tail_cons, List.foldl_append, hfirst, plug,
        foldl_itemTokens hitems]
      change plug stack (.list (items.reverse ++ [t]).reverse true) = _
      rw [List.reverse_append, List.reverse_reverse]
      rfl
  | @record members _ ih =>
    intro stack expected he
    rw [Tree.tokens, List.cons_append, List.foldl_cons, step_openRecord he, List.foldl_append]
    cases members with
    | nil => rfl
    | cons m members =>
      obtain ⟨key, t⟩ := m
      obtain ⟨ht, hmembers⟩ := List.forall_mem_cons.mp ih
      have hfirst := ht (.member [] key :: stack) .value rfl
      rw [Tree.memberTokens, List.cons_append, List.tail_cons]
      change [Token.closeRecord].foldl step
        ((t.tokens ++ Tree.memberTokens members).foldl step (.reading (.member [] key :: stack) .value)) = _
      rw [List.foldl_append, hfirst, plug, foldl_memberTokens hmembers]
      change plug stack (.record (members.reverse ++ [(key, t)]).reverse true) = _
      rw [List.reverse_append, List.reverse_reverse]
      rfl

end Builder

theorem ofTokens_tokens (h : t.Whole) : Document.ofTokens t.tokens = ⟨t, false⟩ := by
  rw [Document.ofTokens, Builder.builds_of_whole h [] .value rfl]
  rfl

namespace Builder

/-! ### What is built has the tokens that were read -/

def Frame.trees : Frame → List Tree
  | .list items => items
  | .record members | .member members _ => members.map Prod.snd

def Frame.begun : Frame → List Token
  | .list items => .openList :: (Tree.itemTokens items.reverse ++ [Token.comma]).tail
  | .record members => .openRecord :: (Tree.memberTokens members.reverse ++ [Token.comma]).tail
  | .member members key =>
    .openRecord :: (Tree.memberTokens members.reverse ++ [Token.comma, .text key, .colon]).tail

def begun (stack : List Frame) : List Token := stack.reverse.flatMap Frame.begun

inductive Reads : List Token → List Frame → Expected → Prop
  | value {stack : List Frame} : Reads (begun stack) stack .value
  | firstItem {stack : List Frame} : Reads (begun (.list [] :: stack)) (.list [] :: stack) .firstItem
  | nextItem {stack : List Frame} {t : Tree} {items : List Tree} :
    Reads (begun stack ++ .openList :: (Tree.itemTokens (t :: items).reverse).tail)
    (.list (t :: items) :: stack) .nextItem
  | firstMember {stack : List Frame} : Reads (begun (.record [] :: stack)) (.record [] :: stack) .firstMember
  | member {stack : List Frame} {members : List (Option String × Tree)} :
    Reads (begun (.record members :: stack)) (.record members :: stack) .member
  | colon {stack : List Frame} {members : List (Option String × Tree)} {key : Option String} :
    Reads (begun stack ++ .openRecord :: (Tree.memberTokens members.reverse ++ [Token.comma, .text key]).tail)
      (.member members key :: stack) .colon
  | nextMember {stack : List Frame} {m : Option String × Tree} {members : List (Option String × Tree)} :
    Reads (begun stack ++ .openRecord :: (Tree.memberTokens (m :: members).reverse).tail)
      (.record (m :: members) :: stack) .nextMember

inductive Follows : List Token → State → Prop
  | reading {ts : List Token} {stack : List Frame} {expected : Expected} :
    Reads ts stack expected → (∀ f ∈ stack, ∀ t ∈ f.trees, t.Whole) → Follows ts (.reading stack expected)
  | whole {t : Tree} : t.Whole → Follows t.tokens (.finished ⟨t, false⟩)
  | broken {ts : List Token} {d : Document} : d.tree.isOpen = true ∨ d.trailing = true → Follows ts (.finished d)

theorem isOpen_collapse (stack : List Frame) : (collapse stack).isOpen = true := by
  rcases List.eq_nil_or_concat stack with rfl | ⟨stack, frame, rfl⟩
  · rfl
  · rw [collapse, List.concat_eq_append, List.foldl_append]
    cases frame <;> rfl

theorem begun_cons {f : Frame} : begun (f :: stack) = begun stack ++ f.begun := by
  rw [begun, List.reverse_cons, List.flatMap_append, List.flatMap_singleton]
  rfl

theorem follows_collapse : Follows ts (.finished ⟨collapse stack, false⟩) := .broken (.inl (isOpen_collapse stack))

theorem Reads.eq_begun (h : Reads ts stack expected) (he : takesValue expected = true) : ts = begun stack := by
  cases h <;> first | rfl | cases he

theorem follows_plug (ht : t.Whole) (hstack : ∀ f ∈ stack, ∀ t ∈ f.trees, t.Whole) :
    Follows (begun stack ++ t.tokens) (plug stack t) := by
  cases stack with
  | nil => exact .whole ht
  | cons f rest =>
    obtain ⟨hf, hrest⟩ := List.forall_mem_cons.mp hstack
    cases f with
    | list items =>
      have htokens : begun (.list items :: rest) ++ t.tokens =
          begun rest ++ .openList :: (Tree.itemTokens (t :: items).reverse).tail := by
        have hlast : Tree.itemTokens [t] = .comma :: t.tokens := List.append_nil _
        rw [begun_cons, List.append_assoc, List.reverse_cons, Tree.itemTokens_append, hlast, tail_append_cons]
        rfl
      rw [htokens]
      exact .reading .nextItem (List.forall_mem_cons.mpr ⟨List.forall_mem_cons.mpr ⟨ht, hf⟩, hrest⟩)
    | record members => exact follows_collapse
    | member members key =>
      have htokens : begun (.member members key :: rest) ++ t.tokens =
          begun rest ++ .openRecord :: (Tree.memberTokens ((key, t) :: members).reverse).tail := by
        have hlast : Tree.memberTokens [(key, t)] = .comma :: .text key :: .colon :: t.tokens := by
          simp [Tree.memberTokens]
        rw [begun_cons, List.append_assoc, List.reverse_cons, Tree.memberTokens_append, hlast, tail_append_cons,
          Frame.begun, tail_append_cons, List.cons_append, List.append_assoc]
        rfl
      rw [htokens]
      exact .reading .nextMember (List.forall_mem_cons.mpr ⟨List.forall_mem_cons.mpr ⟨ht, hf⟩, hrest⟩)

theorem follows_key (members : List (Option String × Tree)) (key : Option String)
    (hstack : ∀ f ∈ Frame.record members :: stack, ∀ t ∈ f.trees, t.Whole) :
    Follows (begun (.record members :: stack) ++ [.text key]) (.reading (.member members key :: stack) .colon) := by
  have htokens : begun (.record members :: stack) ++ [.text key] =
      begun stack ++ .openRecord :: (Tree.memberTokens members.reverse ++ [Token.comma, .text key]).tail := by
    rw [begun_cons, List.append_assoc, tail_append_cons]
    rfl
  rw [htokens]
  exact .reading .colon (List.forall_mem_cons.mpr (List.forall_mem_cons.mp hstack))

theorem itemTokens_ne_nil (h : items ≠ []) : Tree.itemTokens items ≠ [] := by
  cases items with
  | nil => exact absurd rfl h
  | cons t items => exact List.cons_ne_nil _ _

theorem memberTokens_ne_nil (h : members ≠ []) : Tree.memberTokens members ≠ [] := by
  cases members with
  | nil => exact absurd rfl h
  | cons m members => exact List.cons_ne_nil _ _

theorem follows_comma (h : Reads ts stack expected) (hstack : ∀ f ∈ stack, ∀ t ∈ f.trees, t.Whole) :
    Follows (ts ++ [.comma]) (step (.reading stack expected) .comma) := by
  cases h with
  | @nextItem stack t items =>
    have hne := itemTokens_ne_nil (List.reverse_ne_nil_iff.mpr (List.cons_ne_nil t items))
    have htokens : (begun stack ++ .openList :: (Tree.itemTokens (t :: items).reverse).tail) ++ [.comma] =
        begun (.list (t :: items) :: stack) := by
      rw [begun_cons, List.append_assoc, List.cons_append, ← List.tail_append_of_ne_nil hne]
      rfl
    rw [htokens]
    exact .reading .value hstack
  | @nextMember stack m members =>
    have hne := memberTokens_ne_nil (List.reverse_ne_nil_iff.mpr (List.cons_ne_nil m members))
    have htokens : (begun stack ++ .openRecord :: (Tree.memberTokens (m :: members).reverse).tail) ++ [.comma] =
        begun (.record (m :: members) :: stack) := by
      rw [begun_cons, List.append_assoc, List.cons_append, ← List.tail_append_of_ne_nil hne]
      rfl
    rw [htokens]
    exact .reading .member hstack
  | _ => exact follows_collapse

theorem follows_closeList (h : Reads ts stack expected) (hstack : ∀ f ∈ stack, ∀ t ∈ f.trees, t.Whole) :
    Follows (ts ++ [.closeList]) (step (.reading stack expected) .closeList) := by
  cases h with
  | firstItem =>
    obtain ⟨-, hrest⟩ := List.forall_mem_cons.mp hstack
    have hempty : (Tree.list [] true).Whole := .list nofun
    rw [begun_cons, List.append_assoc]
    exact follows_plug hempty hrest
  | nextItem =>
    obtain ⟨hitems, hrest⟩ := List.forall_mem_cons.mp hstack
    rw [List.append_assoc]
    exact follows_plug (.list fun t ht => hitems t (List.mem_reverse.mp ht)) hrest
  | _ => exact follows_collapse

theorem follows_closeRecord (h : Reads ts stack expected) (hstack : ∀ f ∈ stack, ∀ t ∈ f.trees, t.Whole) :
    Follows (ts ++ [.closeRecord]) (step (.reading stack expected) .closeRecord) := by
  cases h with
  | firstMember =>
    obtain ⟨-, hrest⟩ := List.forall_mem_cons.mp hstack
    have hempty : (Tree.record [] true).Whole := .record nofun
    rw [begun_cons, List.append_assoc]
    exact follows_plug hempty hrest
  | nextMember =>
    obtain ⟨hmembers, hrest⟩ := List.forall_mem_cons.mp hstack
    rw [List.append_assoc]
    exact follows_plug
      (.record fun m hm => hmembers m.2 (List.mem_map_of_mem (List.mem_reverse.mp hm))) hrest
  | _ => exact follows_collapse

theorem follows_step (h : Follows ts s) (token : Token) : Follows (ts ++ [token]) (step s token) := by
  cases h with
  | broken hd => exact .broken (.inr rfl)
  | whole ht => exact .broken (.inr rfl)
  | @reading ts stack expected hreads hstack =>
    have hscalar : ∀ {t : Tree}, t.tokens = [token] → t.Whole → takesValue expected = true →
        Follows (ts ++ [token]) (plug stack t) := by
      intro t htokens ht he
      rw [hreads.eq_begun he, ← htokens]
      exact follows_plug ht hstack
    have hvalue : ∀ {s : State}, (takesValue expected = true → Follows (ts ++ [token]) s) →
        Follows (ts ++ [token]) (if takesValue expected then s else .finished ⟨collapse stack, false⟩) := by
      intro s hs
      split
      · next he => exact hs he
      · exact follows_collapse
    cases token with
    | fault => exact follows_collapse
    | null => exact hvalue (hscalar rfl .null)
    | bool b => exact hvalue (hscalar rfl .bool)
    | number n => exact hvalue (hscalar rfl .number)
    | text s =>
      cases hreads with
      | value => exact hscalar rfl .text rfl
      | firstItem => exact hscalar rfl .text rfl
      | firstMember => exact follows_key [] s hstack
      | member => exact follows_key _ s hstack
      | _ => exact follows_collapse
    | openList =>
      refine hvalue fun he => ?_
      rw [hreads.eq_begun he]
      have htokens : begun stack ++ [.openList] = begun (.list [] :: stack) := (begun_cons (f := .list [])).symm
      rw [htokens]
      exact .reading .firstItem (List.forall_mem_cons.mpr ⟨nofun, hstack⟩)
    | openRecord =>
      refine hvalue fun he => ?_
      rw [hreads.eq_begun he]
      have htokens : begun stack ++ [.openRecord] = begun (.record [] :: stack) := (begun_cons (f := .record [])).symm
      rw [htokens]
      exact .reading .firstMember (List.forall_mem_cons.mpr ⟨nofun, hstack⟩)
    | closeList => exact follows_closeList hreads hstack
    | closeRecord => exact follows_closeRecord hreads hstack
    | comma => exact follows_comma hreads hstack
    | colon =>
      cases hreads with
      | @colon stack members key =>
        have htail : (Tree.memberTokens members.reverse ++ [Token.comma, .text key]).tail ++ [.colon] =
            (Tree.memberTokens members.reverse ++ [Token.comma, .text key, .colon]).tail := by
          rw [tail_append_cons _ _ [Token.text key], tail_append_cons _ _ [Token.text key, .colon], List.append_assoc]
          rfl
        rw [List.append_assoc, List.cons_append, htail]
        have htokens : begun stack ++ .openRecord :: _ = begun (.member members key :: stack) :=
          (begun_cons (f := .member members key)).symm
        rw [htokens]
        exact .reading .value hstack
      | _ => exact follows_collapse

theorem follows_run (tokens : List Token) : Follows tokens (tokens.foldl step (.reading [] .value)) := by
  have hrun : ∀ tokens ts s, Follows ts s → Follows (ts ++ tokens) (tokens.foldl step s) := by
    intro tokens
    induction tokens with
    | nil => exact fun ts s h => (List.append_nil ts).symm ▸ h
    | cons token tokens ih =>
      intro ts s h
      have hlater := ih _ _ (follows_step h token)
      rwa [List.append_assoc] at hlater
  have hstart : Reads [] [] .value := @Reads.value []
  exact hrun tokens [] _ (.reading hstart nofun)

end Builder

theorem tokens_of_ofTokens {tokens : List Token} (h : Document.ofTokens tokens = ⟨t, false⟩) (ht : t.isOpen = false) :
    t.Whole ∧ tokens = t.tokens := by
  have hfollows := Builder.follows_run tokens
  rw [Document.ofTokens] at h
  generalize tokens.foldl Builder.step (.reading [] .value) = s at h hfollows
  cases hfollows with
  | reading =>
    cases h
    rw [Builder.isOpen_collapse] at ht
    cases ht
  | whole hwhole =>
    cases h
    exact ⟨hwhole, rfl⟩
  | broken hd =>
    rw [Builder.finish] at h
    rw [h] at hd
    rcases hd with hd | hd
    · rw [ht] at hd
      cases hd
    · cases hd

end StakeLedger.Json
