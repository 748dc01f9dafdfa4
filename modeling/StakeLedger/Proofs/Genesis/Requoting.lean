import Mathlib.Logic.Relation
import StakeLedger.Proofs.Genesis.Document
import StakeLedger.Proofs.Json.Literal

/-!
The integers of a genesis document may be written as numbers or in strings. Main statement: `integers_flexible`.
-/

namespace StakeLedger

namespace Decimal

theorem digits_toDigits (n : Nat) : Digits (Nat.toDigits 10 n) :=
  ⟨Nat.toDigits_ne_nil, fun _ hc => Nat.isDigit_of_mem_toDigits (by decide) (Nat.le_refl 10) hc⟩

theorem numeral_toString (n : Int) : Numeral (toString n).toList n := by
  cases n with
  | ofNat n =>
    have htext : (toString (Int.ofNat n)).toList = Nat.toDigits 10 n := Nat.toList_repr
    have hnumeral := Numeral.plain (digits_toDigits n)
    rwa [Nat.ofDigitChars_ten_toDigits, ← htext] at hnumeral
  | negSucc n =>
    have htext : (toString (Int.negSucc n)).toList = '-' :: Nat.toDigits 10 (n + 1) := by
      change ("-" ++ Nat.repr (n + 1)).toList = _
      rw [String.toList_append, Nat.toList_repr]
      rfl
    have hnumeral := Numeral.minus (digits_toDigits (n + 1))
    rwa [Nat.ofDigitChars_ten_toDigits, ← htext] at hnumeral

end Decimal

namespace Genesis

open Json Decimal

variable {g : Genesis} {content content' : Bytes} {k : Tree → Tree} {u : Tree} {n m : Int64} {x : Option Number}
  {l : Literal} {s : String}

theorem Denotes.unique (hn : Denotes u n) (hm : Denotes u m) : n = m := by
  have hreadn : integer.read 0 u = .ok n := read_integer_iff.mpr hn
  have hreadm : integer.read 0 u = .ok m := read_integer_iff.mpr hm
  exact Except.ok.inj (hreadn.symm.trans hreadm)

theorem denotes_ofLiteral?_iff : Denotes (.number (Number.ofLiteral? l)) n ↔ l.fraction = none ∧ l.exponent = none ∧
    ¬ (l.negative = true ∧ l.magnitude = 0) ∧ n.toInt = signed l.negative l.magnitude := by
  rw [← @ofLiteral?_eq_whole_iff l n.toInt (bounded_toInt n)]
  constructor
  · intro h
    generalize Number.ofLiteral? l = x at h
    cases h
    rfl
  · intro h
    rw [h]
    exact .number (bounded_toInt n)

/-! ### One integer after another -/

/-- A number that stands for an integer of a document is put into a string, and nothing else of the text changes. -/
inductive Requoted : Bytes → Bytes → Prop
  | intro {k : Tree → Tree} {x : Option Number} {n : Int64} {s : String} {pre lit post quoted : Bytes} :
    Hole integer codec k → Document.ofBytes lit = ⟨.number x, false⟩ →
    Document.ofBytes quoted = ⟨.text (some s), false⟩ → Denotes (.number x) n → Denotes (.text (some s)) n →
    Document.ofBytes (pre ++ lit ++ post) = ⟨k (.number x), false⟩ →
    Document.ofBytes (pre ++ quoted ++ post) = ⟨k (.text (some s)), false⟩ →
    Requoted (pre ++ lit ++ post) (pre ++ quoted ++ post)

theorem document_of_parse (h : parse content = .ok g) (htree : (Document.ofBytes content).tree = u) :
    Document.ofBytes content = ⟨u, false⟩ ∧ u.isOpen = false ∧ codec.read Json.room u = .ok g := by
  subst htree
  obtain ⟨hread, htrailing⟩ := parse_eq_ok_iff.mp h
  obtain ⟨row, hrow, -⟩ := map_eq_ok.mp hread
  refine ⟨?_, Fields.isOpen_of_read hrow, hread⟩
  rw [← htrailing]

theorem denotes_of_parse (h : parse content = .ok g) (hk : Hole integer codec k)
    (htree : (Document.ofBytes content).tree = k u) : ∃ n, Denotes u n := by
  obtain ⟨-, -, hread⟩ := document_of_parse h htree
  obtain ⟨n, hn, -⟩ := denotes_of_read hk hread
  exact ⟨n, hn⟩

theorem Requoted.parse (h : Requoted content content') (hparse : parse content = .ok g) :
    Genesis.parse content' = .ok g := by
  cases h with
  | intro hk hlit hquoted hx hs hbefore hafter =>
    obtain ⟨-, -, hread⟩ := document_of_parse hparse (congrArg Document.tree hbefore)
    obtain ⟨m, hm, hother⟩ := denotes_of_read hk hread
    rw [parse_eq_ok_iff, hafter]
    exact ⟨hother _ (hx.unique hm ▸ hs), rfl⟩

theorem parse_of_requoted (h : Relation.ReflTransGen Requoted content content') (hparse : parse content = .ok g) :
    parse content' = .ok g := by
  induction h with
  | refl => exact hparse
  | tail _ hstep ih => exact hstep.parse ih

theorem exists_requoted (h : parse content = .ok g) (hk : Hole integer codec k)
    (htree : (Document.ofBytes content).tree = k (.number x)) :
    ∃ pre lit post, content = pre ++ lit ++ post ∧ Document.ofBytes lit = ⟨.number x, false⟩ ∧
      ∀ quoted s n, Document.ofBytes quoted = ⟨.text (some s), false⟩ → Denotes (.number x) n →
        Denotes (.text (some s)) n → Requoted content (pre ++ quoted ++ post) ∧
          Document.ofBytes (pre ++ quoted ++ post) = ⟨k (.text (some s)), false⟩ := by
  obtain ⟨hdoc, hopen, -⟩ := document_of_parse h htree
  obtain ⟨pre, lit, post, rfl, hlit, hsplice⟩ := hk.ofBytes_splice hdoc hopen
  refine ⟨pre, lit, post, rfl, hlit, fun quoted s n hquoted hx hs => ?_⟩
  have hafter := hsplice quoted (some s) hquoted
  exact ⟨.intro hk hlit hquoted hx hs hdoc hafter, hafter⟩

/-! ### Any of them -/

def At (k : Tree → Tree) (i : Nat) : Prop :=
  ∃ before after, before.length = i ∧ ∀ u, (k u).tokens = before ++ u.tokens ++ after

def tokensOf (content : Bytes) : List Token := (Document.ofBytes content).tree.tokens

def isNumber : Token → Bool
  | .number _ => true
  | _ => false

theorem At.getElem?_tokens {i j : Nat} {s : Option String} (h : At k i) (hj : j ≠ i) :
    (k (.text s)).tokens[j]? = (k (.number x)).tokens[j]? := by
  obtain ⟨before, after, rfl, htokens⟩ := h
  rw [htokens, htokens, List.append_assoc, List.append_assoc]
  rcases Nat.lt_or_gt_of_ne hj with hlt | hgt
  · rw [List.getElem?_append_left hlt, List.getElem?_append_left hlt]
  · obtain ⟨d, hd⟩ : ∃ d, j - before.length = d + 1 := ⟨j - before.length - 1, by omega⟩
    rw [List.getElem?_append_right (Nat.le_of_lt hgt), List.getElem?_append_right (Nat.le_of_lt hgt), hd]
    rfl

theorem At.countP_tokens_lt {i : Nat} {s : Option String} (h : At k i) :
    (k (.text s)).tokens.countP isNumber < (k (.number x)).tokens.countP isNumber := by
  obtain ⟨before, after, -, htokens⟩ := h
  rw [htokens, htokens]
  simp [List.countP_append, List.countP_cons, Tree.tokens, isNumber]

theorem At.getElem?_self {i : Nat} {t : Token} (h : At k i) (ht : u.tokens = [t]) : (k u).tokens[i]? = some t := by
  obtain ⟨before, after, rfl, htokens⟩ := h
  rw [htokens, ht, List.append_assoc, List.getElem?_append_right (Nat.le_refl _), Nat.sub_self]
  rfl

def Spelling (spelled : Nat → Int64 → Bytes) : Prop :=
  ∀ i n, ∃ s, Document.ofBytes (spelled i n) = ⟨.text (some s), false⟩ ∧ Denotes (.text (some s)) n

def RequotedAt (spelled : Nat → Int64 → Bytes) (content content' : Bytes) (i : Nat) : Prop :=
  ∃ x n s, Denotes (.number x) n ∧ (tokensOf content)[i]? = some (.number x) ∧
    Document.ofBytes (spelled i n) = ⟨.text (some s), false⟩ ∧ (tokensOf content')[i]? = some (.text (some s))

/-- Whichever integers are chosen, however they are spelled: one replacement after another puts all of them into
strings, and changes no other token of the text. -/
theorem exists_chosen_requoted (chosen : Nat → Prop) {spelled : Nat → Int64 → Bytes} (hspelled : Spelling spelled)
    (h : parse content = .ok g) : ∃ content', Relation.ReflTransGen Requoted content content' ∧
      (∀ i, (tokensOf content')[i]? = (tokensOf content)[i]? ∨ chosen i ∧ RequotedAt spelled content content' i) ∧
      ∀ k i u, Hole integer codec k → At k i → chosen i → (Document.ofBytes content').tree = k u →
        ∃ s, u = .text (some s) := by
  -- on the numbers that are left: every replacement takes one of them away
  induction hcount : (tokensOf content).countP isNumber using Nat.strongRecOn generalizing content with
  | ind count ih =>
    by_cases hnumber : ∃ k i x, Hole integer codec k ∧ At k i ∧ chosen i ∧
        (Document.ofBytes content).tree = k (.number x)
    · obtain ⟨k, i, x, hk, hi, hchosen, htree⟩ := hnumber
      obtain ⟨n, hn⟩ := denotes_of_parse h hk htree
      obtain ⟨s, hquoted, hs⟩ := hspelled i n
      obtain ⟨pre, lit, post, -, -, hall⟩ := exists_requoted h hk htree
      obtain ⟨hstep, hafter⟩ := hall (spelled i n) s n hquoted hn hs
      have htokens : tokensOf (pre ++ spelled i n ++ post) = (k (.text (some s))).tokens :=
        congrArg (·.tree.tokens) hafter
      have hbefore : tokensOf content = (k (.number x)).tokens := congrArg Tree.tokens htree
      have hlt : (tokensOf (pre ++ spelled i n ++ post)).countP isNumber < count := by
        rw [← hcount, htokens, hbefore]
        exact hi.countP_tokens_lt
      obtain ⟨content', hreach, hother, hquotes⟩ := ih _ hlt (hstep.parse h) rfl
      refine ⟨content', .head hstep hreach, fun j => ?_, hquotes⟩
      have hrest := hother j
      rw [RequotedAt, htokens] at hrest
      rw [RequotedAt, hbefore]
      by_cases hj : j = i
      · subst hj
        rw [hi.getElem?_self rfl] at hrest ⊢
        rcases hrest with hsame | ⟨-, y, m, s', -, hy, -⟩
        · exact .inr ⟨hchosen, x, n, s, hn, rfl, hquoted, hsame⟩
        · cases hy
      · rwa [hi.getElem?_tokens hj] at hrest
    · refine ⟨content, .refl, fun _ => .inl rfl, fun k i u hk hi hchosen htree => ?_⟩
      obtain ⟨n, hn⟩ := denotes_of_parse h hk htree
      cases hn with
      | number => exact absurd ⟨k, i, _, hk, hi, hchosen, htree⟩ hnumber
      | text => exact ⟨_, rfl⟩

theorem spelling_toString : Spelling fun _ n => Bytes.ofString (Json.text (toString n.toInt)).compact := by
  intro _ n
  have hdoc : Document.ofString (Json.text (toString n.toInt)).compact = ⟨.text (some (toString n.toInt)), false⟩ :=
    ofString_compact rfl
  have htext : (toString n.toInt).toList = [] ++ (toString n.toInt).toList ++ [] := (List.append_nil _).symm
  exact ⟨toString n.toInt, (Json.ofBytes_ofString _).trans hdoc, .text htext nofun (numeral_toString n.toInt)⟩

/-! ### Where the integers are -/

def parameters : List (String × List String) :=
  [("block", ["max_bytes", "max_gas", "time_iota_ms"]),
    ("evidence", ["max_age_num_blocks", "max_age_duration", "max_bytes"]), ("version", ["app_version"])]

inductive Place : (Tree → Tree) → Prop
  | initialHeight {k : Tree → Tree} : Inside "initial_height" k → Place k
  | parameter {group name : String} {names : List String} {params field value : Tree → Tree} :
    (group, names) ∈ parameters → name ∈ names → Inside "consensus_params" params → Inside group field →
    Inside name value → Place (params ∘ field ∘ value)
  | power {members member value : Tree → Tree} :
    Inside "validators" members → Among member → Inside "power" value → Place (members ∘ member ∘ value)

theorem hole_parameter {group name : String} {names : List String} {params field : Tree → Tree}
    (hgroup : (group, names) ∈ parameters) (hname : name ∈ names) (hp : Inside group params) (hf : Inside name field) :
    Hole integer ConsensusParams.codec (params ∘ field) := by
  simp only [parameters, List.mem_cons, List.not_mem_nil, or_false, Prod.mk.injEq] at hgroup
  rcases hgroup with ⟨rfl, rfl⟩ | ⟨rfl, rfl⟩ | ⟨rfl, rfl⟩
  · have hblock : Hole integer BlockParams.codec field := by
      simp only [List.mem_cons, List.not_mem_nil, or_false] at hname
      rcases hname with rfl | rfl | rfl
      · exact hf.hole (.here rfl) .here
      · exact hf.hole (.there (by decide) (.here rfl)) .here
      · exact hf.hole (.there (by decide) (.there (by decide) (.here rfl))) .here
    exact hp.hole (.here rfl) hblock
  · have hevidence : Hole integer EvidenceParams.codec field := by
      simp only [List.mem_cons, List.not_mem_nil, or_false] at hname
      rcases hname with rfl | rfl | rfl
      · exact hf.hole (.here rfl) .here
      · exact hf.hole (.there (by decide) (.here rfl)) .here
      · exact hf.hole (.there (by decide) (.there (by decide) (.here rfl))) .here
    exact hp.hole (.there (by decide) (.here rfl)) hevidence
  · have hversion : Hole integer VersionParams.codec field := by
      obtain rfl := List.mem_singleton.mp hname
      exact hf.hole (.here rfl) .here
    exact hp.hole (.there (by decide) (.there (by decide) (.there (by decide) (.here rfl)))) hversion

theorem Place.hole (h : Place k) : Hole integer codec k := by
  cases h with
  | initialHeight hk => exact hk.hole (.there (by decide) (.there (by decide) (.here rfl))) .here
  | parameter hgroup hname hparams hfield hvalue =>
    refine hparams.hole (.there (by decide) (.there (by decide) (.there (by decide) (.here rfl)))) ?_
    exact .optional (fun u => hfield.ne_null _) (hole_parameter hgroup hname hfield hvalue)
  | power hmembers hmember hvalue =>
    have hpower : Hole integer Member.codec _ :=
      hvalue.hole (.there (by decide) (.there (by decide) (.here rfl))) .here
    exact hmembers.hole
      (.there (by decide) (.there (by decide) (.there (by decide) (.there (by decide) (.here rfl)))))
      (hmember.hole hpower)

/-- Every number that an integer of a document is written as has its own bytes, and a string of the same integer may
stand there, for any of them one after another. What denotes no integer is refused in their place. A document without
doubles is read back from what is written of it. -/
theorem integers_flexible :
    (∀ k, Place k → Hole integer codec k) ∧
    (∀ content g k x, parse content = .ok g → Hole integer codec k → (Document.ofBytes content).tree = k (.number x) →
      ∃ pre lit post, content = pre ++ lit ++ post ∧ Document.ofBytes lit = ⟨.number x, false⟩ ∧
        ∀ quoted s n, Document.ofBytes quoted = ⟨.text (some s), false⟩ → Denotes (.number x) n →
          Denotes (.text (some s)) n → Requoted content (pre ++ quoted ++ post) ∧ parse (pre ++ quoted ++ post) = .ok g ∧
            Document.ofBytes (pre ++ quoted ++ post) = ⟨k (.text (some s)), false⟩) ∧
    (∀ content content' g, parse content = .ok g → Relation.ReflTransGen Requoted content content' →
      parse content' = .ok g) ∧
    (∀ (content : Bytes) (g : Genesis) (chosen : Nat → Prop) (spelled : Nat → Int64 → Bytes),
      parse content = .ok g → Spelling spelled → ∃ content', Relation.ReflTransGen Requoted content content' ∧
        (∀ i, (tokensOf content')[i]? = (tokensOf content)[i]? ∨ chosen i ∧ RequotedAt spelled content content' i) ∧
        ∀ k i u, Hole integer codec k → At k i → chosen i → (Document.ofBytes content').tree = k u →
          ∃ s, u = .text (some s)) ∧
    (∀ content k u, Hole integer codec k → (Document.ofBytes content).tree = k u → (∀ n, ¬ Denotes u n) →
      ∃ fault, parse content = .error (.parse fault)) ∧
    (∀ l n, Denotes (.number (Number.ofLiteral? l)) n ↔ l.fraction = none ∧ l.exponent = none ∧
      ¬ (l.negative = true ∧ l.magnitude = 0) ∧ n.toInt = signed l.negative l.magnitude) ∧
    ∀ g : Genesis, g.appState.value.isExact = true → (codec.write g).depth ≤ Json.room →
      parse (Bytes.ofString (codec.compact g)) = .ok g ∧ parse (Bytes.ofString (codec.pretty g)) = .ok g := by
  refine ⟨fun k => Place.hole, fun content g k x h hk htree => ?_,
    fun content content' g h hreach => parse_of_requoted hreach h,
    fun content g chosen spelled h hspelled => exists_chosen_requoted chosen hspelled h,
    fun content k u hk htree hnone => ?_, fun l n => denotes_ofLiteral?_iff,
    fun g he hd => ⟨parse_compact he hd, parse_pretty he hd⟩⟩
  · obtain ⟨pre, lit, post, hcontent, hlit, hall⟩ := exists_requoted h hk htree
    refine ⟨pre, lit, post, hcontent, hlit, fun quoted s n hquoted hx hs => ?_⟩
    obtain ⟨hstep, hafter⟩ := hall quoted s n hquoted hx hs
    exact ⟨hstep, hstep.parse h, hafter⟩
  · cases hparse : codec.ofBytes content with
    | error fault => exact ⟨fault, congrArg (Except.mapError LoadError.parse) hparse⟩
    | ok g =>
      have h : parse content = .ok g := congrArg (Except.mapError LoadError.parse) hparse
      obtain ⟨n, hn⟩ := denotes_of_parse h hk htree
      exact absurd hn (hnone n)

def singleText : String :=
  "\x7b\"validators\":[\x7b\"pub_key\":\x7b\"type\":\"\",\"value\":\"\"\x7d,\"power\":10\x7d]\x7d"

def single : Genesis := ⟨"", "", 1, none, [⟨"", ⟨"", ""⟩, 10, ""⟩], "", .null⟩

def singleTree (power : Tree) : Tree :=
  .record [(some "validators", .list [.record [(some "pub_key",
    .record [(some "type", .text (some "")), (some "value", .text (some ""))] true), (some "power", power)] true]
    true)] true

theorem integers_flexible_single :
    (∃ pre lit post, Bytes.ofString singleText = pre ++ lit ++ post ∧
      Document.ofBytes lit = ⟨.number (some (.ofInt64 10)), false⟩ ∧
      parse (pre ++ Bytes.ofString "\" +010\"" ++ post) = .ok single) ∧
    (∃ content, Relation.ReflTransGen Requoted (Bytes.ofString singleText) content ∧ parse content = .ok single ∧
      ∀ u, (Document.ofBytes content).tree = singleTree u → ∃ s, u = .text (some s)) ∧
    (∃ fault, parse (Bytes.ofString "\x7b\"initial_height\":-0\x7d") = .error (.parse fault)) ∧
    parse (Bytes.ofString (codec.pretty single)) = .ok single := by
  have hten : Denotes (.number (some (.ofInt64 10))) 10 := @Denotes.number 10 (by decide)
  have hdigits : Digits ['0', '1', '0'] := ⟨List.cons_ne_nil _ _, List.all_eq_true.mp rfl⟩
  have htext : Denotes (.text (some " +010")) 10 :=
    @Denotes.text " +010" [' '] ['+', '0', '1', '0'] [] 10 rfl (List.all_eq_true.mp rfl) (.plus hdigits)
  have hquoted : Document.ofBytes (Bytes.ofString "\" +010\"") = ⟨.text (some " +010"), false⟩ :=
    (Json.ofBytes_ofString _).trans (@ofString_compact (.text " +010") rfl)
  have hsingle : Document.ofBytes (Bytes.ofString singleText) = ⟨singleTree (.number (some (.ofInt64 10))), false⟩ := by
    have htokens : tokens (Utf8.decode (Bytes.ofString singleText)) =
        (singleTree (.number (some (.ofInt64 10)))).tokens := by decide +kernel
    have hwhole : (singleTree (.number (some (.ofInt64 10)))).Whole := whole_toTree (.record [("validators", .list
      [.record [("pub_key", .record [("type", .text ""), ("value", .text "")]), ("power", .number (.ofInt64 10))]])])
    exact (congrArg Document.ofTokens htokens).trans (ofTokens_tokens hwhole)
  have hpower : Place singleTree := .power (.intro [] [] true) (.intro [] [] true) (.intro [(some "pub_key", _)] [] true)
  have hheight : Place fun u => .record [(some "initial_height", u)] true := .initialHeight (.intro [] [] true)
  have hzero : Document.ofBytes (Bytes.ofString "\x7b\"initial_height\":-0\x7d") =
      ⟨.record [(some "initial_height", .number (Number.ofLiteral? ⟨true, [0], none, none⟩))] true, false⟩ := by
    have htokens : tokens (Utf8.decode (Bytes.ofString "\x7b\"initial_height\":-0\x7d")) =
        (Tree.record [(some "initial_height", .number (Number.ofLiteral? ⟨true, [0], none, none⟩))] true).tokens := by
      decide +kernel
    exact (congrArg Document.ofTokens htokens).trans
      (ofTokens_tokens (.record (List.forall_mem_singleton.mpr .number)))
  have hparse : parse (Bytes.ofString singleText) = .ok single := by decide +kernel
  obtain ⟨hholes, hrequote, hkeep, hchosen, hrefuse, hliteral, hback⟩ := integers_flexible
  refine ⟨?_, ?_, ?_, (hback single rfl (by decide)).2⟩
  · obtain ⟨pre, lit, post, hcontent, hlit, hall⟩ :=
      hrequote _ single singleTree _ hparse (hholes _ hpower) (congrArg Document.tree hsingle)
    exact ⟨pre, lit, post, hcontent, hlit, (hall _ _ 10 hquoted hten htext).2.1⟩
  · obtain ⟨content, hreach, -, hquotes⟩ := hchosen _ _ (fun _ => True) _ hparse spelling_toString
    obtain ⟨before, after, htokens, -⟩ := hpower.hole.around
    exact ⟨content, hreach, hkeep _ _ _ hparse hreach, fun u htree =>
      hquotes _ _ u (hholes _ hpower) ⟨before, after, rfl, htokens⟩ trivial htree⟩
  · exact hrefuse _ _ _ (hholes _ hheight) (congrArg Document.tree hzero) fun n hn =>
      ((hliteral _ n).mp hn).2.2.1 ⟨rfl, rfl⟩

end Genesis

end StakeLedger
