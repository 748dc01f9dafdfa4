import Mathlib.Tactic.IntervalCases
import StakeLedger.Json.Printer
import StakeLedger.Json.Token

namespace StakeLedger.Json

mutual

def isExact : Json → Bool
  | .number (.double _) => false
  | .list items => itemsExact items
  | .record members => membersExact members
  | _ => true

def itemsExact : List Json → Bool
  | [] => true
  | x :: xs => x.isExact && itemsExact xs

def membersExact : List (String × Json) → Bool
  | [] => true
  | (_, x) :: ms => x.isExact && membersExact ms

end

mutual

def toTokens : Json → List Token
  | .null => [.null]
  | .bool b => [.bool b]
  | .number n => [.number (some n)]
  | .text s => [.text (some s)]
  | .list [] => [.openList, .closeList]
  | .list (x :: xs) => .openList :: x.toTokens ++ itemTokens xs ++ [.closeList]
  | .record [] => [.openRecord, .closeRecord]
  | .record ((k, x) :: ms) =>
    .openRecord :: .text (some k) :: .colon :: x.toTokens ++ memberTokens ms ++ [.closeRecord]

def itemTokens : List Json → List Token
  | [] => []
  | x :: xs => .comma :: x.toTokens ++ itemTokens xs

def memberTokens : List (String × Json) → List Token
  | [] => []
  | (k, x) :: ms => .comma :: .text (some k) :: .colon :: x.toTokens ++ memberTokens ms

end

namespace Lexer

def lex (s : State) (cs : List Char) : State := (cs.map some).foldl step s

variable {s : State} {ts : List Token} {cs ds : List Char} {c : Char}

@[simp] theorem lex_nil : lex s [] = s := rfl

@[simp] theorem lex_cons : lex s (c :: cs) = lex (step s (some c)) cs := rfl

@[simp] theorem lex_append : lex s (cs ++ ds) = lex (lex s cs) ds := by
  rw [lex, List.map_append, List.foldl_append]
  rfl

def blanks : List Char := [' ', '\n', '\t', '\r']

def delimiters : List Char := [',', ']', '\x7d'] ++ blanks

inductive Ready (ts : List Token) : State → Prop
  | between : Ready ts ⟨.between, ts⟩
  | number (part : NumberPart) (l : Literal) (rest : List Token) (hpart : part = .zero ∨ part = .whole)
      (hts : ts = .number (Number.ofLiteral? (Literal.inOrder l)) :: rest) : Ready ts ⟨.number part l, rest⟩

theorem Ready.delimit (h : Ready ts s) (hc : c ∈ delimiters) :
    step s (some c) = beginToken ⟨.between, ts⟩ c := by
  cases h with
  | between => rfl
  | number part l rest hpart hts =>
    subst hts
    simp only [delimiters, blanks, List.cons_append, List.nil_append, List.mem_cons, List.not_mem_nil,
      or_false] at hc
    rcases hpart with rfl | rfl <;> rcases hc with rfl | rfl | rfl | rfl | rfl | rfl | rfl <;> rfl

theorem Ready.finish (h : Ready ts s) : finish s = ts.reverse := by
  cases h with
  | between => rfl
  | number part l rest hpart hts =>
    subst hts
    rcases hpart with rfl | rfl <;> rfl

theorem step_blank (hc : c ∈ blanks) : step ⟨.between, ts⟩ (some c) = ⟨.between, ts⟩ := by
  simp only [blanks, List.mem_cons, List.not_mem_nil, or_false] at hc
  rcases hc with rfl | rfl | rfl | rfl <;> rfl

theorem lex_blanks (hcs : ∀ c ∈ cs, c ∈ blanks) : lex ⟨.between, ts⟩ cs = ⟨.between, ts⟩ := by
  induction cs with
  | nil => rfl
  | cons c cs ih =>
    obtain ⟨hc, hcs⟩ := List.forall_mem_cons.mp hcs
    rw [lex_cons, step_blank hc, ih hcs]

theorem Ready.blanks (h : Ready ts s) (hcs : ∀ c ∈ cs, c ∈ blanks) : Ready ts (lex s cs) := by
  cases cs with
  | nil => exact h
  | cons c cs =>
    obtain ⟨hc, hcs⟩ := List.forall_mem_cons.mp hcs
    have hstep : step s (some c) = ⟨.between, ts⟩ :=
      (h.delimit (List.mem_append_right _ hc)).trans (step_blank hc)
    rw [lex_cons, hstep, lex_blanks hcs]
    exact .between

/-! ### Strings -/

theorem lex_escapeChar {q : List Char} (c : Char) :
    lex ⟨.quoted ⟨q, true, none, .plain⟩, ts⟩ (escapeChar c) =
      ⟨.quoted ⟨c :: q, true, none, .plain⟩, ts⟩ := by
  have hc : Char.ofNat c.toNat = c := Char.ofNat_toNat c
  rw [escapeChar]
  split
  · next h => rw [h]; rfl
  · next hquote =>
    split
    · next h => rw [h]; rfl
    · next hslash =>
      by_cases hsmall : c.toNat < 32
      · generalize c.toNat = n at hc hsmall
        subst hc
        interval_cases n <;> rfl
      · have hcontrol : ∀ d : Char, d.toNat < 32 → c ≠ d := fun d hd he => hsmall (he ▸ hd)
        rw [if_neg (hcontrol _ (by decide)), if_neg (hcontrol _ (by decide)),
          if_neg (hcontrol _ (by decide)), if_neg (by omega), if_neg (by omega), if_neg hsmall]
        rw [lex_cons, lex_nil]
        simp only [step, stepQuoted, if_neg hquote, if_neg hslash, if_neg hsmall]
        rfl

theorem lex_escaped {q : List Char} (text : List Char) :
    lex ⟨.quoted ⟨q, true, none, .plain⟩, ts⟩ (text.flatMap escapeChar) =
      ⟨.quoted ⟨text.reverse ++ q, true, none, .plain⟩, ts⟩ := by
  induction text generalizing q with
  | nil => rfl
  | cons c text ih => simp [lex_escapeChar, ih]

theorem lex_quote (text : String) :
    lex ⟨.between, ts⟩ (quote text) = ⟨.between, .text (some text) :: ts⟩ := by
  have hopen : step ⟨.between, ts⟩ (some '"') = ⟨.quoted ⟨[], true, none, .plain⟩, ts⟩ := rfl
  rw [quote, List.cons_append, lex_cons, hopen, lex_append, lex_escaped, List.append_nil]
  change State.emit _ (.text (some (.ofList text.toList.reverse.reverse))) = _
  rw [List.reverse_reverse, String.ofList_toList]
  rfl

/-! ### Integers -/

def Awaits (negative : Bool) (ts : List Token) (s : State) : Prop :=
  ∀ d, 0 < d → d < 10 →
    step s (some d.digitChar) = ⟨.number .whole ⟨negative, [d], none, none⟩, ts⟩

theorem awaits_between : Awaits false ts ⟨.between, ts⟩ := by
  intro d h0 hd
  interval_cases d <;> rfl

theorem awaits_minus : Awaits true ts ⟨.number .minus ⟨true, [], none, none⟩, ts⟩ := by
  intro d h0 hd
  interval_cases d <;> rfl

theorem step_digit {l : Literal} {d : Nat} (hd : d < 10) :
    step ⟨.number .whole l, ts⟩ (some d.digitChar) = ⟨.number .whole (wholeDigits l d), ts⟩ := by
  interval_cases d <;> rfl

theorem push_digit {value taken d : Nat} (h : value * 10 + d < 0x10000000000000000) :
    Number.Significand.push ⟨value, taken, 0⟩ d = ⟨value * 10 + d, taken + 1, 0⟩ := if_pos ⟨rfl, h⟩

theorem lex_digits {negative : Bool} (hs : Awaits negative ts s) {n : Nat} (h0 : 0 < n)
    (hn : n < 0x10000000000000000) :
    ∃ digits taken, lex s (Nat.toDigits 10 n) = ⟨.number .whole ⟨negative, digits, none, none⟩, ts⟩ ∧
      digits.reverse.foldl Number.Significand.push ⟨0, 0, 0⟩ = ⟨n, taken, 0⟩ := by
  induction n using Nat.strongRecOn with
  | ind n ih =>
    by_cases hlt : n < 10
    · refine ⟨[n], 1, ?_, ?_⟩
      · rw [Nat.toDigits_of_lt_base hlt]
        exact hs n h0 hlt
      · exact (push_digit (by omega)).trans (by rw [Nat.zero_mul, Nat.zero_add])
    · obtain ⟨digits, taken, hlex, hfold⟩ := ih (n / 10) (by omega) (by omega) (by omega)
      have hdiv : n / 10 * 10 + n % 10 = n := by omega
      refine ⟨n % 10 :: digits, taken + 1, ?_, ?_⟩
      · rw [Nat.toDigits_of_base_le (by decide) (Nat.le_of_not_lt hlt), lex_append, hlex]
        exact step_digit (Nat.mod_lt _ (by decide))
      · rw [List.reverse_cons, List.foldl_append, hfold, List.foldl_cons, List.foldl_nil,
          push_digit (by omega), hdiv]

theorem ofLiteral?_whole {negative : Bool} {digits : List Nat} {n taken : Nat} {m : Int}
    (hfold : digits.foldl Number.Significand.push ⟨0, 0, 0⟩ = ⟨n, taken, 0⟩)
    (hsign : ¬ (negative = true ∧ n = 0)) (hm : (if negative then -(n : Int) else n) = m)
    (hb : -0x8000000000000000 ≤ m ∧ m < 0x10000000000000000) :
    Number.ofLiteral? ⟨negative, digits, none, none⟩ = some (.whole m hb) := by
  simp only [Number.ofLiteral?, hfold, hm, true_and]
  rw [if_pos hsign, Number.ofInt?, dif_pos hb]

theorem lex_int (m : Int) (hb : -0x8000000000000000 ≤ m ∧ m < 0x10000000000000000) :
    Ready (.number (some (.whole m hb)) :: ts) (lex ⟨.between, ts⟩ (toString m).toList) := by
  cases m with
  | ofNat n =>
    have htext : (toString (Int.ofNat n)).toList = Nat.toDigits 10 n := Nat.toList_repr
    have hn : (n : Int) < 0x10000000000000000 := hb.2
    rw [htext]
    rcases Nat.eq_zero_or_pos n with rfl | h0
    · exact .number .zero ⟨false, [0], none, none⟩ ts (.inl rfl) rfl
    · have hawaits : Awaits false ts ⟨.between, ts⟩ := awaits_between
      obtain ⟨digits, taken, hlex, hfold⟩ := lex_digits hawaits h0 (by omega)
      have hvalue := ofLiteral?_whole hfold (fun h => Bool.false_ne_true h.1) (if_neg Bool.false_ne_true) hb
      rw [hlex]
      exact .number .whole _ ts (.inr rfl) (congrArg (Token.number · :: ts) hvalue.symm)
  | negSucc n =>
    have htext : (toString (Int.negSucc n)).toList = '-' :: Nat.toDigits 10 (n + 1) := by
      change ("-" ++ Nat.repr (n + 1)).toList = _
      rw [String.toList_append, Nat.toList_repr]
      rfl
    have hawaits : Awaits true ts ⟨.number .minus ⟨true, [], none, none⟩, ts⟩ := awaits_minus
    obtain ⟨digits, taken, hlex, hfold⟩ := lex_digits hawaits (Nat.succ_pos n) (by omega)
    have hminus : step ⟨.between, ts⟩ (some '-') = ⟨.number .minus ⟨true, [], none, none⟩, ts⟩ := rfl
    have hvalue := ofLiteral?_whole hfold (fun h => Nat.succ_ne_zero n h.2) (if_pos rfl) hb
    rw [htext, lex_cons, hminus, hlex]
    exact .number .whole _ ts (.inr rfl) (congrArg (Token.number · :: ts) hvalue.symm)

/-! ### Documents -/

structure IsBlank (style : Style) : Prop where
  newline : ∀ level, ∀ c ∈ style.newline level, c ∈ blanks
  afterColon : ∀ c ∈ style.afterColon, c ∈ blanks

theorem isBlank_compact : IsBlank compactStyle := ⟨fun _ => nofun, nofun⟩

theorem isBlank_pretty : IsBlank prettyStyle := by
  refine ⟨fun level c hc => ?_, fun c hc => ?_⟩
  · rcases List.mem_cons.mp hc with rfl | hc
    · decide
    · rw [List.eq_of_mem_replicate hc]
      decide
  · rw [List.mem_singleton.mp hc]
    decide

theorem Ready.comma (h : Ready ts s) (hcs : ∀ c ∈ cs, c ∈ Lexer.blanks) :
    lex s (',' :: cs) = ⟨.between, .comma :: ts⟩ := by
  rw [lex_cons, h.delimit (by decide)]
  exact lex_blanks hcs

theorem lex_key (key : String) (hcs : ∀ c ∈ cs, c ∈ blanks) :
    lex (lex ⟨.between, ts⟩ (quote key)) (':' :: cs) = ⟨.between, .colon :: .text (some key) :: ts⟩ := by
  rw [lex_quote, lex_cons]
  exact lex_blanks hcs

variable {style : Style}

mutual

theorem lex_write (hb : IsBlank style) (level : Nat) (ts : List Token) :
    ∀ j : Json, j.isExact = true → Ready (j.toTokens.reverse ++ ts) (lex ⟨.between, ts⟩ (write style level j))
  | .null, _ => .between
  | .bool true, _ => .between
  | .bool false, _ => .between
  | .number (.whole n hn), _ => lex_int n hn
  | .text value, _ => by
    rw [write, scalar, lex_quote]
    · exact .between
    · exact nofun
    · exact nofun
  | .list [], _ => .between
  | .list (x :: xs), h => by
    rw [isExact, itemsExact, Bool.and_eq_true] at h
    have hopen : lex ⟨.between, ts⟩ ('[' :: style.newline (level + 1)) = ⟨.between, .openList :: ts⟩ :=
      lex_blanks (hb.newline _)
    have hitems := (lex_writeItems hb (level + 1) xs h.2
      (lex_write hb (level + 1) (.openList :: ts) x h.1)).blanks (hb.newline level)
    rw [write, lex_append, lex_append, lex_append, lex_append, hopen, lex_cons, lex_nil,
      hitems.delimit (by decide)]
    simp only [toTokens, List.reverse_append, List.reverse_cons, List.reverse_nil, List.nil_append,
      List.cons_append, List.append_assoc]
    exact .between
  | .record [], _ => .between
  | .record ((k, x) :: ms), h => by
    rw [isExact, membersExact, Bool.and_eq_true] at h
    have hopen : lex ⟨.between, ts⟩ ('\x7b' :: style.newline (level + 1)) = ⟨.between, .openRecord :: ts⟩ :=
      lex_blanks (hb.newline _)
    have hmembers := (lex_writeMembers hb (level + 1) ms h.2
      (lex_write hb (level + 1) (.colon :: .text (some k) :: .openRecord :: ts) x h.1)).blanks
        (hb.newline level)
    rw [write, lex_append, lex_append, lex_append, lex_append, lex_append, lex_append, hopen,
      lex_key k hb.afterColon, lex_cons, lex_nil, hmembers.delimit (by decide)]
    simp only [toTokens, List.reverse_append, List.reverse_cons, List.reverse_nil, List.nil_append,
      List.cons_append, List.append_assoc]
    exact .between

theorem lex_writeItems (hb : IsBlank style) (level : Nat) {ts : List Token} {s : State} :
    ∀ xs : List Json, itemsExact xs = true → Ready ts s →
      Ready ((itemTokens xs).reverse ++ ts) (lex s (writeItems style level xs))
  | [], _, hs => hs
  | x :: xs, h, hs => by
    rw [itemsExact, Bool.and_eq_true] at h
    have hitem := lex_write hb level (.comma :: ts) x h.1
    rw [writeItems, lex_append, lex_append, hs.comma (hb.newline level)]
    simpa only [itemTokens, List.reverse_append, List.reverse_cons, List.append_assoc, List.cons_append,
      List.nil_append] using lex_writeItems hb level xs h.2 hitem

theorem lex_writeMembers (hb : IsBlank style) (level : Nat) {ts : List Token} {s : State} :
    ∀ ms : List (String × Json), membersExact ms = true → Ready ts s →
      Ready ((memberTokens ms).reverse ++ ts) (lex s (writeMembers style level ms))
  | [], _, hs => hs
  | (k, x) :: ms, h, hs => by
    rw [membersExact, Bool.and_eq_true] at h
    have hmember := lex_write hb level (.colon :: .text (some k) :: .comma :: ts) x h.1
    rw [writeMembers, lex_append, lex_append, lex_append, lex_append, hs.comma (hb.newline level),
      lex_key k hb.afterColon]
    simpa only [memberTokens, List.reverse_append, List.reverse_cons, List.append_assoc, List.cons_append,
      List.nil_append] using lex_writeMembers hb level ms h.2 hmember

end

end Lexer

theorem tokens_write {style : Style} (hb : Lexer.IsBlank style) {j : Json} (h : j.isExact = true) :
    tokens ((write style 0 j).map some) = j.toTokens := by
  have hready := Lexer.lex_write hb 0 [] j h
  rw [List.append_nil] at hready
  exact hready.finish.trans (List.reverse_reverse _)

end StakeLedger.Json
