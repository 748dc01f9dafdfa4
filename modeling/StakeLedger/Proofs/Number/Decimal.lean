import StakeLedger.Number.Decimal
import StakeLedger.Proofs.Outcome

/-!
The integers that decimal text stands for.

Main statements: `parse_eq_ok_iff`, and `Words.parse_eq_ok_iff` where there is nothing below zero.
-/

namespace StakeLedger.Decimal

variable {r : Range} {negative : Bool} {cs : List Char} {c : Char} {n m : Int} {k : Nat}

structure Digits (cs : List Char) : Prop where
  nonempty : cs ≠ []
  digit : ∀ c ∈ cs, c.isDigit = true

def signed (negative : Bool) (n : Nat) : Int := if negative then -n else n

inductive Numeral : List Char → Int → Prop
  | plain {cs : List Char} : Digits cs → Numeral cs (signed false (Nat.ofDigitChars 10 cs 0))
  | plus {cs : List Char} : Digits cs → Numeral ('+' :: cs) (signed false (Nat.ofDigitChars 10 cs 0))
  | minus {cs : List Char} : Digits cs → Numeral ('-' :: cs) (signed true (Nat.ofDigitChars 10 cs 0))

inductive Natural : List Char → Nat → Prop
  | plain {cs : List Char} : Digits cs → Natural cs (Nat.ofDigitChars 10 cs 0)
  | plus {cs : List Char} : Digits cs → Natural ('+' :: cs) (Nat.ofDigitChars 10 cs 0)

def Range.Holds (r : Range) (n : Int) : Prop := r.low ≤ n ∧ n ≤ r.high

theorem le_ofDigitChars : k ≤ Nat.ofDigitChars 10 cs k := by
  induction cs generalizing k with
  | nil => exact Nat.le_of_eq Nat.ofDigitChars_nil.symm
  | cons c cs ih =>
    rw [Nat.ofDigitChars_cons]
    exact Nat.le_trans (by omega) ih

theorem Range.Holds.of_le {i : Nat} (h : r.Holds (signed negative k)) (h0 : r.Holds 0) (hle : i ≤ k) :
    r.Holds (signed negative i) := by
  obtain ⟨hlow, hhigh⟩ := h
  obtain ⟨hlow0, hhigh0⟩ := h0
  cases negative with
  | true =>
    change r.low ≤ -(k : Int) at hlow
    exact ⟨show r.low ≤ -(i : Int) by omega, show -(i : Int) ≤ r.high by omega⟩
  | false =>
    change (k : Int) ≤ r.high at hhigh
    exact ⟨show r.low ≤ (i : Int) by omega, show (i : Int) ≤ r.high by omega⟩

theorem signed_push (hc : c.isDigit = true) :
    (if negative then 10 * signed negative k - ((c.toNat : Int) - 48)
      else 10 * signed negative k + ((c.toNat : Int) - 48)) =
      signed negative (10 * k + (c.toNat - '0'.toNat)) := by
  obtain ⟨hzero, -⟩ := Char.isDigit_iff_toNat.mp hc
  change 48 ≤ c.toNat at hzero
  have hdigit : ((10 * k + (c.toNat - '0'.toNat) : Nat) : Int) = 10 * k + ((c.toNat : Int) - 48) := by
    change ((10 * k + (c.toNat - 48) : Nat) : Int) = _
    omega
  rw [signed, signed, hdigit]
  cases negative with
  | true =>
    simp only [if_true]
    omega
  | false => rfl

theorem pushDigit_eq_ok_iff : pushDigit r negative (signed negative k) c = .ok m ↔
    c.isDigit = true ∧ m = signed negative (10 * k + (c.toNat - '0'.toNat)) ∧ r.Holds m := by
  rw [pushDigit]
  by_cases hc : c.isDigit = true
  · rw [if_neg (not_not_intro hc)]
    dsimp only
    rw [signed_push hc]
    generalize signed negative (10 * k + (c.toNat - '0'.toNat)) = next
    split
    · next hhigh =>
      refine ⟨nofun, ?_⟩
      rintro ⟨-, rfl, -, hm⟩
      omega
    · split
      · next hlow =>
        refine ⟨nofun, ?_⟩
        rintro ⟨-, rfl, hm, -⟩
        omega
      · next hhigh hlow =>
        constructor
        · rintro h
          cases h
          exact ⟨hc, rfl, Int.not_lt.mp hlow, Int.not_lt.mp hhigh⟩
        · rintro ⟨-, rfl, -⟩
          rfl
  · rw [if_pos hc]
    exact ⟨nofun, fun h => absurd h.1 hc⟩

theorem foldlM_pushDigit_eq_ok_iff (h0 : r.Holds 0) (hk : r.Holds (signed negative k)) :
    cs.foldlM (pushDigit r negative) (signed negative k) = .ok n ↔
      (∀ c ∈ cs, c.isDigit = true) ∧ n = signed negative (Nat.ofDigitChars 10 cs k) ∧ r.Holds n := by
  induction cs generalizing k with
  | nil =>
    rw [Nat.ofDigitChars_nil]
    constructor
    · rintro h
      cases h
      exact ⟨nofun, rfl, hk⟩
    · rintro ⟨-, rfl, -⟩
      rfl
  | cons c cs ih =>
    rw [List.foldlM_cons, bind_eq_ok, List.forall_mem_cons, Nat.ofDigitChars_cons]
    constructor
    · rintro ⟨m, hm, hrest⟩
      obtain ⟨hc, rfl, hm⟩ := pushDigit_eq_ok_iff.mp hm
      obtain ⟨hcs, hn⟩ := (ih hm).mp hrest
      exact ⟨⟨hc, hcs⟩, hn⟩
    · rintro ⟨⟨hc, hcs⟩, rfl, hn⟩
      have hm := hn.of_le h0 le_ofDigitChars
      exact ⟨_, pushDigit_eq_ok_iff.mpr ⟨hc, rfl, hm⟩, (ih hm).mpr ⟨hcs, rfl, hn⟩⟩

theorem parseDigits_eq_ok_iff (h0 : r.Holds 0) : parseDigits r negative cs = .ok n ↔
    Digits cs ∧ n = signed negative (Nat.ofDigitChars 10 cs 0) ∧ r.Holds n := by
  have hzero : signed negative 0 = 0 := by cases negative <;> rfl
  have hfold := @foldlM_pushDigit_eq_ok_iff r negative cs n 0 h0 (hzero.symm ▸ h0)
  rw [hzero] at hfold
  rw [parseDigits]
  cases cs with
  | nil => exact ⟨nofun, fun h => absurd rfl h.1.nonempty⟩
  | cons c cs =>
    refine hfold.trans (and_congr_left fun _ => ?_)
    exact ⟨fun h => ⟨List.cons_ne_nil _ _, h⟩, Digits.digit⟩

theorem Digits.head (h : Digits (c :: cs)) : c.isDigit = true := h.digit c List.mem_cons_self

theorem parse_eq_ok_iff_of_holds (h0 : r.Holds 0) :
    parse r cs = .ok n ↔ Numeral cs n ∧ (cs.head? = some '-' → r.low < 0) ∧ r.Holds n := by
  cases cs with
  | nil =>
    refine ⟨nofun, ?_⟩
    rintro ⟨hn, -⟩
    cases hn with
    | plain hd => exact absurd rfl hd.nonempty
  | cons c rest =>
    rw [parse, List.head?_cons, Option.some.injEq]
    split
    · next hplus =>
      subst hplus
      rw [parseDigits_eq_ok_iff h0]
      constructor
      · rintro ⟨hd, rfl, hn⟩
        exact ⟨.plus hd, nofun, hn⟩
      · rintro ⟨hnumeral, -, hn⟩
        cases hnumeral with
        | plain hd => exact nomatch hd.head
        | plus hd => exact ⟨hd, rfl, hn⟩
    · next hplus =>
      split
      · next hminus =>
        obtain ⟨rfl, hlow⟩ := hminus
        rw [parseDigits_eq_ok_iff h0]
        constructor
        · rintro ⟨hd, rfl, hn⟩
          exact ⟨.minus hd, fun _ => hlow, hn⟩
        · rintro ⟨hnumeral, -, hn⟩
          cases hnumeral with
          | plain hd => exact nomatch hd.head
          | minus hd => exact ⟨hd, rfl, hn⟩
      · next hminus =>
        rw [parseDigits_eq_ok_iff h0]
        constructor
        · rintro ⟨hd, rfl, hn⟩
          refine ⟨.plain hd, ?_, hn⟩
          rintro rfl
          exact nomatch hd.head
        · rintro ⟨hnumeral, hlow, hn⟩
          cases hnumeral with
          | plain hd => exact ⟨hd, rfl, hn⟩
          | plus hd => exact absurd rfl hplus
          | minus hd => exact absurd ⟨rfl, hlow rfl⟩ hminus

theorem parse_eq_ok_iff (hlow : r.low < 0) (hhigh : 0 ≤ r.high) : parse r cs = .ok n ↔ Numeral cs n ∧ r.Holds n := by
  rw [parse_eq_ok_iff_of_holds ⟨Int.le_of_lt hlow, hhigh⟩]
  exact and_congr_right fun _ => ⟨And.right, fun hn => ⟨fun _ => hlow, hn⟩⟩

/-- Where the range starts at zero there is no minus sign, not even before a zero. -/
theorem parse_eq_ok_iff_natural (hlow : r.low = 0) (hhigh : 0 ≤ r.high) :
    parse r cs = .ok n ↔ ∃ k : Nat, Natural cs k ∧ n = k ∧ n ≤ r.high := by
  rw [parse_eq_ok_iff_of_holds ⟨Int.le_of_eq hlow, hhigh⟩]
  constructor
  · rintro ⟨hnumeral, hminus, -, hn⟩
    cases hnumeral with
    | plain hd => exact ⟨_, .plain hd, rfl, hn⟩
    | plus hd => exact ⟨_, .plus hd, rfl, hn⟩
    | minus _ => exact absurd (hminus rfl) (by omega)
  · rintro ⟨k, hk, rfl, hn⟩
    have hholds : r.Holds k := ⟨hlow ▸ Int.natCast_nonneg k, hn⟩
    cases hk with
    | plain hd =>
      refine ⟨.plain hd, fun hminus => ?_, hholds⟩
      obtain ⟨rest, rfl⟩ := List.head?_eq_some_iff.mp hminus
      exact nomatch hd.head
    | plus hd => exact ⟨.plus hd, nofun, hholds⟩

def StandsFor {α : Type} (toNat : α → Nat) (text : String) (n : α) : Prop := Natural text.toList (toNat n)

structure Words {α : Type} (r : Range) (toNat : α → Nat) (ofNat : Nat → α) : Prop where
  low : r.low = 0
  fits : ∀ n, (toNat n : Int) ≤ r.high
  toNat_ofNat : ∀ k : Nat, (k : Int) ≤ r.high → toNat (ofNat k) = k
  ofNat_toNat : ∀ n, ofNat (toNat n) = n

theorem words_uint64 : Words uint64 UInt64.toNat UInt64.ofNat where
  low := rfl
  fits n := Int.le_sub_one_of_lt (Int.ofNat_lt.mpr n.toNat_lt)
  toNat_ofNat _ h := UInt64.toNat_ofNat_of_lt' (Int.ofNat_lt.mp (Int.lt_of_le_sub_one h))
  ofNat_toNat _ := UInt64.ofNat_toNat

theorem words_uint16 : Words uint16 UInt16.toNat UInt16.ofNat where
  low := rfl
  fits n := Int.le_sub_one_of_lt (Int.ofNat_lt.mpr n.toNat_lt)
  toNat_ofNat _ h := UInt16.toNat_ofNat_of_lt' (Int.ofNat_lt.mp (Int.lt_of_le_sub_one h))
  ofNat_toNat _ := UInt16.ofNat_toNat

namespace Words

variable {α : Type} {toNat : α → Nat} {ofNat : Nat → α} {text : String} {x : α}

theorem high_nonneg (hw : Words r toNat ofNat) : 0 ≤ r.high :=
  Int.le_trans (Int.natCast_nonneg _) (hw.fits (ofNat 0))

theorem parse_eq_ok_iff (hw : Words r toNat ofNat) : parse r text.toList = .ok (toNat x) ↔ StandsFor toNat text x := by
  rw [parse_eq_ok_iff_natural hw.low hw.high_nonneg]
  constructor
  · rintro ⟨k, hk, hx, -⟩
    rw [StandsFor, Int.ofNat.inj hx]
    exact hk
  · intro h
    exact ⟨toNat x, h, rfl, hw.fits x⟩

theorem parse_eq_error (hw : Words r toNat ofNat) (h : ∀ x, ¬ StandsFor toNat text x) :
    ∃ fault, parse r text.toList = .error fault := by
  cases hparse : parse r text.toList with
  | error fault => exact ⟨fault, rfl⟩
  | ok n =>
    obtain ⟨k, hk, rfl, hn⟩ := (parse_eq_ok_iff_natural hw.low hw.high_nonneg).mp hparse
    rw [← hw.toNat_ofNat k hn] at hk
    exact absurd hk (h (ofNat k))

end Words

end StakeLedger.Decimal
