import StakeLedger.Proofs.Json.Lexing
import StakeLedger.Proofs.Number.Decimal

/-! The integers among the numbers of a document. Main statement: `ofLiteral?_eq_whole_iff`. -/

namespace StakeLedger.Json

open Decimal

variable {digits : List Nat} {v taken : Nat} {l : Literal} {n : Int}

def Literal.magnitude (l : Literal) : Nat := l.whole.foldl (fun n d => n * 10 + d) 0

namespace Number

theorem push_dropped {s : Significand} (d : Nat) (h : s.dropped ≠ 0) : (s.push d).dropped ≠ 0 := by
  rw [Significand.push, if_neg fun hd => h hd.1]
  exact Nat.succ_ne_zero _

theorem foldl_push_dropped {s : Significand} (digits : List Nat) (h : s.dropped ≠ 0) :
    (digits.foldl Significand.push s).dropped ≠ 0 := by
  induction digits generalizing s with
  | nil => exact h
  | cons d digits ih => exact ih (push_dropped d h)

theorem le_foldl_digits : v ≤ digits.foldl (fun n d => n * 10 + d) v := by
  induction digits generalizing v with
  | nil => exact Nat.le_refl v
  | cons d digits ih => exact Nat.le_trans (show v ≤ v * 10 + d by omega) ih

theorem foldl_push (h : digits.foldl (fun n d => n * 10 + d) v < 0x10000000000000000) :
    digits.foldl Significand.push ⟨v, taken, 0⟩ =
      ⟨digits.foldl (fun n d => n * 10 + d) v, taken + digits.length, 0⟩ := by
  induction digits generalizing v taken with
  | nil => rfl
  | cons d digits ih =>
    have hfits : v * 10 + d < 0x10000000000000000 := Nat.lt_of_le_of_lt le_foldl_digits h
    have hpush : Significand.push ⟨v, taken, 0⟩ d = ⟨v * 10 + d, taken + 1, 0⟩ := if_pos ⟨rfl, hfits⟩
    rw [List.foldl_cons, hpush, ih h, List.length_cons, Nat.add_assoc, Nat.add_comm 1]
    rfl

theorem foldl_push_of_dropped_eq_zero (h : (digits.foldl Significand.push ⟨v, taken, 0⟩).dropped = 0)
    (hv : v < 0x10000000000000000) : digits.foldl (fun n d => n * 10 + d) v < 0x10000000000000000 := by
  induction digits generalizing v taken with
  | nil => exact hv
  | cons d digits ih =>
    by_cases hfits : v * 10 + d < 0x10000000000000000
    · have hpush : Significand.push ⟨v, taken, 0⟩ d = ⟨v * 10 + d, taken + 1, 0⟩ := if_pos ⟨rfl, hfits⟩
      rw [List.foldl_cons, hpush] at h
      exact ih h hfits
    · -- a digit that was dropped takes all later ones with it
      have hpush : Significand.push ⟨v, taken, 0⟩ d = ⟨v, taken, 1⟩ := if_neg fun hp => hfits hp.2
      rw [List.foldl_cons, hpush] at h
      exact absurd h (foldl_push_dropped digits Nat.one_ne_zero)

theorem ofInt?_eq_some_iff {number : Number} : ofInt? n = some number ↔ ∃ h, number = .whole n h := by
  rw [ofInt?]
  by_cases hn : -0x8000000000000000 ≤ n ∧ n < 0x10000000000000000
  · rw [dif_pos hn, Option.some.injEq]
    exact ⟨fun he => ⟨hn, he.symm⟩, fun he => he.choose_spec.symm⟩
  · rw [dif_neg hn]
    constructor
    · intro he
      cases he
    · intro he
      exact absurd he.choose hn

end Number

theorem lt_of_signed {negative : Bool} {m : Nat}
    (h : -0x8000000000000000 ≤ signed negative m ∧ signed negative m < 0x10000000000000000) :
    m < 0x10000000000000000 := by
  cases negative with
  | true =>
    change -0x8000000000000000 ≤ -(m : Int) ∧ _ at h
    omega
  | false =>
    change _ ∧ (m : Int) < 0x10000000000000000 at h
    omega

/-- A number is an integer where it has neither a fraction nor an exponent and is not zero with a minus sign. -/
theorem ofLiteral?_eq_whole_iff {bounded : -0x8000000000000000 ≤ n ∧ n < 0x10000000000000000} :
    Number.ofLiteral? l = some (.whole n bounded) ↔ l.fraction = none ∧ l.exponent = none ∧
      ¬ (l.negative = true ∧ l.magnitude = 0) ∧ n = signed l.negative l.magnitude := by
  have hdouble : ∀ {x : Option Binary64} {f : Binary64 → Binary64},
      x.map (fun y => Number.double (f y)) ≠ some (.whole n bounded) := by
    intro x f h
    obtain ⟨y, -, hy⟩ := Option.map_eq_some_iff.mp h
    cases hy
  obtain ⟨negative, whole, fraction, exponent⟩ := l
  cases fraction with
  | some digits => exact ⟨fun h => absurd h hdouble, fun h => nomatch h.1⟩
  | none =>
    cases exponent with
    | some e => exact ⟨fun h => absurd h hdouble, fun h => nomatch h.2.1⟩
    | none =>
      rw [and_iff_right rfl, and_iff_right rfl]
      constructor
      · intro h
        dsimp only [Number.ofLiteral?] at h
        split at h
        · next hlead =>
          have hfits := Number.foldl_push_of_dropped_eq_zero hlead.1 (by decide)
          rw [@Number.foldl_push whole 0 0 hfits] at h hlead
          split at h
          · next number hint =>
            cases h
            obtain ⟨hbounds, hn⟩ := Number.ofInt?_eq_some_iff.mp hint
            cases hn
            exact ⟨hlead.2, rfl⟩
          · exact absurd h hdouble
        · exact absurd h hdouble
      · rintro ⟨hzero, rfl⟩
        exact Lexer.ofLiteral?_whole (Number.foldl_push (lt_of_signed bounded)) hzero rfl bounded

end StakeLedger.Json
