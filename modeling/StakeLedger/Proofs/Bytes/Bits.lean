import Mathlib.Algebra.Ring.Nat
import StakeLedger.Bytes.Basic

/-! Numbers as bits, the most significant first, and lists of numbers with their bits in a row. -/

namespace StakeLedger

def bits : Nat → Nat → List Bool
  | 0, _ => []
  | width + 1, n => bits width (n / 2) ++ [decide (n % 2 = 1)]

namespace Bits

variable {w m n : Nat} {ms ns : List Nat}

@[simp] theorem length_bits (w n : Nat) : (bits w n).length = w := by
  induction w generalizing n with
  | zero => rfl
  | succ w ih => rw [bits, List.length_append, ih, List.length_singleton]

theorem bits_add (v w n : Nat) : bits (v + w) n = bits v (n / 2 ^ w) ++ bits w (n % 2 ^ w) := by
  induction w generalizing n with
  | zero => rw [Nat.pow_zero, Nat.div_one, Nat.add_zero, bits, List.append_nil]
  | succ w ih =>
    have hupper : n / 2 / 2 ^ w = n / 2 ^ (w + 1) := by rw [Nat.div_div_eq_div_mul, Nat.pow_succ, Nat.mul_comm]
    have hlower : n / 2 % 2 ^ w = n % 2 ^ (w + 1) / 2 := by
      rw [Nat.pow_succ, Nat.mul_comm, Nat.mod_mul_right_div_self]
    have hlast : n % 2 ^ (w + 1) % 2 = n % 2 := Nat.mod_mod_of_dvd n (Nat.dvd_mul_left 2 (2 ^ w))
    rw [← Nat.add_assoc, bits, bits, ih, hupper, hlower, hlast, List.append_assoc]

theorem bits_inj (hm : m < 2 ^ w) (hn : n < 2 ^ w) : bits w m = bits w n ↔ m = n := by
  refine ⟨fun h => ?_, fun h => h ▸ rfl⟩
  induction w generalizing m n with
  | zero => omega
  | succ w ih =>
    rw [Nat.pow_succ] at hm hn
    obtain ⟨hupper, hlast⟩ := List.append_inj' h rfl
    have hhalf : m / 2 = n / 2 := ih (by omega) (by omega) hupper
    have hodd : (m % 2 = 1) ↔ (n % 2 = 1) := decide_eq_decide.mp (List.cons.inj hlast).1
    omega

theorem length_flatMap_bits (w : Nat) (ns : List Nat) : (ns.flatMap (bits w)).length = w * ns.length := by
  induction ns with
  | nil => rfl
  | cons n ns ih => rw [List.flatMap_cons, List.length_append, ih, length_bits, List.length_cons, Nat.mul_succ,
      Nat.add_comm]

theorem flatMap_bits_inj (hw : 0 < w) (hm : ∀ m ∈ ms, m < 2 ^ w) (hn : ∀ n ∈ ns, n < 2 ^ w) :
    ms.flatMap (bits w) = ns.flatMap (bits w) ↔ ms = ns := by
  refine ⟨fun h => ?_, fun h => h ▸ rfl⟩
  have hlength := congrArg List.length h
  rw [length_flatMap_bits, length_flatMap_bits] at hlength
  replace hlength := Nat.eq_of_mul_eq_mul_left hw hlength
  induction ms generalizing ns with
  | nil => exact (List.length_eq_zero_iff.mp hlength.symm).symm
  | cons m ms ih =>
    cases ns with
    | nil => cases hlength
    | cons n ns =>
      rw [List.forall_mem_cons] at hm hn
      rw [List.flatMap_cons, List.flatMap_cons] at h
      obtain ⟨hhead, htail⟩ := List.append_inj h (by rw [length_bits, length_bits])
      rw [(bits_inj hm.1 hn.1).mp hhead, ih hm.2 hn.2 htail (Nat.succ.inj hlength)]

end Bits

end StakeLedger
