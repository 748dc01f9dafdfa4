import StakeLedger.Bytes.Basic

namespace StakeLedger.Bytes

def value : Bytes → Nat
  | [] => 0
  | b :: bs => b.toNat + 256 * value bs

theorem value_ofUInt64 (n : UInt64) : value (ofUInt64 n) = n.toNat := by
  have hn := n.toNat_lt
  simp [ofUInt64, List.range_succ, value, UInt64.toNat_shiftRight, Nat.shiftRight_eq_div_pow]
  omega

theorem ofUInt64_inj {m n : UInt64} : ofUInt64 m = ofUInt64 n ↔ m = n := by
  refine ⟨fun h => ?_, congrArg ofUInt64⟩
  have hvalue := congrArg value h
  rw [value_ofUInt64, value_ofUInt64] at hvalue
  exact UInt64.toNat_inj.mp hvalue

theorem ofInt64_inj {m n : Int64} : ofInt64 m = ofInt64 n ↔ m = n := by
  rw [ofInt64, ofInt64, ofUInt64_inj]
  refine ⟨fun h => ?_, congrArg Int64.toUInt64⟩
  cases m
  cases n
  exact congrArg Int64.ofUInt64 h

end StakeLedger.Bytes
