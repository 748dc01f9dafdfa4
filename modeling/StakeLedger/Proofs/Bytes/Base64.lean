import StakeLedger.Bytes.Base64
import StakeLedger.Proofs.Bytes.Groups

namespace StakeLedger

namespace Base64

variable {n x y z : Nat} {bytes : Bytes}

theorem sextet?_letter : ∀ n < 64, sextet? (letter n) = some n := by decide +kernel

theorem step_first (hn : n < 64) : Reading.step (.letters [] bytes) (letter n) = .letters [n] bytes := by
  simp only [Reading.step, sextet?_letter n hn, List.nil_append]

theorem step_second (hn : n < 64) : Reading.step (.letters [x] bytes) (letter n) = .letters [x, n] bytes := by
  simp only [Reading.step, sextet?_letter n hn, List.nil_append, List.cons_append]

theorem step_third (hn : n < 64) :
    Reading.step (.letters [x, y] bytes) (letter n) = .letters [x, y, n] bytes := by
  simp only [Reading.step, sextet?_letter n hn, List.nil_append, List.cons_append]

theorem step_fourth (hn : n < 64) :
    Reading.step (.letters [x, y, z] bytes) (letter n) =
      .letters [] (UInt8.ofNat (z % 4 * 64 + n) :: UInt8.ofNat (y % 16 * 16 + z / 4) ::
        UInt8.ofNat (x * 4 + y / 16) :: bytes) := by
  simp only [Reading.step, sextet?_letter n hn]

theorem step_padding (hy : y % 16 = 0) :
    Reading.step (.letters [x, y] bytes) '=' = .padding (UInt8.ofNat (x * 4 + y / 16) :: bytes) :=
  if_pos ⟨rfl, hy⟩

theorem step_finished (hz : z % 4 = 0) :
    Reading.step (.letters [x, y, z] bytes) '=' =
      .finished (UInt8.ofNat (y % 16 * 16 + z / 4) :: UInt8.ofNat (x * 4 + y / 16) :: bytes) :=
  if_pos ⟨rfl, hz⟩

theorem ofNat_eq {b : UInt8} (h : n = b.toNat) : UInt8.ofNat n = b := by rw [h, UInt8.ofNat_toNat]

theorem run_three (a b c : UInt8) :
    (encodeGroup [a, b, c]).foldl Reading.step (.letters [] bytes) = .letters [] (c :: b :: a :: bytes) := by
  have ha := a.toNat_lt
  have hb := b.toNat_lt
  have hc := c.toNat_lt
  rw [encodeGroup, List.foldl_cons, List.foldl_cons, List.foldl_cons, List.foldl_cons, List.foldl_nil,
    step_first (by omega), step_second (by omega), step_third (by omega), step_fourth (by omega),
    ofNat_eq (b := c) (by omega), ofNat_eq (b := b) (by omega), ofNat_eq (b := a) (by omega)]

theorem run_two (a b : UInt8) :
    (encodeGroup [a, b]).foldl Reading.step (.letters [] bytes) = .finished (b :: a :: bytes) := by
  have ha := a.toNat_lt
  have hb := b.toNat_lt
  rw [encodeGroup, List.foldl_cons, List.foldl_cons, List.foldl_cons, List.foldl_cons, List.foldl_nil,
    step_first (by omega), step_second (by omega), step_third (by omega), step_finished (by omega),
    ofNat_eq (b := b) (by omega), ofNat_eq (b := a) (by omega)]

theorem run_one (a : UInt8) :
    (encodeGroup [a]).foldl Reading.step (.letters [] bytes) = .finished (a :: bytes) := by
  have ha := a.toNat_lt
  rw [encodeGroup, List.foldl_cons, List.foldl_cons, List.foldl_cons, List.foldl_cons, List.foldl_nil,
    step_first (by omega), step_second (by omega), step_padding (by omega), ofNat_eq (b := a) (by omega)]
  rfl

theorem run_groups (bytes : Bytes) : ∀ bs : Bytes,
    (((groups 3 bs).flatMap encodeGroup).foldl Reading.step (.letters [] bytes)).bytes? =
      some (bytes.reverse ++ bs)
  | [] => by rw [List.append_nil]; rfl
  | [a] => by
    change ((encodeGroup [a] ++ []).foldl Reading.step (.letters [] bytes)).bytes? = _
    rw [List.append_nil, run_one, Reading.bytes?, List.reverse_cons]
  | [a, b] => by
    change ((encodeGroup [a, b] ++ []).foldl Reading.step (.letters [] bytes)).bytes? = _
    rw [List.append_nil, run_two, Reading.bytes?, List.reverse_cons, List.reverse_cons, List.append_assoc]
    rfl
  | a :: b :: c :: rest => by
    rw [groups_three, List.flatMap_cons, List.foldl_append, run_three, run_groups (c :: b :: a :: bytes) rest,
      List.reverse_cons, List.reverse_cons, List.reverse_cons, List.append_assoc, List.append_assoc,
      List.append_assoc]
    rfl

theorem decode_encode (bs : Bytes) : decode (encode bs).toList = some bs := by
  rw [decode, encode, String.toList_ofList, run_groups]
  rfl

end Base64

end StakeLedger
