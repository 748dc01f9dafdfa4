import StakeLedger.Proofs.Bytes.Base64
import StakeLedger.Proofs.Bytes.Bits
import StakeLedger.Proofs.Json.Codec
import StakeLedger.Proofs.Json.Tree

/-!
The one text in base64 that bytes have: it is written, and no other is read.

Main statement: `Codec.bytes_read_as_written`.
-/

namespace StakeLedger

namespace Base64

open Bits

def byteBits (bs : Bytes) : List Bool := bs.flatMap fun b => bits 8 b.toNat

def sextetBits (sextets : List Nat) : List Bool := sextets.flatMap (bits 6)

/-- The letters of a text hold the bits of bytes, six in each. Padding stands for two bits that the last letter
has left, and these are zero. -/
inductive Carries : List Char → Bytes → Prop
  | intro {sextets : List Nat} {padding : Nat} {bs : Bytes} : (∀ n ∈ sextets, n < 64) → padding < 3 →
    sextetBits sextets = byteBits bs ++ List.replicate (2 * padding) false →
    Carries (sextets.map letter ++ List.replicate padding '=') bs

variable {text before : List Char} {bs bytes : Bytes} {c : Char} {r : Reading} {w x y z : Nat}
  {sextets pending : List Nat}

theorem byteBits_append (as bs : Bytes) : byteBits (as ++ bs) = byteBits as ++ byteBits bs := List.flatMap_append

theorem sextetBits_append (xs ys : List Nat) : sextetBits (xs ++ ys) = sextetBits xs ++ sextetBits ys :=
  List.flatMap_append

theorem length_byteBits (bs : Bytes) : (byteBits bs).length = 8 * bs.length := by
  rw [byteBits, ← List.length_map UInt8.toNat, ← length_flatMap_bits, List.flatMap_map]

theorem letter_mem : ∀ n < 64, letter n ∈ alphabet := by decide +kernel

namespace Carries

theorem length_sextets {padding : Nat} (h : sextetBits sextets = byteBits bs ++ List.replicate (2 * padding) false) :
    6 * sextets.length = 8 * bs.length + 2 * padding := by
  rw [← length_flatMap_bits, ← sextetBits, h, List.length_append, length_byteBits, List.length_replicate]

theorem unique {other : List Char} (h : Carries text bs) (h' : Carries other bs) : text = other := by
  cases h with
  | @intro xs p _ hxs hp hxbits =>
    cases h' with
    | @intro ys q _ hys hq hybits =>
      have hxlength := length_sextets hxbits
      have hylength := length_sextets hybits
      have hpadding : p = q := by omega
      subst hpadding
      have hletters : xs = ys := (flatMap_bits_inj (by decide) hxs hys).mp (hxbits.trans hybits.symm)
      rw [hletters]

theorem length_mod_four (h : Carries text bs) : text.length % 4 = 0 := by
  cases h with
  | intro _ _ hbits =>
    have hlength := length_sextets hbits
    rw [List.length_append, List.length_map, List.length_replicate]
    omega

theorem subset (h : Carries text bs) : text ⊆ '=' :: alphabet := by
  cases h with
  | intro hs _ _ =>
    intro c hc
    rcases List.mem_append.mp hc with hc | hc
    · obtain ⟨n, hn, rfl⟩ := List.mem_map.mp hc
      exact List.mem_cons_of_mem _ (letter_mem n (hs n hn))
    · exact (List.mem_replicate.mp hc).2 ▸ List.mem_cons_self

end Carries

theorem lt_of_sextet? (h : sextet? c = some w) : c.toNat < 128 := by
  by_contra hc
  have hplus : c ≠ '+' := by rintro rfl; exact hc (by decide)
  have hslash : c ≠ '/' := by rintro rfl; exact hc (by decide)
  have hnone : sextet? c = none := by
    rw [sextet?, if_neg (by omega), if_neg (by omega), if_neg (by omega), if_neg hplus, if_neg hslash]
  exact nomatch hnone.symm.trans h

theorem letter_of_ascii : ∀ n < 128, ∀ w ∈ sextet? (Char.ofNat n), w < 64 ∧ letter w = Char.ofNat n := by
  decide +kernel

theorem letter_of_sextet? (h : sextet? c = some w) : w < 64 ∧ c = letter w := by
  have hascii := letter_of_ascii c.toNat (lt_of_sextet? h) w
  rw [Char.ofNat_toNat] at hascii
  exact ⟨(hascii h).1, (hascii h).2.symm⟩

theorem bits_joined {v u a b : Nat} (hsize : v + u = 8) (ha : a < 2 ^ v) (hb : b < 2 ^ u) :
    bits 8 (UInt8.ofNat (a * 2 ^ u + b)).toNat = bits v a ++ bits u b := by
  have hlt : a * 2 ^ u + b < 2 ^ 8 := by
    have hle : (a + 1) * 2 ^ u ≤ 2 ^ v * 2 ^ u := Nat.mul_le_mul_right _ ha
    rw [Nat.succ_mul, ← Nat.pow_add, hsize] at hle
    omega
  have hupper : (a * 2 ^ u + b) / 2 ^ u = a := by
    rw [Nat.mul_comm, Nat.mul_add_div (Nat.two_pow_pos u), Nat.div_eq_of_lt hb, Nat.add_zero]
  have hlower : (a * 2 ^ u + b) % 2 ^ u = b := by rw [Nat.mul_add_mod_self_right, Nat.mod_eq_of_lt hb]
  rw [UInt8.toNat_ofNat_of_lt' hlt, ← hsize, bits_add, hupper, hlower]

theorem bits_first (hx : x < 64) (hy : y < 64) :
    bits 8 (UInt8.ofNat (x * 4 + y / 16)).toNat = bits 6 x ++ bits 2 (y / 16) :=
  @bits_joined 6 2 x (y / 16) rfl hx (by omega)

theorem bits_second (hz : z < 64) :
    bits 8 (UInt8.ofNat (y % 16 * 16 + z / 4)).toNat = bits 4 (y % 16) ++ bits 4 (z / 4) :=
  @bits_joined 4 4 (y % 16) (z / 4) rfl (by omega) (by omega)

theorem bits_third (hw : w < 64) : bits 8 (UInt8.ofNat (z % 4 * 64 + w)).toNat = bits 2 (z % 4) ++ bits 6 w :=
  @bits_joined 2 6 (z % 4) w rfl (by omega) hw

theorem sextetBits_two (hx : x < 64) (hy : y < 64) :
    sextetBits [x, y] = byteBits [UInt8.ofNat (x * 4 + y / 16)] ++ bits 4 (y % 16) := by
  have hcut : bits 6 y = bits 2 (y / 16) ++ bits 4 (y % 16) := bits_add 2 4 y
  simp only [sextetBits, byteBits, List.flatMap_cons, List.flatMap_nil, List.append_nil, List.append_assoc,
    bits_first hx hy, hcut]

theorem sextetBits_three (hx : x < 64) (hy : y < 64) (hz : z < 64) :
    sextetBits [x, y, z] =
      byteBits [UInt8.ofNat (x * 4 + y / 16), UInt8.ofNat (y % 16 * 16 + z / 4)] ++ bits 2 (z % 4) := by
  have hcut : bits 6 z = bits 4 (z / 4) ++ bits 2 (z % 4) := bits_add 4 2 z
  have htwo : sextetBits [x, y, z] = sextetBits [x, y] ++ bits 6 z := by simp [sextetBits]
  rw [htwo, sextetBits_two hx hy, hcut]
  simp only [byteBits, List.flatMap_cons, List.flatMap_nil, List.append_nil, List.append_assoc, bits_second hz]

theorem sextetBits_four (hx : x < 64) (hy : y < 64) (hz : z < 64) (hw : w < 64) :
    sextetBits [x, y, z, w] = byteBits [UInt8.ofNat (x * 4 + y / 16), UInt8.ofNat (y % 16 * 16 + z / 4),
      UInt8.ofNat (z % 4 * 64 + w)] := by
  have hthree : sextetBits [x, y, z, w] = sextetBits [x, y, z] ++ bits 6 w := by simp [sextetBits]
  rw [hthree, sextetBits_three hx hy hz]
  simp only [byteBits, List.flatMap_cons, List.flatMap_nil, List.append_nil, List.append_assoc, bits_third hw]

def Reading.Reads : Reading → List Char → Prop
  | .letters pending bytes, text => ∃ done, text = (done ++ pending).map letter ∧ (∀ n ∈ done ++ pending, n < 64) ∧
    pending.length < 4 ∧ sextetBits done = byteBits bytes.reverse
  | .padding bytes, text => ∃ sextets, text = sextets.map letter ++ ['='] ∧ (∀ n ∈ sextets, n < 64) ∧
    sextetBits sextets = byteBits bytes.reverse ++ List.replicate 4 false
  | .finished bytes, text => Carries text bytes.reverse
  | .refused, _ => True

namespace Reading

theorem reads_push (h : (letters pending bytes).Reads before) (hshort : pending.length < 3) (hw : w < 64) :
    (letters (pending ++ [w]) bytes).Reads (before ++ [letter w]) := by
  obtain ⟨done, rfl, hall, -, hbits⟩ := h
  refine ⟨done, by simp, ?_, by simp; omega, hbits⟩
  rw [← List.append_assoc, List.forall_mem_append]
  exact ⟨hall, by simpa using hw⟩

theorem reads_letter (h : (letters pending bytes).Reads before) (hw : w < 64) :
    ((letters pending bytes).step (letter w)).Reads (before ++ [letter w]) := by
  have hpush := fun hshort => reads_push h hshort hw
  obtain ⟨done, rfl, hall, hshort, hbits⟩ := h
  -- Three letters wait at most: with the fourth their bits fill three bytes, and none is left over.
  match pending with
  | [] => exact step_first hw ▸ hpush (by decide)
  | [x] => exact step_second hw ▸ hpush (by simp)
  | [x, y] => exact step_third hw ▸ hpush (by simp)
  | [x, y, z] =>
    rw [step_fourth hw]
    simp only [List.forall_mem_append, List.forall_mem_cons, List.not_mem_nil] at hall
    obtain ⟨hdone, hx, hy, hz, -⟩ := hall
    refine ⟨done ++ [x, y, z, w], by simp, ?_, by decide, ?_⟩
    · simp only [List.forall_mem_append, List.forall_mem_cons, List.not_mem_nil]
      exact ⟨⟨hdone, hx, hy, hz, hw, nofun⟩, nofun⟩
    · rw [sextetBits_append, hbits, sextetBits_four hx hy hz hw, ← byteBits_append]
      simp
  | _ :: _ :: _ :: _ :: _ => simp at hshort; omega

theorem reads_other (h : (letters pending bytes).Reads before) (hc : sextet? c = none) :
    ((letters pending bytes).step c).Reads (before ++ [c]) := by
  obtain ⟨done, rfl, hall, hshort, hbits⟩ := h
  have hpending := (List.forall_mem_append.mp hall).2
  match pending with
  | [] | [_] =>
    simp only [step, hc]
    trivial
  | [x, y] =>
    simp only [step, hc]
    split
    · next hpadding =>
      obtain ⟨rfl, hzero⟩ := hpadding
      simp only [List.forall_mem_cons] at hpending
      obtain ⟨hx, hy, -⟩ := hpending
      refine ⟨done ++ [x, y], rfl, hall, ?_⟩
      rw [sextetBits_append, hbits, sextetBits_two hx hy, hzero, ← List.append_assoc, ← byteBits_append,
        List.reverse_cons]
      rfl
    · trivial
  | [x, y, z] =>
    simp only [step, hc]
    split
    · next hpadding =>
      obtain ⟨rfl, hzero⟩ := hpadding
      simp only [List.forall_mem_cons] at hpending
      obtain ⟨hx, hy, hz, -⟩ := hpending
      refine @Carries.intro _ 1 _ hall (by decide) ?_
      rw [sextetBits_append, hbits, sextetBits_three hx hy hz, hzero, ← List.append_assoc, ← byteBits_append,
        List.reverse_cons, List.reverse_cons, List.append_assoc]
      rfl
    · trivial
  | _ :: _ :: _ :: _ :: _ => simp at hshort; omega

theorem reads_step (h : r.Reads before) (c : Char) : (r.step c).Reads (before ++ [c]) := by
  cases r with
  | letters pending bytes =>
    cases hc : sextet? c with
    | none => exact reads_other h hc
    | some w =>
      obtain ⟨hw, rfl⟩ := letter_of_sextet? hc
      exact reads_letter h hw
  | padding bytes =>
    obtain ⟨sextets, rfl, hall, hbits⟩ := h
    rw [step]
    split
    · next hc =>
      subst hc
      rw [List.append_assoc]
      exact @Carries.intro _ 2 _ hall (by decide) hbits
    · trivial
  | finished _ => trivial
  | refused => trivial

theorem reads_run (h : r.Reads before) (text : List Char) : (text.foldl step r).Reads (before ++ text) := by
  induction text generalizing r before with
  | nil => exact (List.append_nil before).symm ▸ h
  | cons c text ih =>
    rw [List.foldl_cons, List.append_cons]
    exact ih (reads_step h c)

theorem carries_of_bytes? (h : r.Reads text) (hb : r.bytes? = some bs) : Carries text bs := by
  cases r with
  | letters pending bytes =>
    cases pending with
    | nil =>
      cases hb
      obtain ⟨done, rfl, hall, -, hbits⟩ := h
      rw [List.append_nil] at hall ⊢
      rw [← List.append_nil (done.map letter)]
      exact @Carries.intro _ 0 _ hall (by decide) (hbits.trans (List.append_nil _).symm)
    | cons _ _ => cases hb
  | padding _ => cases hb
  | finished _ =>
    cases hb
    exact h
  | refused => cases hb

end Reading

theorem carries_of_decode (h : decode text = some bs) : Carries text bs := by
  have hstart : (Reading.letters [] []).Reads [] := ⟨[], rfl, nofun, by decide, rfl⟩
  exact Reading.carries_of_bytes? (Reading.reads_run hstart text) h

theorem carries_encode (bs : Bytes) : Carries (encode bs).toList bs := carries_of_decode (decode_encode bs)

theorem carries_iff {s : String} : Carries s.toList bs ↔ s = encode bs := by
  constructor
  · intro h
    exact String.toList_inj.mp (h.unique (carries_encode bs))
  · rintro rfl
    exact carries_encode bs

theorem decode_eq_some_iff {s : String} : decode s.toList = some bs ↔ Carries s.toList bs := by
  refine ⟨carries_of_decode, fun h => ?_⟩
  rw [carries_iff.mp h, decode_encode]

end Base64

namespace Codec

open Json

theorem read_bytes_text_iff {room : Nat} {s : String} {b : Bytes} :
    bytes.read room (.text (some s)) = .ok b ↔ Base64.Carries s.toList b := by
  rw [← Base64.decode_eq_some_iff]
  simp only [bytes]
  cases Base64.decode s.toList with
  | none =>
    constructor
    · rintro ⟨⟩
    · rintro ⟨⟩
  | some bs => exact ⟨fun h => congrArg some (Except.ok.inj h), fun h => congrArg Except.ok (Option.some.inj h)⟩

theorem read_bytes_iff {room : Nat} {t : Tree} {b : Bytes} :
    bytes.read room t = .ok b ↔ t = .null ∧ b = [] ∨ t = (bytes.write b).toTree := by
  constructor
  · intro h
    cases t with
    | null => exact .inl ⟨rfl, (Except.ok.inj h).symm⟩
    | text s =>
      cases s with
      | none => cases h
      | some s => exact .inr (Base64.carries_iff.mp (read_bytes_text_iff.mp h) ▸ rfl)
    | _ => cases h
  · rintro (⟨rfl, rfl⟩ | rfl)
    · rfl
    · exact readsBack_bytes b room (Nat.zero_le _)

theorem ofString_compact_bytes (b : Bytes) : bytes.ofString (bytes.compact b) = .ok b := by
  rw [ofString, compact, Json.ofString_compact rfl, ofDocument, readsBack_bytes b Json.room (Nat.zero_le _)]
  rfl

/-- A string of bytes is read back from what is written for it, and from no other text: from letters of the
alphabet that hold its bits and zeros after them, with padding up to a multiple of four. Beside that text only
null is read, as no bytes. -/
theorem bytes_read_as_written :
    (∀ b, bytes.ofString (bytes.compact b) = .ok b) ∧
      (∀ room t b, bytes.read room t = .ok b ↔ t = .null ∧ b = [] ∨ t = (bytes.write b).toTree) ∧
      (∀ room s b, bytes.read room (.text (some s)) = .ok b ↔ Base64.Carries s.toList b) ∧
      ∀ b, (Base64.encode b).length % 4 = 0 ∧ (Base64.encode b).toList ⊆ '=' :: Base64.alphabet := by
  refine ⟨ofString_compact_bytes, fun _ _ _ => read_bytes_iff, fun _ _ _ => read_bytes_text_iff, fun b => ?_⟩
  have hcarries := Base64.carries_encode b
  exact ⟨String.length_toList.symm ▸ hcarries.length_mod_four, hcarries.subset⟩

example : ["3q2+7w==", "3q2-7w==", "3q2+7x==", "3q2+7w"].map (fun s => bytes.ofJson (.text s)) =
    [.ok [0xde, 0xad, 0xbe, 0xef], .error .mismatched, .error .mismatched, .error .mismatched] := by decide

end Codec

end StakeLedger
