import StakeLedger.Digest.Framed
import StakeLedger.Proofs.Bytes.Word

/-!
A framed stream can be cut into its parts in one way only, wherever it is broken off.

Main statement: `parts_of_stream`.
-/

namespace StakeLedger

namespace Blake3

def Collides (xs ys : Bytes) : Prop := xs ≠ ys ∧ digest xs = digest ys

end Blake3

namespace Framed

def Fits (parts : List Bytes) : Prop := ∀ p ∈ parts, p.length < UInt64.size

variable {p q : Bytes} {ps qs : List Bytes}

instance : Decidable (Fits ps) := inferInstanceAs (Decidable (∀ p ∈ ps, p.length < UInt64.size))

theorem fits_cons : Fits (p :: ps) ↔ p.length < UInt64.size ∧ Fits ps := List.forall_mem_cons

theorem ofUInt64_length_inj (hp : p.length < UInt64.size) (hq : q.length < UInt64.size) :
    Bytes.ofUInt64 (UInt64.ofNat p.length) = Bytes.ofUInt64 (UInt64.ofNat q.length) ↔
      p.length = q.length := by
  rw [Bytes.ofUInt64_inj, ← UInt64.toNat_inj, UInt64.toNat_ofNat_of_lt' hp, UInt64.toNat_ofNat_of_lt' hq]

theorem frame_append_inj (hp : p.length < UInt64.size) (hq : q.length < UInt64.size) {xs ys : Bytes}
    (h : Bytes.ofUInt64 (UInt64.ofNat p.length) ++ (p ++ xs) =
      Bytes.ofUInt64 (UInt64.ofNat q.length) ++ (q ++ ys)) : p = q ∧ xs = ys := by
  obtain ⟨hframe, hrest⟩ := List.append_inj h (by simp)
  have hlength := (ofUInt64_length_inj hp hq).mp hframe
  exact List.append_inj hrest hlength

theorem isPrefix_of_stream (hp : Fits ps) (hq : Fits qs) (h : stream ps <+: stream qs) : ps <+: qs := by
  induction ps generalizing qs with
  | nil => exact List.nil_prefix
  | cons p ps ih =>
    rw [fits_cons] at hp
    obtain ⟨rest, h⟩ := h
    cases qs with
    | nil =>
      have hlength := congrArg List.length h
      simp at hlength
    | cons q qs =>
      rw [fits_cons] at hq
      simp only [stream_cons, List.append_assoc] at h
      obtain ⟨rfl, hrest⟩ := frame_append_inj hp.1 hq.1 h
      rw [List.prefix_cons_inj]
      exact ih hp.2 hq.2 ⟨rest, hrest⟩

theorem stream_inj (hp : Fits ps) (hq : Fits qs) : stream ps = stream qs ↔ ps = qs := by
  refine ⟨fun h => ?_, congrArg stream⟩
  have hpq : ps <+: qs := isPrefix_of_stream hp hq (h ▸ List.prefix_rfl)
  have hqp : qs <+: ps := isPrefix_of_stream hq hp (h ▸ List.prefix_rfl)
  exact hpq.eq_of_length (Nat.le_antisymm hpq.length_le hqp.length_le)

theorem stream_append (ps qs : List Bytes) : stream (ps ++ qs) = stream ps ++ stream qs := List.flatMap_append

theorem isPrefix_stream_iff (hp : Fits ps) (hq : Fits qs) : stream ps <+: stream qs ↔ ps <+: qs := by
  refine ⟨isPrefix_of_stream hp hq, ?_⟩
  rintro ⟨rest, rfl⟩
  rw [stream_append]
  exact List.prefix_append _ _

theorem digest_eq_iff (hp : Fits ps) (hq : Fits qs) :
    digest ps = digest qs ↔ ps = qs ∨ Blake3.Collides (stream ps) (stream qs) := by
  rw [← stream_inj hp hq]
  constructor
  · intro h
    by_cases hs : stream ps = stream qs
    · exact .inl hs
    · exact .inr ⟨hs, h⟩
  · rintro (hs | hs)
    · exact congrArg Blake3.digest hs
    · exact hs.2

/-- A stream stands for one list of parts, whatever bytes these hold and however many they are, and it begins
another one only where its parts begin those of the other. So two digests are equal for one list of parts, and
otherwise only by a collision. -/
theorem parts_of_stream (hp : Fits ps) (hq : Fits qs) :
    (stream ps = stream qs ↔ ps = qs) ∧
      (stream ps <+: stream qs ∧ stream ps ≠ stream qs ↔ ps <+: qs ∧ ps ≠ qs) ∧
      (stream qs <+: stream ps ∧ stream qs ≠ stream ps ↔ qs <+: ps ∧ qs ≠ ps) ∧
      (digest ps = digest qs ↔ ps = qs ∨ Blake3.Collides (stream ps) (stream qs)) := by
  have hequal : stream ps = stream qs ↔ ps = qs := stream_inj hp hq
  have hproper {ps qs : List Bytes} (hp : Fits ps) (hq : Fits qs) :
      stream ps <+: stream qs ∧ stream ps ≠ stream qs ↔ ps <+: qs ∧ ps ≠ qs :=
    and_congr (isPrefix_stream_iff hp hq) (not_congr (stream_inj hp hq))
  exact ⟨hequal, hproper hp hq, hproper hq hp, digest_eq_iff hp hq⟩

/-- The one part of the second list holds what frames the second part of the first, so that their streams
differ in the first length only. The third list has an empty part more. -/
theorem parts_past_embedded_frame :
    let ps : List Bytes := [[97], [98]]
    let qs : List Bytes := [[97] ++ Bytes.ofUInt64 1 ++ [98]]
    let rs : List Bytes := [[97], [98], []]
    Fits ps ∧ Fits qs ∧ Fits rs ∧ stream ps ≠ stream qs ∧ ¬ stream ps <+: stream qs ∧
      stream ps <+: stream rs ∧ stream ps ≠ stream rs := by
  intro ps qs rs
  have hp : Fits ps := by decide +kernel
  have hq : Fits qs := by decide +kernel
  have hr : Fits rs := by decide +kernel
  obtain ⟨hequal, hproper, -, -⟩ := parts_of_stream hp hq
  have hdiffer : stream ps ≠ stream qs := fun h => absurd (hequal.mp h) (by decide +kernel)
  have hapart : ¬ stream ps <+: stream qs := fun h => absurd (hproper.mp ⟨h, hdiffer⟩).1 (by decide +kernel)
  exact ⟨hp, hq, hr, hdiffer, hapart, (parts_of_stream hp hr).2.1.mpr ⟨⟨[[]], rfl⟩, by decide +kernel⟩⟩

end Framed

end StakeLedger
