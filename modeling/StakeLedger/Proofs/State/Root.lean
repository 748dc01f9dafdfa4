import Mathlib.Data.List.Forall2
import StakeLedger.Proofs.Bytes.Utf8
import StakeLedger.Proofs.Digest.Framed
import StakeLedger.State.Basic

/-! What the root of a state commits to. Main statement: `root_commits_to_height_and_roster`. -/

namespace StakeLedger

namespace Validator

structure Matches (v w : Validator) : Prop where
  address : v.address = w.address
  publicKey : v.publicKey = w.publicKey
  stake : v.stake = w.stake

def rootParts (v : Validator) : List Bytes :=
  [Bytes.ofString v.address, v.publicKey, Bytes.ofInt64 v.stake]

theorem length_rootParts (v : Validator) : v.rootParts.length = 3 := rfl

theorem rootParts_inj {v w : Validator} : v.rootParts = w.rootParts ↔ v.Matches w := by
  simp only [rootParts, List.cons.injEq, and_true, Bytes.ofString_inj, Bytes.ofInt64_inj]
  exact ⟨fun ⟨ha, hk, hs⟩ => ⟨ha, hk, hs⟩, fun ⟨ha, hk, hs⟩ => ⟨ha, hk, hs⟩⟩

theorem flatMap_rootParts_inj {vs ws : Roster} :
    vs.flatMap rootParts = ws.flatMap rootParts ↔ List.Forall₂ Matches vs ws := by
  induction vs generalizing ws with
  | nil => cases ws <;> simp [rootParts]
  | cons v vs ih =>
    cases ws with
    | nil => simp [rootParts]
    | cons w ws =>
      rw [List.flatMap_cons, List.flatMap_cons, List.forall₂_cons, ← ih, ← rootParts_inj]
      refine ⟨fun h => ?_, fun ⟨hv, hvs⟩ => by rw [hv, hvs]⟩
      exact List.append_inj h (by rw [length_rootParts, length_rootParts])

end Validator

namespace State

structure Matches (s t : State) : Prop where
  height : s.height = t.height
  validators : List.Forall₂ Validator.Matches s.validators t.validators

variable {s t : State}

theorem rootParts_eq (s : State) :
    s.rootParts = Bytes.ofInt64 s.height :: s.validators.flatMap Validator.rootParts := rfl

theorem rootParts_inj : s.rootParts = t.rootParts ↔ s.Matches t := by
  rw [rootParts_eq, rootParts_eq, List.cons.injEq, Bytes.ofInt64_inj, Validator.flatMap_rootParts_inj]
  exact ⟨fun ⟨hh, hv⟩ => ⟨hh, hv⟩, fun ⟨hh, hv⟩ => ⟨hh, hv⟩⟩

theorem Matches.computeRoot_eq (h : s.Matches t) : s.computeRoot = t.computeRoot :=
  congrArg Framed.digest (rootParts_inj.mpr h)

/-- The bytes behind a root stand for one height and one roster, but for the names, and for nothing
else. So two roots are equal where height and roster are, and otherwise only by a collision. -/
theorem root_commits_to_height_and_roster (hs : Framed.Fits s.rootParts) (ht : Framed.Fits t.rootParts) :
    (Framed.stream s.rootParts = Framed.stream t.rootParts ↔ s.Matches t) ∧
      (s.computeRoot = t.computeRoot ↔
        s.Matches t ∨ Blake3.Collides (Framed.stream s.rootParts) (Framed.stream t.rootParts)) := by
  have hstream : Framed.stream s.rootParts = Framed.stream t.rootParts ↔ s.Matches t := by
    rw [Framed.stream_inj hs ht, rootParts_inj]
  refine ⟨hstream, fun h => ?_, ?_⟩
  · by_cases hm : s.Matches t
    · exact .inl hm
    · exact .inr ⟨fun he => hm (hstream.mp he), h⟩
  · rintro (h | h)
    · exact h.computeRoot_eq
    · exact h.2

/-- A byte that moves from the address to the key is seen, though the bytes in a row stay the same. -/
theorem stream_tells_shifted_byte :
    let s : State := ⟨none, "commit", 7, [], none, [⟨none, "ab", [99], 5⟩]⟩
    let t : State := ⟨none, "commit", 7, [], none, [⟨none, "a", [98, 99], 5⟩]⟩
    Framed.Fits s.rootParts ∧ Framed.Fits t.rootParts ∧ s.rootParts.flatten = t.rootParts.flatten ∧
      Framed.stream s.rootParts ≠ Framed.stream t.rootParts := by
  intro s t
  have hs : Framed.Fits s.rootParts := by decide +kernel
  have ht : Framed.Fits t.rootParts := by decide +kernel
  have hdiffer : ¬ s.Matches t := by
    intro h
    obtain ⟨hv, -⟩ := List.forall₂_cons.mp h.validators
    exact absurd hv.address (by decide)
  refine ⟨hs, ht, by decide +kernel, fun h => ?_⟩
  exact hdiffer ((root_commits_to_height_and_roster hs ht).1.mp h)

end State

end StakeLedger
