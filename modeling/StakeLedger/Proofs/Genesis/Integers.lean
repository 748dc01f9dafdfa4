import StakeLedger.Genesis.Load
import StakeLedger.Proofs.Json.Agreement
import StakeLedger.Proofs.Json.Hole
import StakeLedger.Proofs.Number.Decimal
import StakeLedger.Proofs.Text.Blank

namespace StakeLedger

namespace Decimal

open Text

variable {cs : List Char} {n : Int}

theorem not_isBlank_of_isDigit {c : Char} (h : c.isDigit = true) : isBlank c = false := by
  obtain ⟨hlow, hhigh⟩ := Char.isDigit_iff_toNat.mp h
  change 48 ≤ c.toNat at hlow
  change c.toNat ≤ 57 at hhigh
  simp [isBlank, blankRanges]
  omega

theorem Digits.getLast? (h : Digits cs) : ∀ c ∈ cs.getLast?, isBlank c = false := fun c hc =>
  not_isBlank_of_isDigit (h.digit c (List.mem_of_getLast? hc))

theorem Numeral.trimmed {text before after : List Char} (h : Numeral cs n) (htext : text = before ++ cs ++ after)
    (hblank : ∀ c ∈ before ++ after, isBlank c) : Trimmed text cs := by
  have hlast : ∀ {sign : Char} {digits : List Char}, Digits digits →
      ∀ c ∈ (sign :: digits).getLast?, isBlank c = false := by
    intro sign digits hd c hc
    rw [List.getLast?_cons_of_ne_nil hd.nonempty] at hc
    exact hd.getLast? c hc
  refine ⟨⟨before, after, htext, hblank⟩, ?_, ?_⟩
  · cases h with
    | plain hd => exact fun c hc => not_isBlank_of_isDigit (hd.digit c (List.mem_of_head? hc))
    | plus hd => exact fun c hc => Option.mem_some_iff.mp hc ▸ rfl
    | minus hd => exact fun c hc => Option.mem_some_iff.mp hc ▸ rfl
  · cases h with
    | plain hd => exact hd.getLast?
    | plus hd => exact hlast hd
    | minus hd => exact hlast hd

end Decimal

namespace Genesis

open Json Decimal

inductive Denotes : Tree → Int64 → Prop
  | number {n : Int64} (bounded : -0x8000000000000000 ≤ n.toInt ∧ n.toInt < 0x10000000000000000) :
    Denotes (.number (some (.whole n.toInt bounded))) n
  | text {s : String} {before numeral after : List Char} {n : Int64} : s.toList = before ++ numeral ++ after →
    (∀ c ∈ before ++ after, Text.isBlank c) → Numeral numeral n.toInt → Denotes (.text (some s)) n

theorem bounded_toInt (n : Int64) : -0x8000000000000000 ≤ n.toInt ∧ n.toInt < 0x10000000000000000 :=
  ⟨Int64.le_toInt n, Int.lt_trans (Int64.toInt_lt n) (by decide)⟩

theorem int64?_eq_some_iff {m : Int} {n : Int64} : Codec.int64? m = some n ↔ m = n.toInt := by
  constructor
  · intro h
    rw [Codec.int64?] at h
    split at h
    · next hm =>
      cases h
      exact (Int64.toInt_ofInt_of_le hm.1 (by omega)).symm
    · cases h
  · rintro rfl
    exact Codec.int64?_toInt n

theorem integerOfText?_eq_some_iff {s : String} {n : Int64} :
    integerOfText? s = some n ↔ Numeral (Text.trimBlanks s.toList) n.toInt := by
  have hparse : ∀ m, Decimal.parse Decimal.int64 (Text.trimBlanks s.toList) = .ok m ↔
      Numeral (Text.trimBlanks s.toList) m ∧ Decimal.int64.Holds m := fun m => parse_eq_ok_iff (by decide) (by decide)
  have hn : Decimal.int64.Holds n.toInt := ⟨Int64.le_toInt n, Int.le_of_lt_add_one (Int64.toInt_lt n)⟩
  rw [integerOfText?]
  constructor
  · intro h
    split at h
    · next m hm =>
      cases h
      obtain ⟨hnumeral, hlow, hhigh⟩ := (hparse m).mp hm
      rwa [Int64.toInt_ofInt_of_le hlow (by change m ≤ 0x8000000000000000 - 1 at hhigh; omega)]
    · cases h
  · intro h
    rw [(hparse _).mpr ⟨h, hn⟩]
    exact congrArg some (Int64.ofInt_toInt n)

theorem read_integer_iff {room : Nat} {t : Tree} {n : Int64} : integer.read room t = .ok n ↔ Denotes t n := by
  have hread : integer.read room t = .ok n ↔ ∃ x, Opaque.read room t = .ok x ∧ integerOfValue? x.value = some n := by
    change (Opaque.read room t >>= _) = _ ↔ _
    rw [bind_eq_ok]
    refine exists_congr fun x => and_congr_right fun _ => ?_
    cases integerOfValue? x.value with
    | none => exact ⟨nofun, nofun⟩
    | some m => exact ⟨fun h => congrArg some (Except.ok.inj h), fun h => congrArg Except.ok (Option.some.inj h)⟩
  rw [hread]
  constructor
  · rintro ⟨⟨value, canonical⟩, hx, hn⟩
    have hstands := stands_of_value (Opaque.value_of_read hx)
    dsimp only at hstands hn
    cases hstands with
    | @number m =>
      cases m with
      | whole m hm =>
        obtain rfl := int64?_eq_some_iff.mp hn
        exact .number hm
      | double x => cases hn
    | @text s =>
      have hnumeral := integerOfText?_eq_some_iff.mp hn
      obtain ⟨before, after, htext, hblank⟩ := (Text.trimmed_trimBlanks s.toList).around
      exact .text htext hblank hnumeral
    | _ => cases hn
  · intro h
    cases h with
    | number bounded =>
      exact ⟨⟨.number _, rfl⟩, Opaque.read_of_value rfl, int64?_eq_some_iff.mpr rfl⟩
    | text htext hblank hnumeral =>
      have htrimmed := (hnumeral.trimmed htext hblank).trimBlanks_eq
      exact ⟨⟨.text _, rfl⟩, Opaque.read_of_value rfl, integerOfText?_eq_some_iff.mpr (htrimmed.symm ▸ hnumeral)⟩

theorem denotes_of_read {α : Type} {c : Codec α} {k : Tree → Tree} {u : Tree} {x : α} {room : Nat}
    (h : Hole integer c k) (hread : c.read room (k u) = .ok x) :
    ∃ n, Denotes u n ∧ ∀ v, Denotes v n → c.read room (k v) = .ok x := by
  obtain ⟨inner, n, hn, hother⟩ := h.read hread
  exact ⟨n, read_integer_iff.mp hn, fun v hv => hother v (read_integer_iff.mpr hv)⟩

end Genesis

end StakeLedger
