import Mathlib.Data.List.Basic
import Mathlib.Tactic.IntervalCases
import StakeLedger.Network.Address

/-!
A host and a port, joined by a colon and read again. Four octets are read as they were written, while
eight groups are not read without their brackets.

Main statements: `parse?_octets`, `parse?_groups`.
-/

namespace StakeLedger.Network

variable {base bound n : Nat} {width : Option Nat} {zeros : Bool} {c : Char} {cs rest : List Char}

/-! ### Numbers -/

theorem digit?_ten : digit? 10 c = if c.isDigit then some (c.toNat - 48) else none := by
  have hle : ∀ d : Char, d ≤ c ↔ d.toNat ≤ c.toNat := fun d => Iff.rfl
  have hlow : 'a' ≤ c → ¬ c.toNat - 87 < 10 := fun h => by have := (hle 'a').mp h; simp at this; omega
  have hup : 'A' ≤ c → ¬ c.toNat - 55 < 10 := fun h => by have := (hle 'A').mp h; simp at this; omega
  unfold digit?
  by_cases hc : c.isDigit = true
  · have hnine : c.toNat ≤ 57 := (Char.isDigit_iff_toNat.mp hc).2
    have hlt : c.toNat - 48 < 10 := by omega
    simp only [if_pos hc, if_pos hlt]
  · simp only [if_neg hc]
    split
    · next h => rw [if_neg (hlow h.1)]
    · split
      · next h => rw [if_neg (hup h.1)]
      · rw [if_neg (Nat.lt_irrefl 10)]

theorem isSome_digit?_ten : (digit? 10 c).isSome = c.isDigit := by
  rw [digit?_ten]
  cases c.isDigit <;> rfl

def Ends (cs : List Char) : Prop := ∀ c ∈ cs.head?, c.isDigit = false

theorem ends_nil : Ends [] := nofun

theorem ends_cons (hc : c.isDigit = false) : Ends (c :: cs) := by
  rintro d hd
  rw [List.head?_cons, Option.mem_some_iff] at hd
  exact hd ▸ hc

theorem takeWhile_toDigits (hrest : Ends rest) :
    (Nat.toDigits 10 n ++ rest).takeWhile (fun c => (digit? 10 c).isSome) = Nat.toDigits 10 n := by
  have hdigits : ∀ c ∈ Nat.toDigits 10 n, (digit? 10 c).isSome = true := fun c hc =>
    isSome_digit?_ten.trans (Nat.isDigit_of_mem_toDigits (by decide) (by decide) hc)
  have hstop : rest.takeWhile (fun c => (digit? 10 c).isSome) = [] := by
    cases rest with
    | nil => rfl
    | cons c cs =>
      have hc : (digit? 10 c).isSome = false := isSome_digit?_ten.trans (hrest c rfl)
      rw [List.takeWhile_cons, hc]
      rfl
  rw [List.takeWhile_append_of_pos hdigits, hstop, List.append_nil]

theorem foldl_toDigits :
    (Nat.toDigits 10 n).foldl (fun n c => 10 * n + (digit? 10 c).getD 0) 0 = n := by
  have hstep : ∀ m, ∀ c ∈ Nat.toDigits 10 n,
      10 * m + (digit? 10 c).getD 0 = 10 * m + (c.toNat - '0'.toNat) := by
    intro m c hc
    rw [digit?_ten, if_pos (Nat.isDigit_of_mem_toDigits (by decide) (by decide) hc)]
    rfl
  rw [List.foldl_ext _ _ _ hstep, ← Nat.ofDigitChars_eq_foldl, Nat.ofDigitChars_ten_toDigits]

/-- Only zero begins with a zero. -/
theorem eq_zero_of_head?_toDigits (h : (Nat.toDigits 10 n).head? = some '0') : n = 0 := by
  induction n using Nat.strongRecOn with
  | ind n ih =>
    by_cases hlt : n < 10
    · rw [Nat.toDigits_of_lt_base hlt, List.head?_cons, Option.some.injEq] at h
      interval_cases n <;> first | rfl | exact absurd h (by decide)
    · rw [Nat.toDigits_of_base_le (by decide) (Nat.le_of_not_lt hlt),
        List.head?_append_of_ne_nil _ Nat.toDigits_ne_nil] at h
      have := ih (n / 10) (by omega) h
      omega

theorem readNumber_toDigits (hn : n < bound) (hwidth : ∀ w ∈ width, 0 < w ∧ n < 10 ^ w) (hrest : Ends rest) :
    readNumber 10 bound width zeros (Nat.toDigits 10 n ++ rest) = some (n, rest) := by
  have hlong : ¬ (width.any (· < (Nat.toDigits 10 n).length)) = true := by
    rw [Option.any_eq_true]
    rintro ⟨w, hw, hlt⟩
    have hle := (Nat.length_toDigits_le_iff (b := 10) (by decide) (hwidth w hw).1).mpr (hwidth w hw).2
    exact Nat.not_lt.mpr hle (of_decide_eq_true hlt)
  have hzero : (Nat.toDigits 10 n).head? = some '0' → ¬ 1 < (Nat.toDigits 10 n).length := by
    intro h
    rw [eq_zero_of_head?_toDigits h]
    decide
  have hempty : (Nat.toDigits 10 n).isEmpty = false := by
    rw [List.isEmpty_eq_false_iff]
    exact Nat.toDigits_ne_nil
  unfold readNumber
  simp only [takeWhile_toDigits hrest, foldl_toDigits, hempty]
  rw [if_neg (by simpa using ⟨by simpa using hlong, hn⟩), if_neg fun h => hzero h.2.1 h.2.2,
    List.drop_left]

theorem readNumber_eq_some (h : readNumber base bound width zeros cs = some (n, rest)) :
    n < bound ∧ rest <:+ cs ∧ ∃ c ∈ cs.head?, (digit? base c).isSome := by
  simp only [readNumber] at h
  split at h
  · cases h
  · next hbad =>
    obtain ⟨hempty, -, hbound⟩ : _ ∧ _ ∧ _ := by simpa only [not_or] using hbad
    split at h
    · cases h
    · obtain ⟨rfl, rfl⟩ := Prod.mk.inj (Option.some.inj h)
      refine ⟨Nat.lt_of_not_le hbound, List.drop_suffix _ _, ?_⟩
      cases cs with
      | nil => exact absurd rfl hempty
      | cons c cs =>
        refine ⟨c, rfl, ?_⟩
        by_contra hc
        rw [List.takeWhile_cons, if_neg hc] at hempty
        exact hempty rfl

/-! ### Four octets -/

theorem readChar_eq_some : readChar c cs = some rest ↔ cs = c :: rest := by
  cases cs with
  | nil => exact ⟨nofun, nofun⟩
  | cons d ds =>
    simp only [readChar]
    split
    · next h => rw [h, Option.some.injEq, List.cons.injEq, and_iff_right rfl]
    · next h => exact ⟨nofun, fun heq => absurd (List.cons.inj heq).1.symm h⟩

theorem readOctet_toDigits (hn : n < 256) (hrest : Ends rest) :
    readOctet (Nat.toDigits 10 n ++ rest) = some (n, rest) :=
  readNumber_toDigits hn (fun w hw => by cases hw; exact ⟨by decide, by omega⟩) hrest

theorem readPort_toDigits (hn : n < 65536) (hrest : Ends rest) :
    readPort (':' :: (Nat.toDigits 10 n ++ rest)) = some (n, rest) :=
  readNumber_toDigits hn nofun hrest

inductive IsOctets : List Nat → Prop
  | intro {a b c d : Nat} (ha : a < 256) (hb : b < 256) (hc : c < 256) (hd : d < 256) : IsOctets [a, b, c, d]

theorem readV4_octetsText {os : List Nat} (hos : IsOctets os) (hrest : Ends rest) :
    readV4 ((octetsText os).toList ++ rest) = some (os, rest) := by
  obtain ⟨ha, hb, hc, hd⟩ := hos
  next a b c d =>
  have hdot : ∀ cs, Ends ('.' :: cs) := fun cs => ends_cons (by decide)
  have htext : (octetsText [a, b, c, d]).toList ++ rest = Nat.toDigits 10 a ++ '.' :: (Nat.toDigits 10 b ++
      '.' :: (Nat.toDigits 10 c ++ '.' :: (Nat.toDigits 10 d ++ rest))) := by
    simp [octetsText, Nat.toList_repr]
  have hdotted : ∀ {n} (cs), n < 256 →
      (readChar '.' ('.' :: (Nat.toDigits 10 n ++ '.' :: cs))).bind readOctet = some (n, '.' :: cs) :=
    fun cs hn => readOctet_toDigits hn (hdot cs)
  have hlast : (readChar '.' ('.' :: (Nat.toDigits 10 d ++ rest))).bind readOctet = some (d, rest) :=
    readOctet_toDigits hd hrest
  rw [htext, readV4, readOctet_toDigits ha (hdot _)]
  simp only [Option.bind_eq_bind, Option.bind_some, hdotted _ hb, hdotted _ hc, hlast]

theorem readV4_eq_some {os : List Nat} (h : readV4 cs = some (os, rest)) :
    IsOctets os ∧ '.' ∈ cs ∧ ∃ c ∈ cs.head?, c.isDigit := by
  simp only [readV4, Option.bind_eq_bind, Option.bind_eq_some_iff, Prod.exists, readChar_eq_some,
    Option.some.injEq, Prod.mk.injEq] at h
  obtain ⟨a, _, ha, b, _, ⟨_, rfl, hb⟩, c, _, ⟨_, rfl, hc⟩, d, _, ⟨_, rfl, hd⟩, rfl, -⟩ := h
  obtain ⟨ha, hsuffix, c', hhead, hdigit⟩ := readNumber_eq_some ha
  exact ⟨.intro ha (readNumber_eq_some hb).1 (readNumber_eq_some hc).1 (readNumber_eq_some hd).1,
    hsuffix.subset List.mem_cons_self, c', hhead, isSome_digit?_ten ▸ hdigit⟩

/-! ### Addresses -/

variable {text : String} {a : Address}

theorem readAddress_octets {os : List Nat} (hos : IsOctets os) (hn : n < 65536) :
    readAddress ((octetsText os).toList ++ ':' :: Nat.toDigits 10 n) = some (⟨.v4 os, 0, n⟩, []) := by
  have hport : readPort (':' :: Nat.toDigits 10 n) = some (n, []) := by
    rw [← List.append_nil (Nat.toDigits 10 n)]
    exact readPort_toDigits hn ends_nil
  have hcolon : Ends (':' :: Nat.toDigits 10 n) := ends_cons (by decide)
  simp only [readAddress, readV4_octetsText hos hcolon, Option.bind_some, hport, Option.map_some]

theorem parse?_octets {os : List Nat} (hos : IsOctets os) (hn : n < 65536) :
    Address.parse? ((Host.v4 os).text ++ ":" ++ toString n) = some ⟨.v4 os, 0, n⟩ := by
  have htext : ((Host.v4 os).text ++ ":" ++ toString n).toList =
      (octetsText os).toList ++ ':' :: Nat.toDigits 10 n := by
    simp [Host.text, Nat.toList_repr]
  rw [Address.parse?, htext, readAddress_octets hos hn]

theorem parse?_cases (h : Address.parse? text = some a) :
    a.port < 65536 ∧ ((∃ os, IsOctets os ∧ a.host = .v4 os ∧ a.scope = 0) ∨ ∃ groups, a.host = .v6 groups) := by
  have hread : readAddress text.toList = some (a, []) := by
    unfold Address.parse? at h
    split at h
    · next hread => rw [hread, Option.some.inj h]
    · cases h
  unfold readAddress at hread
  split at hread
  · next hv4 =>
    simp only [Option.bind_eq_some_iff, Option.map_eq_some_iff, Prod.exists] at hv4
    obtain ⟨os, _, hos, port, _, hport, rfl⟩ := hv4
    obtain ⟨rfl, -⟩ := Prod.mk.inj (Option.some.inj hread)
    obtain ⟨_, -, hport⟩ := Option.bind_eq_some_iff.mp hport
    exact ⟨(readNumber_eq_some hport).1, .inl ⟨os, (readV4_eq_some hos).1, rfl, rfl⟩⟩
  · simp only [Option.bind_eq_bind, Option.bind_eq_some_iff, Prod.exists, Option.some.injEq, Prod.mk.injEq] at hread
    obtain ⟨groups, _, -, port, _, ⟨_, -, hport⟩, rfl, -⟩ := hread
    obtain ⟨_, -, hport⟩ := Option.bind_eq_some_iff.mp hport
    exact ⟨(readNumber_eq_some hport).1, .inr ⟨groups, rfl⟩⟩

theorem parse?_eq_none (hopen : text.toList.head? ≠ some '[')
    (hoctets : '.' ∉ text.toList ∨ ∀ c ∈ text.toList.head?, c.isDigit = false) : Address.parse? text = none := by
  have hv4 : readV4 text.toList = none := by
    rw [Option.eq_none_iff_forall_ne_some]
    rintro ⟨os, rest⟩ h
    obtain ⟨-, hdot, c, hc, hdigit⟩ := readV4_eq_some h
    rcases hoctets with hdots | hfront
    · exact hdots hdot
    · exact Bool.false_ne_true ((hfront c hc).symm.trans hdigit)
  have hv6 : readChar '[' text.toList = none := by
    rw [Option.eq_none_iff_forall_ne_some]
    intro rest h
    exact hopen (by rw [readChar_eq_some.mp h]; rfl)
  rw [Address.parse?, readAddress, hv4, hv6]
  rfl

/-! ### Eight groups -/

def IsGroupChar (c : Char) : Prop := c ≠ '.' ∧ c ≠ '['

theorem isGroupChar_of_mem_toDigits (hbase : 1 < base ∧ base ≤ 16) (hc : c ∈ Nat.toDigits base n) :
    IsGroupChar c := by
  have hdigit : ∀ d < 16, IsGroupChar d.digitChar := by unfold IsGroupChar; decide
  induction n using Nat.strongRecOn with
  | ind n ih =>
    by_cases hlt : n < base
    · rw [Nat.toDigits_of_lt_base hlt, List.mem_singleton] at hc
      exact hc ▸ hdigit n (by omega)
    · rw [Nat.toDigits_of_base_le hbase.1 (Nat.le_of_not_lt hlt), List.mem_append, List.mem_singleton] at hc
      rcases hc with hc | rfl
      · exact ih (n / base) (Nat.div_lt_self (by omega) hbase.1) hc
      · exact hdigit _ ((Nat.mod_lt _ (by omega)).trans_le hbase.2)

theorem mem_intercalate {sep : String} {texts : List String} (hc : c ∈ (sep.intercalate texts).toList) :
    c ∈ sep.toList ∨ ∃ t ∈ texts, c ∈ t.toList := by
  induction texts with
  | nil => cases hc
  | cons t texts ih =>
    cases texts with
    | nil =>
      rw [String.intercalate_singleton] at hc
      exact .inr ⟨t, List.mem_cons_self, hc⟩
    | cons u texts =>
      rw [String.intercalate_cons_cons, String.toList_append, String.toList_append, List.mem_append,
        List.mem_append] at hc
      rcases hc with (hc | hc) | hc
      · exact .inr ⟨t, List.mem_cons_self, hc⟩
      · exact .inl hc
      · exact (ih hc).imp_right fun ⟨v, hv, hcv⟩ => ⟨v, List.mem_cons_of_mem t hv, hcv⟩

theorem isGroupChar_colon : IsGroupChar ':' := ⟨by decide, by decide⟩

theorem isGroupChar_of_mem_groupsText {groups : List Nat} (hc : c ∈ (groupsText groups).toList) :
    IsGroupChar c := by
  rcases mem_intercalate hc with hc | ⟨t, ht, hc⟩
  · exact List.mem_singleton.mp hc ▸ isGroupChar_colon
  · obtain ⟨g, -, rfl⟩ := List.mem_map.mp ht
    rw [hexText, String.toList_ofList] at hc
    exact isGroupChar_of_mem_toDigits (by decide) hc

theorem text_groups (groups : List Nat) : (Host.v6 groups).text.toList.head? = some ':' ∨
    ∀ c ∈ (Host.v6 groups).text.toList, IsGroupChar c := by
  simp only [Host.text]
  split
  · left
    rw [String.toList_append]
    rfl
  · right
    intro c hc
    split at hc
    · rw [String.toList_append, String.toList_append, List.mem_append, List.mem_append] at hc
      rcases hc with (hc | hc) | hc
      · exact isGroupChar_of_mem_groupsText hc
      · exact List.eq_of_mem_replicate (n := 2) hc ▸ isGroupChar_colon
      · exact isGroupChar_of_mem_groupsText hc
    · exact isGroupChar_of_mem_groupsText hc

theorem parse?_groups (groups : List Nat) :
    Address.parse? ((Host.v6 groups).text ++ ":" ++ toString n) = none := by
  have htext : ((Host.v6 groups).text ++ ":" ++ toString n).toList =
      (Host.v6 groups).text.toList ++ ':' :: Nat.toDigits 10 n := by
    simp [Nat.toList_repr]
  rcases text_groups groups with hcolon | hgroups
  · have hhead : ((Host.v6 groups).text ++ ":" ++ toString n).toList.head? = some ':' := by
      rw [htext, List.head?_append, hcolon]
      rfl
    refine parse?_eq_none (by rw [hhead]; decide) (.inr fun c hc => ?_)
    rw [hhead, Option.mem_some_iff] at hc
    exact hc ▸ by decide
  · have hall : ∀ c ∈ ((Host.v6 groups).text ++ ":" ++ toString n).toList, IsGroupChar c := by
      intro c hc
      rw [htext, List.mem_append, List.mem_cons] at hc
      rcases hc with hc | rfl | hc
      · exact hgroups c hc
      · exact isGroupChar_colon
      · exact isGroupChar_of_mem_toDigits (by decide) hc
    exact parse?_eq_none (fun h => (hall _ (List.mem_of_mem_head? h)).2 rfl) (.inl fun h => (hall _ h).1 rfl)

end StakeLedger.Network
