import Mathlib.Tactic.IntervalCases
import StakeLedger.Bytes.Utf8

namespace StakeLedger.Utf8

variable {a m code missing : Nat} {low high : UInt8} {out : List (Option Char)}

theorem start_of_first? {b : UInt8} {p : Partial} (hb : ¬ b < 0x80) (h : first? b = some p) :
    Reader.step ⟨none, out⟩ b = ⟨some p, out⟩ := by
  change start out b = _
  rw [start, if_neg hb, h]

theorem start_two (h2 : 2 ≤ a) (h : a < 0x20) :
    Reader.step ⟨none, out⟩ (UInt8.ofNat (a + 0xC0)) = ⟨some ⟨a, 1, 0x80, 0xBF⟩, out⟩ := by
  interval_cases a <;> exact start_of_first? (by decide) rfl

theorem start_three (h : a < 0x10) :
    Reader.step ⟨none, out⟩ (UInt8.ofNat (a + 0xE0)) =
      ⟨some ⟨a, 2, if a = 0 then 0xA0 else 0x80, if a = 13 then 0x9F else 0xBF⟩, out⟩ := by
  interval_cases a <;> exact start_of_first? (by decide) rfl

theorem start_four (h : a < 5) :
    Reader.step ⟨none, out⟩ (UInt8.ofNat (a + 0xF0)) =
      ⟨some ⟨a, 3, if a = 0 then 0x90 else 0x80, if a = 4 then 0x8F else 0xBF⟩, out⟩ := by
  interval_cases a <;> exact start_of_first? (by decide) rfl

theorem toNat_tail (hm : m < 0x40) : (UInt8.ofNat (m + 0x80)).toNat = m + 0x80 :=
  UInt8.toNat_ofNat_of_lt' (by simp only [UInt8.size]; omega)

theorem step_tail (hm : m < 0x40) (hl : low.toNat ≤ m + 0x80) (hh : m + 0x80 ≤ high.toNat) :
    Reader.step ⟨some ⟨code, missing, low, high⟩, out⟩ (UInt8.ofNat (m + 0x80)) =
      if missing ≤ 1 then ⟨none, some (Char.ofNat (code * 0x40 + m)) :: out⟩
      else ⟨some ⟨code * 0x40 + m, missing - 1, 0x80, 0xBF⟩, out⟩ := by
  have hb := toNat_tail hm
  have hmod : (m + 0x80) % 0x40 = m := by omega
  dsimp only [Reader.step]
  rw [if_pos ⟨by rwa [UInt8.le_iff_toNat_le, hb], by rwa [UInt8.le_iff_toNat_le, hb]⟩, hb, hmod]

theorem step_tail_plain (hm : m < 0x40) :
    Reader.step ⟨some ⟨code, missing, 0x80, 0xBF⟩, out⟩ (UInt8.ofNat (m + 0x80)) =
      if missing ≤ 1 then ⟨none, some (Char.ofNat (code * 0x40 + m)) :: out⟩
      else ⟨some ⟨code * 0x40 + m, missing - 1, 0x80, 0xBF⟩, out⟩ :=
  step_tail hm (Nat.le_add_left _ _) (by change m + 0x80 ≤ 0xBF; omega)

theorem run_encodeChar (c : Char) :
    (String.utf8EncodeChar c).foldl Reader.step ⟨none, out⟩ = ⟨none, some c :: out⟩ := by
  have hc : Char.ofNat c.val.toNat = c := Char.ofNat_toNat c
  have hvalid : c.val.toNat < 0xD800 ∨ 0xDFFF < c.val.toNat ∧ c.val.toNat < 0x110000 := c.valid
  unfold String.utf8EncodeChar
  generalize c.val.toNat = v at hc hvalid
  dsimp only
  split
  · next h1 =>
    have hv : (UInt8.ofNat v).toNat = v := UInt8.toNat_ofNat_of_lt' (by simp only [UInt8.size]; omega)
    change start out (UInt8.ofNat v) = _
    rw [start, if_pos (by rw [UInt8.lt_iff_toNat_lt, hv]; change v < 128; omega), hv, hc]
  · split
    · next h2 =>
      have hv : v / 64 * 64 + v % 64 = v := by omega
      rw [Nat.mod_eq_of_lt (by omega : v / 64 < 32), List.foldl_cons, List.foldl_cons, List.foldl_nil,
        start_two (by omega) (by omega), step_tail_plain (by omega), if_pos (Nat.le_refl 1), hv, hc]
    · split
      · next h3 =>
        have hv : (v / 4096 * 64 + v / 64 % 64) * 64 + v % 64 = v := by omega
        rw [Nat.mod_eq_of_lt (by omega : v / 4096 < 16), List.foldl_cons, List.foldl_cons,
          List.foldl_cons, List.foldl_nil, start_three (by omega), step_tail (by omega), if_neg (by omega),
          step_tail_plain (by omega), if_pos (by omega), hv, hc]
        · split
          · change 0xA0 ≤ _
            omega
          · exact Nat.le_add_left _ _
        · split
          · change _ ≤ 0x9F
            omega
          · change _ ≤ 0xBF
            omega
      · next h3 =>
        have hv : ((v / 262144 * 64 + v / 4096 % 64) * 64 + v / 64 % 64) * 64 + v % 64 = v := by omega
        rw [Nat.mod_eq_of_lt (by omega : v / 262144 < 8), List.foldl_cons, List.foldl_cons,
          List.foldl_cons, List.foldl_cons, List.foldl_nil, start_four (by omega), step_tail (by omega),
          if_neg (by omega), step_tail_plain (by omega), if_neg (by omega), step_tail_plain (by omega),
          if_pos (by omega), hv, hc]
        · split
          · change 0x90 ≤ _
            omega
          · exact Nat.le_add_left _ _
        · split
          · change _ ≤ 0x8F
            omega
          · change _ ≤ 0xBF
            omega

theorem encodeChar_of_lt {c : Char} (h : c.toNat < 0x80) : String.utf8EncodeChar c = [UInt8.ofNat c.toNat] :=
  if_pos (Nat.le_of_lt_succ h)

theorem tail_mem_encodeChar {c : Char} (h : ¬ c.toNat < 0x80) :
    UInt8.ofNat (c.toNat % 0x40 + 0x80) ∈ String.utf8EncodeChar c := by
  have hascii : ¬ c.val.toNat ≤ 0x7F := fun hle => h (Nat.lt_succ_of_le hle)
  unfold String.utf8EncodeChar
  dsimp only
  rw [if_neg hascii]
  split
  · exact List.mem_of_getElem? (i := 1) rfl
  · split
    · exact List.mem_of_getElem? (i := 2) rfl
    · exact List.mem_of_getElem? (i := 3) rfl

theorem run_ofString (cs : List Char) :
    (cs.flatMap String.utf8EncodeChar).foldl Reader.step ⟨none, out⟩ =
      ⟨none, (cs.map some).reverse ++ out⟩ := by
  induction cs generalizing out with
  | nil => rfl
  | cons c cs ih => simp [run_encodeChar, ih]

theorem decode_ofString (s : String) : decode (Bytes.ofString s) = s.toList.map some := by
  rw [decode, Bytes.ofString, run_ofString, Reader.finish, List.append_nil, List.reverse_reverse]

/-! ### Texts in parts -/

def Adds (begun : Option Partial) (new : List (Option Char)) : Prop :=
  (∀ x ∈ new, x = none) ∨ ∃ c breaks, new = some c :: breaks ∧ (∀ x ∈ breaks, x = none) ∧ begun = none

theorem start_cases {breaks : List (Option Char)} (h : ∀ x ∈ breaks, x = none) (b : UInt8) :
    ∃ begun new, (∀ out, start (breaks ++ out) b = ⟨begun, new ++ out⟩) ∧ Adds begun new := by
  by_cases hb : b < 0x80
  · refine ⟨none, some (Char.ofNat b.toNat) :: breaks, fun out => ?_, .inr ⟨_, breaks, rfl, h, rfl⟩⟩
    rw [start, if_pos hb]
    rfl
  · cases hfirst : first? b with
    | some p =>
      refine ⟨some p, breaks, fun out => ?_, .inl h⟩
      rw [start, if_neg hb, hfirst]
    | none =>
      refine ⟨none, none :: breaks, fun out => ?_, .inl (List.forall_mem_cons.mpr ⟨rfl, h⟩)⟩
      rw [start, if_neg hb, hfirst]
      rfl

theorem step_cases (begun : Option Partial) (b : UInt8) :
    ∃ begun' new, (∀ out, Reader.step ⟨begun, out⟩ b = ⟨begun', new ++ out⟩) ∧ Adds begun' new := by
  cases begun with
  | none => exact start_cases (List.forall_mem_nil _) b
  | some p =>
    by_cases hb : p.low ≤ b ∧ b ≤ p.high
    · by_cases hmissing : p.missing ≤ 1
      · refine ⟨none, [some (Char.ofNat (p.code * 64 + b.toNat % 64))], fun out => ?_,
          .inr ⟨_, [], rfl, List.forall_mem_nil _, rfl⟩⟩
        simp only [Reader.step, if_pos hb, if_pos hmissing]
        rfl
      · refine ⟨some ⟨p.code * 64 + b.toNat % 64, p.missing - 1, 0x80, 0xBF⟩, [], fun out => ?_,
          .inl (List.forall_mem_nil _)⟩
        simp only [Reader.step, if_pos hb, if_neg hmissing]
        rfl
    · -- the byte breaks off what was begun, and may begin another
      obtain ⟨begun', new, hnew, hadds⟩ := start_cases (List.forall_mem_singleton.mpr rfl) b
      refine ⟨begun', new, fun out => ?_, hadds⟩
      rw [← hnew]
      exact if_neg hb

theorem Adds.eq_reverse {begun : Option Partial} {new cs ds : List (Option Char)} {c : Char} (hadds : Adds begun new)
    (h : new.reverse = cs ++ some c :: ds) : ds = [] ∧ new = some c :: cs.reverse ∧ begun = none := by
  have hmem : some c ∈ new := List.mem_reverse.mp (h ▸ List.mem_append_right _ List.mem_cons_self)
  rcases hadds with hnone | ⟨d, breaks, rfl, hbreaks, hbegun⟩
  · cases hnone _ hmem
  · rw [List.reverse_cons] at h
    rcases List.eq_nil_or_concat ds with rfl | ⟨ds, x, rfl⟩
    · obtain ⟨hcs, hc⟩ := List.append_inj' h rfl
      exact ⟨rfl, by rw [(List.cons.inj hc).1, ← hcs, List.reverse_reverse], hbegun⟩
    · rw [List.concat_eq_append, ← List.cons_append, ← List.append_assoc] at h
      obtain ⟨hrest, -⟩ := List.append_inj' h rfl
      have hbreak : some c ∈ breaks :=
        List.mem_reverse.mp (hrest ▸ List.mem_append_right _ List.mem_cons_self)
      cases hbreaks _ hbreak

def run (r : Reader) (bs : Bytes) : Reader := bs.foldl Reader.step r

theorem run_append {r : Reader} {bs cs : Bytes} : run r (bs ++ cs) = run (run r bs) cs := List.foldl_append

theorem finish_run (begun : Option Partial) (bs : Bytes) :
    ∃ cs, ∀ out, (run ⟨begun, out⟩ bs).finish = out.reverse ++ cs := by
  induction bs generalizing begun with
  | nil =>
    cases begun with
    | none => exact ⟨[], fun out => (List.append_nil _).symm⟩
    | some p => exact ⟨[none], fun out => List.reverse_cons⟩
  | cons b bs ih =>
    obtain ⟨begun', new, hstep, -⟩ := step_cases begun b
    obtain ⟨cs, hcs⟩ := ih begun'
    refine ⟨new.reverse ++ cs, fun out => ?_⟩
    change (run (Reader.step ⟨begun, out⟩ b) bs).finish = _
    rw [hstep, hcs, List.reverse_append, List.append_assoc]

theorem finish_run_none (bs : Bytes) (out : List (Option Char)) :
    (run ⟨none, out⟩ bs).finish = out.reverse ++ decode bs := by
  obtain ⟨cs, hcs⟩ := finish_run none bs
  have hdecode : decode bs = cs := hcs []
  rw [hcs, hdecode]

theorem run_of_getLast? {bs : Bytes} (h : none ∉ (decode bs).getLast?) :
    run ⟨none, []⟩ bs = ⟨none, (decode bs).reverse⟩ := by
  change none ∉ ((run ⟨none, []⟩ bs).finish).getLast? at h
  change _ = Reader.mk none ((run ⟨none, []⟩ bs).finish).reverse
  generalize run ⟨none, []⟩ bs = r at h
  obtain ⟨begun, out⟩ := r
  cases begun with
  | none => exact congrArg (Reader.mk none) (List.reverse_reverse out).symm
  | some p =>
    refine absurd ?_ h
    rw [Reader.finish, List.getLast?_reverse]
    rfl

theorem decode_append {bs cs : Bytes} (h : none ∉ (decode bs).getLast?) :
    decode (bs ++ cs) = decode bs ++ decode cs := by
  change (run ⟨none, []⟩ (bs ++ cs)).finish = _
  rw [run_append, run_of_getLast? h, finish_run_none, List.reverse_reverse]

theorem exists_read {begun : Option Partial} {bs : Bytes} {cs ds : List (Option Char)} {c : Char}
    (h : (run ⟨begun, out⟩ bs).finish = out.reverse ++ (cs ++ some c :: ds)) :
    ∃ before after, bs = before ++ after ∧ run ⟨begun, out⟩ before = ⟨none, some c :: cs.reverse ++ out⟩ ∧
      decode after = ds := by
  induction bs generalizing begun out cs with
  | nil =>
    cases begun with
    | none =>
      have hrest : [] = cs ++ some c :: ds := List.append_cancel_left ((List.append_nil _).trans h)
      cases cs <;> cases hrest
    | some p =>
      have hrest : [none] = cs ++ some c :: ds := List.append_cancel_left (List.reverse_cons.symm.trans h)
      cases cs with
      | nil => cases hrest
      | cons x cs => cases cs <;> cases hrest
  | cons b bs ih =>
    obtain ⟨begun', new, hstep, hadds⟩ := step_cases begun b
    obtain ⟨later, hlater⟩ := finish_run begun' bs
    have hrun : ∀ cs, run ⟨begun, out⟩ (b :: cs) = run ⟨begun', new ++ out⟩ cs := fun cs =>
      congrArg (run · cs) (hstep out)
    have hfurther : ∀ {cs'}, cs = new.reverse ++ cs' → later = cs' ++ some c :: ds →
        ∃ before after, b :: bs = before ++ after ∧ run ⟨begun, out⟩ before = ⟨none, some c :: cs.reverse ++ out⟩ ∧
          decode after = ds := by
      rintro cs' rfl rfl
      obtain ⟨before, after, rfl, hbefore, hafter⟩ := ih (hlater (new ++ out))
      refine ⟨b :: before, after, rfl, ?_, hafter⟩
      rw [hrun, hbefore, List.reverse_append, List.reverse_reverse, List.cons_append, List.cons_append,
        List.append_assoc]
    rw [hrun, hlater, List.reverse_append, List.append_assoc] at h
    -- the character comes of a later byte, or of this one and is the last that does
    rcases List.append_eq_append_iff.mp (List.append_cancel_left h) with ⟨cs', hcs, hrest⟩ | ⟨ds', hnews, hrest⟩
    · exact hfurther hcs hrest
    · cases ds' with
      | nil => exact hfurther ((List.append_nil _).symm.trans hnews.symm |>.trans (List.append_nil _).symm) hrest.symm
      | cons x ds' =>
        cases hrest
        obtain ⟨hlast, rfl, rfl⟩ := hadds.eq_reverse hnews
        subst hlast
        refine ⟨[b], bs, rfl, hrun [], ?_⟩
        have hdecode := finish_run_none bs (some c :: cs.reverse ++ out)
        rw [hlater] at hdecode
        exact (List.append_cancel_left hdecode).symm

theorem decode_eq_append {bs : Bytes} {cs ds : List (Option Char)} (h : decode bs = cs ++ ds)
    (hlast : none ∉ cs.getLast?) : ∃ before after, bs = before ++ after ∧ decode before = cs ∧ decode after = ds := by
  rcases List.eq_nil_or_concat cs with rfl | ⟨cs, x, rfl⟩
  · exact ⟨[], bs, rfl, rfl, h⟩
  · rw [List.concat_eq_append] at h hlast ⊢
    cases x with
    | none => exact absurd (by rw [List.getLast?_concat]; rfl) hlast
    | some c =>
      rw [List.append_assoc] at h
      obtain ⟨before, after, hbs, hbefore, hafter⟩ := exists_read h
      refine ⟨before, after, hbs, ?_, hafter⟩
      change (run ⟨none, []⟩ before).finish = _
      rw [hbefore, Reader.finish, List.append_nil, List.reverse_cons, List.reverse_reverse]

end StakeLedger.Utf8

namespace StakeLedger.Bytes

theorem ofString_inj {s t : String} : ofString s = ofString t ↔ s = t := by
  refine ⟨fun h => ?_, congrArg ofString⟩
  have hread := congrArg Utf8.decode h
  rw [Utf8.decode_ofString, Utf8.decode_ofString] at hread
  exact String.toList_inj.mp ((List.map_inj_right fun _ _ => Option.some.inj).mp hread)

end StakeLedger.Bytes
