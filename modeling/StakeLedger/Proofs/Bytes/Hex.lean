import Mathlib.Data.List.Forall2
import StakeLedger.Bytes.Hex
import StakeLedger.Proofs.Bytes.Groups
import StakeLedger.Proofs.Bytes.Utf8
import StakeLedger.Proofs.Outcome

/-!
Hexadecimal text is read exactly where it spells bytes, two digits of either case for each. Otherwise an odd
length is reported, or else the first byte that is no digit.
-/

namespace StakeLedger.Hex

variable {c : Char} {b : UInt8} {n : Nat} {cs : List Char} {ns : List Nat} {text bs : Bytes} {fault : Fault}

def Digit (c : Char) (n : Nat) : Prop := lowerDigits[n]? = some c ∨ upperDigits[n]? = some c

def IsDigit (b : UInt8) : Prop := ∃ n, Digit (.ofNat b.toNat) n

def halves (b : UInt8) : List Nat := [b.toNat / 16, b.toNat % 16]

def Spells (cs : List Char) (bs : Bytes) : Prop := List.Forall₂ Digit cs (bs.flatMap halves)

inductive Wrong (text : Bytes) : Fault → Prop
  | oddLength : text.length % 2 = 1 → Wrong text .oddLength
  | notDigit {before after : Bytes} {b : UInt8} :
    text = before ++ b :: after → (∀ d ∈ before, IsDigit d) → ¬ IsDigit b → Wrong text (.notDigit b before.length)

def Fault.rank : Fault → Nat
  | .oddLength => 0
  | .notDigit .. => 1

theorem Fault.rank_lt (fault : Fault) : fault.rank < 2 := by
  cases fault with
  | oddLength => exact Nat.two_pos
  | notDigit => exact Nat.one_lt_two

theorem Digit.lt (h : Digit c n) : n < 16 := by
  rcases h with h | h
  · exact (List.getElem?_eq_some_iff.mp h).1
  · exact (List.getElem?_eq_some_iff.mp h).1

theorem Digit.mem (h : Digit c n) : c ∈ lowerDigits ++ upperDigits := by
  rcases h with h | h
  · exact List.mem_append_left _ (List.mem_of_getElem? h)
  · exact List.mem_append_right _ (List.mem_of_getElem? h)

instance (c : Char) (n : Nat) : Decidable (Digit c n) := inferInstanceAs (Decidable (_ ∨ _))

theorem digit?_lt (h : digit? b = some n) : n < 16 := by
  unfold digit? at h
  grind

theorem Digit.apply_eq {β : Type} {f : Char → β} {g : Nat → β} (hlower : lowerDigits.map f = (List.range 16).map g)
    (hupper : upperDigits.map f = (List.range 16).map g) (h : Digit c n) : f c = g n := by
  have hrow : ∀ row : List Char, row.map f = (List.range 16).map g → row[n]? = some c → f c = g n := by
    intro row hmap hc
    have hat := congrArg (·[n]?) hmap
    rw [List.getElem?_map, List.getElem?_map, hc, List.getElem?_range h.lt] at hat
    exact Option.some.inj hat
  rcases id h with hc | hc
  · exact hrow _ hlower hc
  · exact hrow _ hupper hc

theorem digit?_eq_some_iff : digit? b = some n ↔ Digit (.ofNat b.toNat) n := by
  constructor
  · intro h
    have hall : (List.range 256).all fun k => (digit? (.ofNat k)).all fun n => Digit (.ofNat k) n := by decide +kernel
    have hk := List.all_eq_true.mp hall b.toNat (List.mem_range.mpr b.toNat_lt)
    rw [UInt8.ofNat_toNat, h] at hk
    exact of_decide_eq_true hk
  · intro h
    have hvalid : b.toNat.isValidChar := .inl (Nat.lt_trans b.toNat_lt (by decide))
    have hvalue : (Char.ofNat b.toNat).toNat = b.toNat := by
      rw [Char.ofNat, dif_pos hvalid]
      rfl
    have hdigit := @Digit.apply_eq _ _ _ (fun d => digit? (.ofNat d.toNat)) some (by decide +kernel)
      (by decide +kernel) h
    rwa [hvalue, UInt8.ofNat_toNat] at hdigit

theorem isDigit_iff : IsDigit b ↔ (digit? b).isSome := by
  rw [Option.isSome_iff_exists]
  exact exists_congr fun _ => digit?_eq_some_iff.symm

theorem Digit.map_digit? (h : Digit c n) : (String.utf8EncodeChar c).map digit? = [some n] :=
  @Digit.apply_eq _ _ _ (fun d => (String.utf8EncodeChar d).map digit?) (fun m => [some m]) (by decide +kernel)
    (by decide +kernel) h

theorem exists_digit (h : ∀ b ∈ String.utf8EncodeChar c, (digit? b).isSome) : ∃ n, Digit c n := by
  by_cases hc : c.toNat < 0x80
  · rw [Utf8.encodeChar_of_lt hc] at h
    obtain ⟨n, hn⟩ := Option.isSome_iff_exists.mp (h _ (List.mem_singleton_self _))
    rw [digit?_eq_some_iff, UInt8.toNat_ofNat_of_lt' (by simp only [UInt8.size]; omega)] at hn
    exact ⟨n, by rwa [Char.ofNat_toNat] at hn⟩
  -- Other characters end in a byte that is no digit.
  · obtain ⟨n, hn⟩ := Option.isSome_iff_exists.mp (h _ (Utf8.tail_mem_encodeChar hc))
    have htail := Utf8.toNat_tail (m := c.toNat % 0x40) (Nat.mod_lt _ (by decide))
    unfold digit? at hn
    grind

theorem map_digit?_iff : (cs.flatMap String.utf8EncodeChar).map digit? = ns.map some ↔ List.Forall₂ Digit cs ns := by
  constructor
  · intro h
    induction cs generalizing ns with
    | nil =>
      rw [List.map_eq_nil_iff.mp h.symm]
      exact .nil
    | cons c cs ih =>
      rw [List.flatMap_cons, List.map_append] at h
      have hsome : ∀ b ∈ String.utf8EncodeChar c, (digit? b).isSome := by
        intro b hb
        have hmem : digit? b ∈ ns.map some := h ▸ List.mem_append_left _ (List.mem_map_of_mem hb)
        obtain ⟨n, -, hn⟩ := List.mem_map.mp hmem
        rw [← hn]
        rfl
      obtain ⟨n, hn⟩ := exists_digit hsome
      rw [hn.map_digit?] at h
      cases ns with
      | nil => cases h
      | cons m ms =>
        obtain ⟨hm, hms⟩ := List.cons_eq_cons.mp h
        exact .cons (Option.some.inj hm ▸ hn) (ih hms)
  · intro h
    induction h with
    | nil => rfl
    | cons hd _ ih => rw [List.flatMap_cons, List.map_append, hd.map_digit?, ih]; rfl

theorem length_flatMap_halves (bs : Bytes) : (bs.flatMap halves).length = 2 * bs.length := by
  induction bs with
  | nil => rfl
  | cons b bs ih =>
    rw [List.flatMap_cons, List.length_append, ih, List.length_cons, halves, List.length_cons, List.length_singleton]
    omega

theorem Spells.length_eq (h : Spells cs bs) : cs.length = 2 * bs.length :=
  (List.Forall₂.length_eq h).trans (length_flatMap_halves bs)

theorem Spells.mem (h : Spells cs bs) : ∀ c ∈ cs, c ∈ lowerDigits ++ upperDigits := by
  unfold Spells at h
  generalize bs.flatMap halves = ns at h
  induction h with
  | nil => exact nofun
  | cons hd _ ih => exact List.forall_mem_cons.mpr ⟨hd.mem, ih⟩

theorem flatMap_halves_inj : ∀ {bs bs' : Bytes}, bs.flatMap halves = bs'.flatMap halves → bs = bs'
  | [], [], _ => rfl
  | [], _ :: _, h => nomatch h
  | _ :: _, [], h => nomatch h
  | b :: bs, b' :: bs', h => by
    obtain ⟨hhigh, h⟩ := List.cons_eq_cons.mp h
    obtain ⟨hlow, h⟩ := List.cons_eq_cons.mp h
    have hb : b.toNat = b'.toNat := by omega
    rw [UInt8.toNat_inj.mp hb, flatMap_halves_inj h]

theorem halves_ofNat {m : Nat} (hm : m < 16) (hn : n < 16) : halves (UInt8.ofNat (16 * m + n)) = [m, n] := by
  have hbyte : (UInt8.ofNat (16 * m + n)).toNat = 16 * m + n :=
    UInt8.toNat_ofNat_of_lt' (by simp only [UInt8.size]; omega)
  have hhigh : (16 * m + n) / 16 = m := by omega
  have hlow : (16 * m + n) % 16 = n := by omega
  rw [halves, hbyte, hhigh, hlow]

theorem flatMap_halves_groups : ∀ ns : List Nat, ns.length % 2 = 0 → (∀ n ∈ ns, n < 16) →
    ((groups 2 ns).map fun pair => UInt8.ofNat (pair.foldl (fun n d => 16 * n + d) 0)).flatMap halves = ns
  | [], _, _ => rfl
  | [_], hlength, _ => nomatch hlength
  | m :: n :: ns, hlength, hlt => by
    have hm : m < 16 := hlt m List.mem_cons_self
    have hn : n < 16 := hlt n (List.mem_cons_of_mem _ List.mem_cons_self)
    have hrest := flatMap_halves_groups ns (by rw [List.length_cons, List.length_cons] at hlength; omega) fun d hd =>
      hlt d (List.mem_cons_of_mem _ (List.mem_cons_of_mem _ hd))
    have hbyte : [m, n].foldl (fun n d => 16 * n + d) 0 = 16 * m + n := by
      rw [List.foldl_cons, List.foldl_cons, List.foldl_nil, Nat.mul_zero, Nat.zero_add]
    rw [groups_two, List.map_cons, List.flatMap_cons, hbyte, halves_ofNat hm hn, hrest]
    rfl

theorem exists_of_find?_zipIdx {k i : Nat}
    (h : (text.zipIdx k).find? (fun x => (digit? x.1).isNone) = some (b, i)) :
    ∃ before after, text = before ++ b :: after ∧ i = k + before.length ∧ (∀ d ∈ before, IsDigit d) ∧ ¬ IsDigit b := by
  induction text generalizing k with
  | nil => cases h
  | cons c text ih =>
    rw [List.zipIdx_cons] at h
    let stray (x : UInt8 × Nat) : Bool := (digit? x.1).isNone
    cases hc : digit? c with
    | none =>
      rw [List.find?_cons_of_pos (p := stray) (congrArg Option.isNone hc)] at h
      cases h
      exact ⟨[], text, rfl, rfl, nofun, by rw [isDigit_iff, hc]; exact Bool.false_ne_true⟩
    | some n =>
      rw [List.find?_cons_of_neg (p := stray) (ne_true_of_eq_false (congrArg Option.isNone hc))] at h
      obtain ⟨before, after, rfl, rfl, hbefore, hb⟩ := ih h
      refine ⟨c :: before, after, rfl, by rw [List.length_cons]; omega, ?_, hb⟩
      exact List.forall_mem_cons.mpr ⟨⟨n, digit?_eq_some_iff.mp hc⟩, hbefore⟩

theorem map_digit?_of_isSome (h : ∀ b ∈ text, (digit? b).isSome) :
    text.map digit? = (text.filterMap digit?).map some := by
  induction text with
  | nil => rfl
  | cons b text ih =>
    obtain ⟨n, hn⟩ := Option.isSome_iff_exists.mp (h b List.mem_cons_self)
    rw [List.filterMap_cons_some hn, List.map_cons, List.map_cons, hn,
      ih fun d hd => h d (List.mem_cons_of_mem _ hd)]

theorem decode_cases (text : Bytes) :
    (∃ fault, decode text = .error fault ∧ Wrong text fault ∧ (fault = .oddLength ∨ text.length % 2 = 0)) ∨
      ∃ bs, decode text = .ok bs ∧ text.map digit? = (bs.flatMap halves).map some := by
  unfold decode
  by_cases hlength : text.length % 2 = 1
  · exact .inl ⟨.oddLength, if_pos hlength, .oddLength hlength, .inl rfl⟩
  rw [if_neg hlength]
  split
  · next b i hfind =>
    obtain ⟨before, after, htext, hi, hbefore, hb⟩ := exists_of_find?_zipIdx hfind
    rw [Nat.zero_add] at hi
    subst hi
    exact .inl ⟨_, rfl, .notDigit htext hbefore hb, .inr (by omega)⟩
  · next hfind =>
    have hsome : ∀ b ∈ text, (digit? b).isSome := by
      intro b hb
      obtain ⟨i, hi⟩ := List.getElem?_of_mem hb
      have hnot := List.find?_eq_none.mp hfind (b, i) (List.mk_mem_zipIdx_iff_getElem?.mpr hi)
      rwa [Bool.not_eq_true, Option.isNone_eq_false_iff] at hnot
    have hmap := map_digit?_of_isSome hsome
    have heven : (text.filterMap digit?).length % 2 = 0 := by
      have hlengths := congrArg List.length hmap
      rw [List.length_map, List.length_map] at hlengths
      omega
    have hlt : ∀ n ∈ text.filterMap digit?, n < 16 := by
      intro n hn
      obtain ⟨b, -, hb⟩ := List.mem_filterMap.mp hn
      exact digit?_lt hb
    exact .inr ⟨_, rfl, by rw [flatMap_halves_groups _ heven hlt, hmap]⟩

theorem not_wrong (h : text.map digit? = (bs.flatMap halves).map some) : ¬ Wrong text fault := by
  rintro (hodd | ⟨htext, -, hb⟩)
  · have hlength := congrArg List.length h
    rw [List.length_map, List.length_map, length_flatMap_halves] at hlength
    omega
  · rename_i b
    have hmem : digit? b ∈ (bs.flatMap halves).map some :=
      h ▸ List.mem_map_of_mem (htext ▸ List.mem_append_right _ List.mem_cons_self)
    obtain ⟨n, -, hn⟩ := List.mem_map.mp hmem
    exact hb ⟨n, digit?_eq_some_iff.mp hn.symm⟩

theorem decode_eq_ok_iff_map : decode text = .ok bs ↔ text.map digit? = (bs.flatMap halves).map some := by
  rcases decode_cases text with ⟨fault, hdecode, hwrong, -⟩ | ⟨bs', hdecode, hmap⟩
  · rw [hdecode]
    exact ⟨nofun, fun h => absurd hwrong (not_wrong h)⟩
  · rw [hdecode, hmap, List.map_inj_right fun _ _ => Option.some.inj]
    refine ⟨fun h => ?_, fun h => congrArg Except.ok (flatMap_halves_inj h)⟩
    rw [Except.ok.inj h]

theorem decode_eq_ok_iff : decode (cs.flatMap String.utf8EncodeChar) = .ok bs ↔ Spells cs bs :=
  decode_eq_ok_iff_map.trans map_digit?_iff

theorem length_of_decode (h : decode text = .ok bs) : text.length = 2 * bs.length := by
  have hlength := congrArg List.length (decode_eq_ok_iff_map.mp h)
  rwa [List.length_map, List.length_map, length_flatMap_halves] at hlength

theorem judges_decode (text : Bytes) : Judges (Wrong text) Fault.rank (decode text) := by
  rcases decode_cases text with ⟨fault, hdecode, hwrong, hfirst⟩ | ⟨bs, hdecode, hmap⟩
  · rw [hdecode]
    refine ⟨nofun, fun e he => ?_⟩
    obtain rfl := Except.error.inj he
    refine ⟨hwrong, fun other hother => ?_⟩
    rcases hfirst with rfl | heven
    · exact Nat.zero_le _
    cases hother with
    | oddLength hodd => omega
    | notDigit => exact Nat.le_of_lt_succ fault.rank_lt
  · rw [hdecode]
    exact ⟨fun _ _ _ => not_wrong hmap, nofun⟩

theorem takeWhile_append_notDigit {before after : Bytes} (hbefore : ∀ d ∈ before, IsDigit d) (hb : ¬ IsDigit b) :
    (before ++ b :: after).takeWhile (fun d => (digit? d).isSome) = before ∧
      (before ++ b :: after).dropWhile (fun d => (digit? d).isSome) = b :: after := by
  let read (d : UInt8) : Bool := (digit? d).isSome
  have hall : ∀ d ∈ before, read d := fun d hd => isDigit_iff.mp (hbefore d hd)
  have hnot : ¬ read b := mt isDigit_iff.mpr hb
  change (before ++ b :: after).takeWhile read = before ∧ (before ++ b :: after).dropWhile read = b :: after
  rw [List.takeWhile_append_of_pos hall, List.dropWhile_append_of_pos hall, List.takeWhile_cons_of_neg hnot,
    List.dropWhile_cons_of_neg hnot, List.append_nil]
  exact ⟨rfl, rfl⟩

theorem Wrong.eq_of_rank {e e' : Fault} (h : Wrong text e) (h' : Wrong text e') (hrank : e.rank = e'.rank) :
    e = e' := by
  cases h with
  | oddLength => cases h' with
    | oddLength => rfl
    | notDigit => cases hrank
  | notDigit htext hbefore hb => cases h' with
    | oddLength => cases hrank
    | notDigit htext' hbefore' hb' =>
      obtain ⟨htake, hdrop⟩ := takeWhile_append_notDigit hbefore hb
      obtain ⟨htake', hdrop'⟩ := takeWhile_append_notDigit hbefore' hb'
      rw [← htext] at htake hdrop
      rw [← htext'] at htake' hdrop'
      rw [← htake, ← htake', (List.cons_eq_cons.mp (hdrop.symm.trans hdrop')).1]

end StakeLedger.Hex
