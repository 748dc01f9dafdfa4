import StakeLedger.Proofs.Bytes.Hex
import StakeLedger.Proofs.Text.Blank
import StakeLedger.Staking.Event

/-!
A notification is taken exactly where it is written as the contract writes them, and what is reported otherwise
is the first of all that is wrong with it. Main statement: `read_exactly`.
-/

namespace StakeLedger.Staking

open Json Text

variable {text ds : List Char} {key payload : Bytes} {e : Event} {fault fault' : EventFault}

def marks : List (List Char) := [['0', 'x'], ['0', 'X']]

def Names (text : List Char) (key : Bytes) : Prop :=
  ∃ before mark ds after, text = before ++ (mark ++ ds) ++ after ∧ (∀ c ∈ before ++ after, isBlank c) ∧
    mark ∈ [] :: marks ∧ ds.length = 2 * keyLength ∧ Hex.Spells ds key

inductive Digits (text : List Char) : List Char → Prop
  | marked {mark ds : List Char} : mark ∈ marks → Trimmed text (mark ++ ds) → Digits text ds
  | plain {ds : List Char} : (∀ mark ∈ marks, ¬ mark <+: ds) → Trimmed text ds → Digits text ds

inductive WrongKey (text : List Char) : KeyFault → Prop
  | hex {ds : List Char} {fault : Hex.Fault} : Digits text ds → Hex.Wrong (ds.flatMap String.utf8EncodeChar) fault →
    WrongKey text (.hex fault)
  | length {ds : List Char} {n : Nat} :
    Digits text ds → (ds.flatMap String.utf8EncodeChar).length = 2 * n → n ≠ keyLength → WrongKey text (.length n)

inductive WrongNotification (n : Notification) : EventFault → Prop
  | negativeAmount : n.amount < 0 → WrongNotification n (.negativeAmount n.amount)
  | invalidKey {fault : KeyFault} : WrongKey n.validator.toList fault → WrongNotification n (.invalidKey fault)
  | unknown : (∀ d : Direction, n.event ≠ d.name) → WrongNotification n (.unknown n.event)

inductive WrongPayload (payload : Bytes) : EventFault → Prop
  | malformed {fault : Fault} : Notification.codec.ofBytes payload = .error fault →
    WrongPayload payload (.malformed fault)
  | read {n : Notification} {fault : EventFault} : Notification.codec.ofBytes payload = .ok n →
    WrongNotification n fault → WrongPayload payload fault

def KeyFault.rank : KeyFault → Nat
  | .hex fault => fault.rank
  | .length _ => 2

/-- A payload that cannot be read comes first, then a negative amount, then the key, then the kind of event. -/
def EventFault.rank : EventFault → Nat
  | .malformed _ => 0
  | .negativeAmount _ => 1
  | .invalidKey fault => 2 + fault.rank
  | .unknown _ => 5

def Event.change (e : Event) : Int :=
  match e.direction with
  | .deposit => e.amount.toInt
  | .withdraw => -e.amount.toInt

structure Notifies (payload : Bytes) (e : Event) : Prop where
  nonneg : 0 ≤ e.amount
  written : ∃ validator, Names validator.toList e.validator ∧
    Notification.codec.ofBytes payload = .ok ⟨e.direction.name, validator, e.amount⟩

theorem keyDigits_of_mark {mark : List Char} (hmark : mark ∈ marks) (h : trimBlanks text = mark ++ ds) :
    keyDigits text = ds := by
  rw [keyDigits, h]
  rcases List.mem_pair.mp hmark with rfl | rfl <;> rfl

theorem keyDigits_of_plain (hmark : ∀ mark ∈ marks, ¬ mark <+: ds) (h : trimBlanks text = ds) :
    keyDigits text = ds := by
  rw [keyDigits, h]
  split
  · next rest => exact absurd (List.prefix_append ['0', 'x'] rest) (hmark _ (List.mem_of_getElem? (i := 0) rfl))
  · next rest => exact absurd (List.prefix_append ['0', 'X'] rest) (hmark _ (List.mem_of_getElem? (i := 1) rfl))
  · rfl

theorem keyDigits_eq_iff : keyDigits text = ds ↔ Digits text ds := by
  constructor
  · rintro rfl
    by_cases hmark : ∀ mark ∈ marks, ¬ mark <+: trimBlanks text
    · rw [keyDigits_of_plain hmark rfl]
      exact .plain hmark (trimBlanks_eq_iff.mp rfl)
    · push Not at hmark
      obtain ⟨mark, hmem, ds, hds⟩ := hmark
      rw [keyDigits_of_mark hmem hds.symm]
      exact .marked hmem (trimBlanks_eq_iff.mp hds.symm)
  · rintro (⟨hmark, h⟩ | ⟨hmark, h⟩)
    · exact keyDigits_of_mark hmark (trimBlanks_eq_iff.mpr h)
    · exact keyDigits_of_plain hmark (trimBlanks_eq_iff.mpr h)

theorem trimmed_of_spells {before mark after : List Char} (htext : text = before ++ (mark ++ ds) ++ after)
    (hblank : ∀ c ∈ before ++ after, isBlank c) (hmark : mark ∈ [] :: marks) (h : Hex.Spells ds key) :
    Trimmed text (mark ++ ds) := by
  have hmarks : ([] :: marks).flatten.all (isBlank · == false) := by decide
  have hdigits : (Hex.lowerDigits ++ Hex.upperDigits).all (isBlank · == false) := by decide
  -- Neither marks nor digits have blanks in them, so that only those around are taken away.
  have hcore : ∀ c ∈ mark ++ ds, isBlank c = false := by
    intro c hc
    rcases List.mem_append.mp hc with hc | hc
    · exact eq_of_beq (List.all_eq_true.mp hmarks c (List.mem_flatten_of_mem hmark hc))
    · exact eq_of_beq (List.all_eq_true.mp hdigits c (h.mem c hc))
  exact ⟨⟨before, after, htext, hblank⟩, fun c hc => hcore c (List.mem_of_head? hc), fun c hc =>
    hcore c (List.mem_of_getLast? hc)⟩

theorem digits_of_names (h : Names text key) :
    ∃ ds, Digits text ds ∧ ds.length = 2 * keyLength ∧ Hex.Spells ds key := by
  obtain ⟨before, mark, ds, after, htext, hblank, hmark, hlength, hspells⟩ := h
  have htrimmed := trimmed_of_spells htext hblank hmark hspells
  refine ⟨ds, ?_, hlength, hspells⟩
  rcases List.mem_cons.mp hmark with rfl | hmark
  · refine .plain (fun m hm hstarts => ?_) htrimmed
    have hstray : marks.all (·.any (! (Hex.lowerDigits ++ Hex.upperDigits).contains ·)) := by decide
    obtain ⟨c, hc, hnot⟩ := List.any_eq_true.mp (List.all_eq_true.mp hstray m hm)
    rw [List.contains_iff_mem.mpr (hspells.mem c (hstarts.subset hc))] at hnot
    cases hnot
  · exact .marked hmark htrimmed

theorem names_of_digits (h : Digits text ds) (hlength : ds.length = 2 * keyLength) (hspells : Hex.Spells ds key) :
    Names text key := by
  rcases h with @⟨mark, _, hmark, ⟨⟨before, after, htext, hblank⟩, -, -⟩⟩ | ⟨-, ⟨⟨before, after, htext, hblank⟩, -, -⟩⟩
  · exact ⟨before, mark, ds, after, htext, hblank, List.mem_cons_of_mem _ hmark, hlength, hspells⟩
  · exact ⟨before, [], ds, after, htext, hblank, List.mem_cons_self, hlength, hspells⟩

theorem readKey_eq_ok_iff {text : String} : readKey text = .ok key ↔ Names text.toList key := by
  have hnames : Names text.toList key ↔ Hex.Spells (keyDigits text.toList) key ∧ key.length = keyLength := by
    constructor
    · intro h
      obtain ⟨ds, hds, hlength, hspells⟩ := digits_of_names h
      have hkey := hspells.length_eq
      rw [keyDigits_eq_iff.mpr hds]
      exact ⟨hspells, by omega⟩
    · rintro ⟨hspells, hlength⟩
      exact names_of_digits (keyDigits_eq_iff.mp rfl) (by rw [hspells.length_eq, hlength]) hspells
  rw [hnames, ← Hex.decode_eq_ok_iff, readKey]
  cases hdecode : Hex.decode ((keyDigits text.toList).flatMap String.utf8EncodeChar) with
  | error fault => exact ⟨nofun, fun h => nomatch h.1⟩
  | ok bs =>
    dsimp only
    split
    · next hlength =>
      refine ⟨fun h => ?_, fun h => congrArg Except.ok (Except.ok.inj h.1)⟩
      obtain rfl := Except.ok.inj h
      exact ⟨rfl, hlength⟩
    · next hlength =>
      refine ⟨nofun, fun h => ?_⟩
      obtain rfl := Except.ok.inj h.1
      exact absurd h.2 hlength

theorem wrongKey_hex_iff {fault : Hex.Fault} :
    WrongKey text (.hex fault) ↔ Hex.Wrong ((keyDigits text).flatMap String.utf8EncodeChar) fault := by
  refine ⟨fun h => ?_, fun h => .hex (keyDigits_eq_iff.mp rfl) h⟩
  cases h with
  | hex hds hwrong => rwa [keyDigits_eq_iff.mpr hds]

theorem wrongKey_length_iff {n : Nat} :
    WrongKey text (.length n) ↔
      ((keyDigits text).flatMap String.utf8EncodeChar).length = 2 * n ∧ n ≠ keyLength := by
  refine ⟨fun h => ?_, fun ⟨hlength, hne⟩ => .length (keyDigits_eq_iff.mp rfl) hlength hne⟩
  cases h with
  | length hds hlength hne => exact ⟨by rwa [keyDigits_eq_iff.mpr hds], hne⟩

theorem KeyFault.rank_lt (fault : KeyFault) : fault.rank < 3 := by
  cases fault with
  | hex fault => exact Nat.lt_succ_of_lt fault.rank_lt
  | length => exact Nat.lt_succ_self 2

theorem WrongKey.eq_of_rank {f f' : KeyFault} (h : WrongKey text f) (h' : WrongKey text f') (hrank : f.rank = f'.rank) :
    f = f' := by
  cases f with
  | hex fault => cases f' with
    | hex fault' => rw [(wrongKey_hex_iff.mp h).eq_of_rank (wrongKey_hex_iff.mp h') hrank]
    | length => exact absurd hrank (Nat.ne_of_lt fault.rank_lt)
  | length n => cases f' with
    | hex fault' => exact absurd hrank.symm (Nat.ne_of_lt fault'.rank_lt)
    | length n' =>
      have hlength := (wrongKey_length_iff.mp h).1
      rw [Nat.eq_of_mul_eq_mul_left Nat.two_pos (hlength.symm.trans (wrongKey_length_iff.mp h').1)]

theorem judges_readKey (text : String) : Judges (WrongKey text.toList) KeyFault.rank (readKey text) := by
  have hjudges := Hex.judges_decode ((keyDigits text.toList).flatMap String.utf8EncodeChar)
  rw [readKey]
  cases hdecode : Hex.decode ((keyDigits text.toList).flatMap String.utf8EncodeChar) with
  | error fault =>
    obtain ⟨hwrong, hleast⟩ := hjudges.error fault hdecode
    refine ⟨nofun, fun f hf => ?_⟩
    obtain rfl := Except.error.inj hf
    refine ⟨wrongKey_hex_iff.mpr hwrong, fun other hother => ?_⟩
    cases other with
    | hex fault' => exact hleast fault' (wrongKey_hex_iff.mp hother)
    | length => exact Nat.le_of_lt fault.rank_lt
  | ok key =>
    have hbytes := Hex.length_of_decode hdecode
    have hhex : ∀ fault, ¬ WrongKey text.toList (.hex fault) := fun fault h =>
      hjudges.ok key hdecode fault (wrongKey_hex_iff.mp h)
    dsimp only
    split
    · next hlength =>
      refine ⟨fun _ _ f hf => ?_, nofun⟩
      cases f with
      | hex fault => exact hhex fault hf
      | length n =>
        obtain ⟨hn, hne⟩ := wrongKey_length_iff.mp hf
        omega
    · next hlength =>
      refine ⟨nofun, fun f hf => ?_⟩
      obtain rfl := Except.error.inj hf
      refine ⟨wrongKey_length_iff.mpr ⟨hbytes, hlength⟩, fun other hother => ?_⟩
      cases other with
      | hex fault => exact absurd hother (hhex fault)
      | length => exact Nat.le_refl 2

theorem ofName?_eq_some_iff {name : String} {d : Direction} : Direction.ofName? name = some d ↔ name = d.name := by
  constructor
  · intro h
    have hname := List.find?_some h
    exact (beq_iff_eq.mp hname).symm
  · rintro rfl
    cases d <;> rfl

theorem ofName?_eq_none_iff {name : String} : Direction.ofName? name = none ↔ ∀ d : Direction, name ≠ d.name := by
  rw [Option.eq_none_iff_forall_ne_some]
  exact forall_congr' fun d => not_congr ofName?_eq_some_iff

theorem WrongNotification.rank_pos {n : Notification} (h : WrongNotification n fault) : 0 < fault.rank := by
  cases h with
  | negativeAmount => exact Nat.one_pos
  | invalidKey => exact Nat.lt_of_lt_of_le Nat.two_pos (Nat.le_add_right 2 _)
  | unknown => exact Nat.succ_pos 4

theorem WrongNotification.eq_of_rank {n : Notification} (h : WrongNotification n fault)
    (h' : WrongNotification n fault') (hrank : fault.rank = fault'.rank) : fault = fault' := by
  cases h with
  | negativeAmount => cases h' with
    | negativeAmount => rfl
    | invalidKey => change 1 = 2 + _ at hrank; omega
    | unknown => cases hrank
  | @invalidKey f hwrong => cases h' with
    | negativeAmount => change 2 + _ = 1 at hrank; omega
    | invalidKey hwrong' => rw [hwrong.eq_of_rank hwrong' (Nat.add_left_cancel hrank)]
    | unknown => exact absurd (Nat.add_left_cancel (k := 3) hrank) (Nat.ne_of_lt f.rank_lt)
  | unknown => cases h' with
    | negativeAmount => cases hrank
    | @invalidKey f hwrong => exact absurd (Nat.add_left_cancel (k := 3) hrank.symm) (Nat.ne_of_lt f.rank_lt)
    | unknown => rfl

theorem WrongPayload.eq_of_rank (h : WrongPayload payload fault) (h' : WrongPayload payload fault')
    (hrank : fault.rank = fault'.rank) : fault = fault' := by
  cases h with
  | malformed hread => cases h' with
    | malformed hread' => rw [Except.error.inj (hread.symm.trans hread')]
    | read hread' => exact nomatch hread.symm.trans hread'
  | read hread hwrong => cases h' with
    | malformed hread' => exact nomatch hread.symm.trans hread'
    | read hread' hwrong' =>
      obtain rfl := Except.ok.inj (hread.symm.trans hread')
      exact hwrong.eq_of_rank hwrong' hrank

theorem ofNotification_cases (n : Notification) :
    (n.amount < 0 ∧ Event.ofNotification n = .error (.negativeAmount n.amount)) ∨
      (0 ≤ n.amount ∧ ∃ f, readKey n.validator = .error f ∧ Event.ofNotification n = .error (.invalidKey f)) ∨
      (0 ≤ n.amount ∧ ∃ key, readKey n.validator = .ok key ∧
        ((∀ d : Direction, n.event ≠ d.name) ∧ Event.ofNotification n = .error (.unknown n.event) ∨
          ∃ d : Direction, n.event = d.name ∧ Event.ofNotification n = .ok ⟨d, key, n.amount⟩)) := by
  rw [Event.ofNotification]
  by_cases hnegative : n.amount < 0
  · exact .inl ⟨hnegative, if_pos hnegative⟩
  have hnonneg := Int64.not_lt.mp hnegative
  rw [if_neg hnegative]
  cases hkey : readKey n.validator with
  | error f => exact .inr (.inl ⟨hnonneg, f, rfl, rfl⟩)
  | ok key =>
    refine .inr (.inr ⟨hnonneg, key, rfl, ?_⟩)
    cases hname : Direction.ofName? n.event with
    | none => exact .inl ⟨ofName?_eq_none_iff.mp hname, rfl⟩
    | some d => exact .inr ⟨d, ofName?_eq_some_iff.mp hname, rfl⟩

theorem judges_ofNotification (n : Notification) :
    Judges (WrongNotification n) EventFault.rank (Event.ofNotification n) := by
  have hjudges := judges_readKey n.validator
  rcases ofNotification_cases n with ⟨hnegative, hevent⟩ | ⟨hnonneg, f, hkey, hevent⟩ |
    ⟨hnonneg, key, hkey, ⟨hname, hevent⟩ | ⟨d, hname, hevent⟩⟩
  all_goals rw [hevent]
  · refine ⟨nofun, fun f hf => ?_⟩
    obtain rfl := Except.error.inj hf
    exact ⟨.negativeAmount hnegative, fun _ hother => hother.rank_pos⟩
  · obtain ⟨hwrong, hleast⟩ := hjudges.error f hkey
    refine ⟨nofun, fun f hf => ?_⟩
    obtain rfl := Except.error.inj hf
    refine ⟨.invalidKey hwrong, fun other hother => ?_⟩
    cases hother with
    | negativeAmount hnegative => exact absurd hnegative (Int64.not_lt.mpr hnonneg)
    | invalidKey hother => exact Nat.add_le_add_left (hleast _ hother) 2
    | unknown => exact Nat.add_le_add_left (Nat.le_of_lt f.rank_lt) 2
  · refine ⟨nofun, fun f hf => ?_⟩
    obtain rfl := Except.error.inj hf
    refine ⟨.unknown hname, fun other hother => ?_⟩
    cases hother with
    | negativeAmount hnegative => exact absurd hnegative (Int64.not_lt.mpr hnonneg)
    | invalidKey hother => exact absurd hother (hjudges.ok key hkey _)
    | unknown => exact Nat.le_refl 5
  · refine ⟨fun _ _ f hf => ?_, nofun⟩
    cases hf with
    | negativeAmount hnegative => exact Int64.not_lt.mpr hnonneg hnegative
    | invalidKey hwrong => exact hjudges.ok key hkey _ hwrong
    | unknown hnot => exact hnot d hname

theorem judges_parse (payload : Bytes) : Judges (WrongPayload payload) EventFault.rank (Event.parse payload) := by
  rw [Event.parse]
  cases hread : Notification.codec.ofBytes payload with
  | error f =>
    refine ⟨nofun, fun f hf => ?_⟩
    obtain rfl := Except.error.inj hf
    exact ⟨.malformed hread, fun _ _ => Nat.zero_le _⟩
  | ok n =>
    have hwrong : ∀ f, WrongPayload payload f ↔ WrongNotification n f := by
      refine fun f => ⟨fun h => ?_, .read hread⟩
      cases h with
      | malformed hread' => exact nomatch hread.symm.trans hread'
      | read hread' h => exact Except.ok.inj (hread.symm.trans hread') ▸ h
    rw [funext fun f => propext (hwrong f)]
    exact judges_ofNotification n

theorem parse_eq_ok_iff : Event.parse payload = .ok e ↔ Notifies payload e := by
  rw [Event.parse]
  constructor
  · intro h
    cases hread : Notification.codec.ofBytes payload with
    | error f => rw [hread] at h; cases h
    | ok n =>
      rw [hread] at h
      change Event.ofNotification n = .ok e at h
      rcases ofNotification_cases n with ⟨-, hevent⟩ | ⟨-, f, -, hevent⟩ |
        ⟨hnonneg, key, hkey, ⟨-, hevent⟩ | ⟨d, hname, hevent⟩⟩
      all_goals cases h.symm.trans hevent
      exact ⟨hnonneg, n.validator, readKey_eq_ok_iff.mp hkey, by rw [hread, ← hname]⟩
  · rintro ⟨hnonneg, validator, hnames, hread⟩
    rw [hread]
    change Event.ofNotification _ = _
    rw [Event.ofNotification, if_neg (Int64.not_lt.mpr hnonneg)]
    dsimp only
    rw [readKey_eq_ok_iff.mpr hnames, ofName?_eq_some_iff.mpr rfl]

theorem toInt_neg_of_nonneg {n : Int64} (h : 0 ≤ n) : (-n).toInt = -n.toInt := by
  rw [Int64.le_iff_toInt_le] at h
  have hlt := n.toInt_lt
  have hzero : (0 : Int64).toInt = 0 := rfl
  rw [Int64.toInt_neg, Int.bmod_eq_of_le (by omega) (by omega)]

theorem delta_eq (h : 0 ≤ e.amount) :
    ∃ amount : Int64, amount.toInt = e.change ∧ (amount = 0 ↔ e.amount = 0) ∧
      e.delta = if amount = 0 then none else some (.new e.validator amount) := by
  obtain ⟨direction, validator, amount⟩ := e
  cases direction with
  | deposit => exact ⟨amount, rfl, Iff.rfl, rfl⟩
  | withdraw =>
    -- The one amount that cannot be turned around is negative.
    have hneg := toInt_neg_of_nonneg h
    refine ⟨-amount, hneg, ?_, rfl⟩
    rw [← Int64.toInt_inj, ← Int64.toInt_inj, hneg]
    exact Int.neg_eq_zero

theorem delta_eq_none_iff (h : 0 ≤ e.amount) : e.delta = none ↔ e.amount = 0 := by
  obtain ⟨amount, -, hzero, hdelta⟩ := delta_eq h
  rw [hdelta, ← hzero]
  split
  · exact iff_of_true rfl ‹_›
  · exact iff_of_false nofun ‹_›

theorem delta_eq_some_iff {d : StakeDelta} (h : 0 ≤ e.amount) :
    e.delta = some d ↔ e.amount ≠ 0 ∧ d.address = Validator.addressOf e.validator ∧ d.publicKey = e.validator ∧
      d.amount.toInt = e.change := by
  obtain ⟨amount, hamount, hzero, hdelta⟩ := delta_eq h
  rw [hdelta, Ne, ← hzero]
  split
  · next h0 => exact ⟨nofun, fun hd => absurd h0 hd.1⟩
  · next h0 =>
    constructor
    · intro hd
      obtain rfl := Option.some.inj hd
      exact ⟨h0, rfl, rfl, hamount⟩
    · rintro ⟨-, haddress, hkey, hchange⟩
      obtain ⟨address, key, a⟩ := d
      obtain rfl := Int64.toInt_inj.mp (hchange.trans hamount.symm)
      subst haddress hkey
      rfl

/-- A payload is taken exactly where it is a notification: the amount not negative, the key spelled with all its
digits, one mark before them at most and blanks around, the kind of event one of the two. Otherwise the first of
what is wrong is reported. A notification that is taken changes the stake of the validator of the key by the
amount, up or down, and changes nothing only where the amount is zero. -/
theorem read_exactly (payload : Bytes) :
    (∀ e, Event.parse payload = .ok e ↔ Notifies payload e) ∧
      (∀ fault, Event.parse payload = .error fault ↔ First (WrongPayload payload) EventFault.rank fault) ∧
      (∀ fault, parseDelta payload = .error fault ↔ Event.parse payload = .error fault) ∧
      ∀ e, Notifies payload e →
        (parseDelta payload = .ok none ↔ e.amount = 0) ∧
          ∀ d, parseDelta payload = .ok (some d) ↔
            e.amount ≠ 0 ∧ d.address = Validator.addressOf e.validator ∧ d.publicKey = e.validator ∧
              d.amount.toInt = e.change := by
  refine ⟨fun e => parse_eq_ok_iff, fun fault => (judges_parse payload).error_iff WrongPayload.eq_of_rank, ?_, ?_⟩
  · exact fun fault => map_eq_error
  · intro e h
    have hparse : parseDelta payload = .ok e.delta := by
      rw [parseDelta, parse_eq_ok_iff.mpr h]
      rfl
    rw [hparse, Except.ok.injEq, delta_eq_none_iff h.nonneg]
    refine ⟨Iff.rfl, fun d => ?_⟩
    rw [Except.ok.injEq, delta_eq_some_iff h.nonneg]

/-- The greatest amount is withdrawn from a validator whose key has digits of either case, a mark before them and
blanks around, one of them not of ASCII. -/
theorem read_greatest_withdrawal :
    let digits : String := .ofList (List.replicate 16 ['a', 'B', 'A', 'b']).flatten
    let payload := Bytes.ofString ("\x7b\"event\":\"Withdraw\",\"validator\":\" 0X" ++ digits ++
      "\\u00a0\",\"amount\":9223372036854775807\x7d")
    let key : Bytes := List.replicate 32 0xAB
    Notifies payload ⟨.withdraw, key, Int64.maxValue⟩ ∧
      ∃ d, parseDelta payload = .ok (some d) ∧ d.address = Validator.addressOf key ∧
        d.amount.toInt = -9223372036854775807 := by
  intro digits payload key
  obtain ⟨haccepted, -, -, hdelta⟩ := read_exactly payload
  have hparse : Event.parse payload = .ok ⟨.withdraw, key, Int64.maxValue⟩ := by decide +kernel
  have h := (haccepted _).mp hparse
  refine ⟨h, .new key (-Int64.maxValue), ((hdelta _ h).2 _).mpr ⟨by decide, rfl, rfl, by decide⟩, rfl, by decide⟩

end StakeLedger.Staking
