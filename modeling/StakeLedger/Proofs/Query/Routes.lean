import StakeLedger.Entropy
import StakeLedger.Proofs.Query.Pattern
import StakeLedger.Query.Handlers

/-!
The routes that every node has. Both match a fixed beginning and keep the rest of the path, so that a path which
begins otherwise goes on to the next. Main statement: `Router.route_fetch`.
-/

namespace StakeLedger.Query

open PatternText

variable {c : Char} {lit cs ds : List Char} {ps : List Pattern} {here : Place} {k : Place → Option Place}

def line : Pattern := .either (.many true (.one .notLineFeed)) .empty

def beginningWith (lit : List Char) : Pattern :=
  joined (.textStart :: (lit.map fun c => .one (.single c)) ++ [.group 1 line, .textEnd])

theorem ofText_peerFilter :
    Pattern.ofText peerFilterPattern = .ok (beginningWith "/p2p/filter/addr/".toList) := by rfl

theorem ofText_entropyFetch :
    Pattern.ofText entropyFetchPattern = .ok (beginningWith "/baseline/entropy/fetch/".toList) := by rfl

theorem contains_single {d : Char} : (CharSet.single c).contains d = true ↔ d = c := by
  have hrange : (CharSet.single c).contains d = (decide (c.toNat ≤ d.toNat) && decide (d.toNat ≤ c.toNat)) := by
    simp [CharSet.contains, CharSet.single]
  rw [hrange, Bool.and_eq_true, decide_eq_true_eq, decide_eq_true_eq]
  refine ⟨fun h => Char.toNat_inj.mp (Nat.le_antisymm h.2 h.1), ?_⟩
  rintro rfl
  exact ⟨Nat.le_refl _, Nat.le_refl _⟩

theorem contains_notLineFeed (hc : c ≠ '\n') : CharSet.notLineFeed.contains c = true := by
  have hrange : CharSet.notLineFeed.contains c = !(decide (10 ≤ c.toNat) && decide (c.toNat ≤ 10)) := by
    simp [CharSet.contains, CharSet.notLineFeed]
  rw [hrange, Bool.not_eq_true', Bool.and_eq_false_iff, decide_eq_false_iff_not, decide_eq_false_iff_not]
  have hne : c.toNat ≠ 10 := fun h => hc (Char.toNat_inj.mp h)
  omega

/-! ### Beginnings -/

theorem joined_cons {p : Pattern} (hps : ps ≠ []) : joined (p :: ps) = .seq p (joined ps) := by
  cases ps with
  | nil => exact absurd rfl hps
  | cons q qs => rfl

theorem matcher_cons {s : CharSet} (hps : ps ≠ []) :
    (joined (.one s :: ps)).matcher here k = Matcher.one s here fun there => (joined ps).matcher there k := by
  rw [joined_cons hps, matcher_seq, Pattern.matcher]

theorem matcher_literal (hps : ps ≠ []) (hrest : here.rest = lit ++ cs) :
    ∃ there : Place, there.rest = cs ∧
      (joined (lit.map (fun c => .one (.single c)) ++ ps)).matcher here k = (joined ps).matcher there k := by
  induction lit generalizing here with
  | nil => exact ⟨here, hrest, rfl⟩
  | cons c lit ih =>
    obtain ⟨there, hthere, hmatch⟩ := @ih (here.after c (lit ++ cs)) rfl
    refine ⟨there, hthere, ?_⟩
    rw [← hmatch, List.map_cons, List.cons_append, matcher_cons (by simp [hps]), one_cons hrest]
    exact if_pos (contains_single.mpr rfl)

theorem matcher_literal_none (hps : ps ≠ []) (hrest : ¬ lit <+: here.rest) :
    (joined (lit.map (fun c => .one (.single c)) ++ ps)).matcher here k = none := by
  induction lit generalizing here with
  | nil => exact absurd List.nil_prefix hrest
  | cons c lit ih =>
    rw [List.map_cons, List.cons_append, matcher_cons (by simp [hps])]
    cases hd : here.rest with
    | nil => exact one_nil hd
    | cons d rest =>
      rw [one_cons hd]
      split
      · next hc =>
        refine @ih (here.after d rest) fun hprefix => hrest ?_
        rw [hd, contains_single.mp hc]
        exact List.cons_prefix_cons.mpr ⟨rfl, hprefix⟩
      · rfl

/-! ### The rest of a line -/

def Place.AtEnd (here there : Place) : Prop :=
  there.rest = [] ∧ there.offset = here.offset + here.rest.length

theorem atEnd_after {there : Place} (hrest : here.rest = c :: cs) (h : (here.after c cs).AtEnd there) :
    here.AtEnd there := by
  obtain ⟨hend, hoffset⟩ := h
  refine ⟨hend, ?_⟩
  rw [hoffset, hrest, List.length_cons]
  change here.offset + 1 + cs.length = _
  omega

theorem lt_after : here.offset < (here.after c cs).offset := Nat.lt_succ_self _

theorem iterate_line {P : Place → Prop} {n : Nat} (hn : here.rest.length ≤ n) (hline : ∀ c ∈ here.rest, c ≠ '\n')
    (hk : ∀ there, here.AtEnd there → ∃ x, k there = some x ∧ P x) :
    ∃ x, Matcher.iterate (Matcher.one .notLineFeed) true n here k = some x ∧ P x := by
  induction n generalizing here with
  | zero =>
    have hend : here.rest = [] := List.eq_nil_of_length_eq_zero (Nat.le_zero.mp hn)
    rw [Matcher.iterate]
    exact hk here ⟨hend, by rw [hend]; rfl⟩
  | succ n ih =>
    rw [Matcher.iterate, if_pos rfl]
    cases hrest : here.rest with
    | nil =>
      rw [one_nil hrest]
      exact hk here ⟨hrest, by rw [hrest]; rfl⟩
    | cons c cs =>
      rw [hrest] at hn hline
      obtain ⟨hc, hcs⟩ := List.forall_mem_cons.mp hline
      obtain ⟨x, hmore, hx⟩ := @ih (here.after c cs) (Nat.le_of_succ_le_succ hn) hcs
        fun there h => hk there (atEnd_after hrest h)
      rw [one_cons hrest, if_pos (contains_notLineFeed hc)]
      dsimp only
      rw [if_pos lt_after, hmore]
      exact ⟨x, rfl, hx⟩

theorem matcher_line {P : Place → Prop} (hline : ∀ c ∈ here.rest, c ≠ '\n')
    (hk : ∀ there, here.AtEnd there → ∃ x, k there = some x ∧ P x) : ∃ x, line.matcher here k = some x ∧ P x := by
  have hempty : Pattern.empty.matcher here k = k here := rfl
  rw [line, matcher_either, hempty, Pattern.matcher, Pattern.matcher, Matcher.many]
  cases hrest : here.rest with
  | nil =>
    rw [one_nil hrest]
    exact hk here ⟨hrest, by rw [hrest]; rfl⟩
  | cons c cs =>
    rw [hrest] at hline
    obtain ⟨hc, hcs⟩ := List.forall_mem_cons.mp hline
    have hlater : ∀ there, (here.after c cs).AtEnd there → ∃ x, k there = some x ∧ P x := fun there h =>
      hk there (atEnd_after hrest h)
    obtain ⟨x, hmore, hx⟩ := iterate_line (Nat.le_refl _) hcs hlater
    rw [one_cons hrest, if_pos (contains_notLineFeed hc), if_pos lt_after, hmore]
    exact ⟨x, rfl, hx⟩

theorem matcher_rest (hline : ∀ c ∈ here.rest, c ≠ '\n') :
    ∃ x, (joined [.group 1 line, .textEnd]).matcher here some = some x ∧ x.first = some here.rest := by
  have hgroup : (joined [.group 1 line, .textEnd]).matcher here some = line.matcher here fun there =>
      if there.rest.isEmpty then some { there with first := some (here.rest.take (there.offset - here.offset)) }
      else none := rfl
  rw [hgroup]
  refine matcher_line hline fun there hthere => ?_
  obtain ⟨hend, hoffset⟩ := hthere
  rw [hend, hoffset, Nat.add_sub_cancel_left, List.take_length]
  exact ⟨_, rfl, rfl⟩

def Place.OnLine (here there : Place) : Prop := ∃ passed, here.rest = passed ++ there.rest ∧ '\n' ∉ passed

theorem leads_line : line.matcher.Leads Place.OnLine := by
  apply Pattern.leads
  · exact fun here => ⟨[], rfl, List.not_mem_nil⟩
  · rintro a b c ⟨passed, ha, hpassed⟩ ⟨passed', hb, hpassed'⟩
    refine ⟨passed ++ passed', by rw [ha, hb, List.append_assoc], ?_⟩
    rw [List.mem_append, not_or]
    exact ⟨hpassed, hpassed'⟩
  · intro s hs here c rest hrest hc
    obtain rfl : s = .notLineFeed := by simpa [line, Pattern.sets] using hs
    refine ⟨[c], hrest, fun hmem => ?_⟩
    rw [← List.mem_singleton.mp hmem] at hc
    exact absurd hc (by decide)
  · intro h
    simp [line, Pattern.groups] at h

theorem not_mem_of_matcher_rest {x : Place} (h : (joined [.group 1 line, .textEnd]).matcher here some = some x) :
    '\n' ∉ here.rest := by
  obtain ⟨there, ⟨passed, hrest, hpassed⟩, hk⟩ := leads_line here
    (fun there => if there.rest.isEmpty then
      some { there with first := some (here.rest.take (there.offset - here.offset)) } else none) x h
  have hend : there.rest = [] := by
    simpa using (Option.ite_none_right_eq_some.mp hk).1
  rwa [hrest, hend, List.append_nil]

/-! ### Whole patterns -/

theorem matcher_beginning : (beginningWith lit).matcher here k = if here.offset = 0 then
    (joined (lit.map (fun c => .one (.single c)) ++ [.group 1 line, .textEnd])).matcher here k else none := by
  rw [beginningWith, List.cons_append, joined_cons (by simp), matcher_seq, Pattern.matcher, Matcher.when]
  simp only [beq_iff_eq]

theorem search_later (before : Option Char) {offset : Nat} (hoffset : offset ≠ 0) (text : List Char) :
    (beginningWith lit).search before offset text = none := by
  induction text generalizing before offset with
  | nil => rw [Pattern.search.eq_def, matcher_beginning, if_neg hoffset]
  | cons c text ih =>
    rw [Pattern.search, matcher_beginning, if_neg hoffset]
    exact ih (some c) (Nat.succ_ne_zero _)

def Place.start (text : List Char) : Place := ⟨none, text, 0, none⟩

theorem search_start (text : List Char) : (beginningWith lit).search none 0 text =
    (joined (lit.map (fun c => .one (.single c)) ++ [.group 1 line, .textEnd])).matcher (.start text) some := by
  have hstart : (beginningWith lit).matcher (.start text) some = _ := matcher_beginning.trans (if_pos rfl)
  rw [← hstart, Place.start]
  cases text with
  | nil =>
    rw [Pattern.search]
    cases (beginningWith lit).matcher ⟨none, [], 0, none⟩ some <;> rfl
  | cons c text =>
    rw [Pattern.search, search_later (some c) (Nat.succ_ne_zero 0)]
    cases (beginningWith lit).matcher ⟨none, c :: text, 0, none⟩ some <;> rfl

theorem argument?_beginning {text : String} (htext : text.toList = lit ++ ds) (hline : ∀ c ∈ ds, c ≠ '\n') :
    (beginningWith lit).argument? text = some (.ofList ds) := by
  have hrest : (Place.start text.toList).rest = lit ++ ds := htext
  obtain ⟨there, hthere, hmatch⟩ := matcher_literal (List.cons_ne_nil (.group 1 line) [.textEnd]) hrest
  have hline : ∀ c ∈ there.rest, c ≠ '\n' := hthere ▸ hline
  obtain ⟨x, hx, hfirst⟩ := matcher_rest hline
  rw [Pattern.argument?, search_start, hmatch, hx, Option.map_some, hfirst, hthere]
  rfl

theorem argument?_beginning_none {text : String} (htext : ¬ lit <+: text.toList) :
    (beginningWith lit).argument? text = none := by
  have hrest : ¬ lit <+: (Place.start text.toList).rest := htext
  rw [Pattern.argument?, search_start, matcher_literal_none (List.cons_ne_nil _ _) hrest]
  rfl

theorem argument?_beginning_iff {text argument : String} : (beginningWith lit).argument? text = some argument ↔
    text.toList = lit ++ argument.toList ∧ '\n' ∉ argument.toList := by
  constructor
  · intro h
    by_cases hlit : lit <+: text.toList
    · obtain ⟨ds, hds⟩ := hlit
      have hline : '\n' ∉ ds := by
        have hrest : (Place.start text.toList).rest = lit ++ ds := hds.symm
        obtain ⟨there, hthere, hmatch⟩ := matcher_literal (List.cons_ne_nil (.group 1 line) [.textEnd]) hrest
        rw [Pattern.argument?, search_start, hmatch] at h
        obtain ⟨x, hx, -⟩ := Option.map_eq_some_iff.mp h
        exact hthere ▸ not_mem_of_matcher_rest hx
      rw [argument?_beginning hds.symm fun c hc he => hline (he ▸ hc)] at h
      obtain rfl := Option.some.inj h
      rw [String.toList_ofList]
      exact ⟨hds.symm, hline⟩
    · rw [argument?_beginning_none hlit] at h
      cases h
  · rintro ⟨htext, hline⟩
    rw [argument?_beginning htext fun c hc he => hline (he ▸ hc), String.ofList_toList]

/-! ### Routes -/

variable {σ : Type} {probe : Probe σ} {beacon : Option (Beacon σ)} {router : Router σ}

theorem Router.withDefaults_eq (probe : Probe σ) (beacon : Option (Beacon σ)) :
    Router.withDefaults probe beacon = .ok
      [⟨beginningWith "/p2p/filter/addr/".toList, peerFilter probe⟩,
        ⟨beginningWith "/baseline/entropy/fetch/".toList, entropyFetch beacon⟩] := by
  have hpeer : Router.register [] peerFilterPattern (peerFilter probe) =
      .ok [⟨beginningWith "/p2p/filter/addr/".toList, peerFilter probe⟩] := by
    rw [Router.register, ofText_peerFilter]
    rfl
  rw [withDefaults, hpeer]
  change Router.register _ entropyFetchPattern _ = _
  rw [Router.register, ofText_entropyFetch]
  rfl

theorem notLineFeed_of_mem_toString {n : Int} (hc : c ∈ (toString n).toList) : c ≠ '\n' := by
  have hdigits : ∀ {m : Nat} {d : Char}, d ∈ Nat.toDigits 10 m → d ≠ '\n' := by
    rintro m d hd rfl
    exact nomatch Nat.isDigit_of_mem_toDigits (by decide) (by decide) hd
  cases n with
  | ofNat m =>
    have htext : (toString (Int.ofNat m)).toList = Nat.toDigits 10 m := Nat.toList_repr
    exact hdigits (htext ▸ hc)
  | negSucc m =>
    have htext : (toString (Int.negSucc m)).toList = '-' :: Nat.toDigits 10 (m + 1) := by
      change ("-" ++ Nat.repr (m + 1)).toList = _
      rw [String.toList_append, Nat.toList_repr]
      rfl
    rw [htext] at hc
    rcases List.mem_cons.mp hc with rfl | hc
    · decide
    · exact hdigits hc

theorem Router.route_fetch (hrouter : Router.withDefaults probe beacon = .ok router) (height : Int64) :
    router.route { path := Entropy.fetchPath height, height } =
      entropyFetch beacon (toString height.toInt) { path := Entropy.fetchPath height, height } := by
  obtain rfl := Except.ok.inj ((Router.withDefaults_eq probe beacon).symm.trans hrouter)
  have htext : (Entropy.fetchPath height).toList =
      "/baseline/entropy/fetch/".toList ++ (toString height.toInt).toList := String.toList_append
  have hother : ∀ {a b}, ¬ '/' :: 'p' :: a <+: '/' :: 'b' :: b := by simp [List.cons_prefix_cons]
  have hpeer : ¬ "/p2p/filter/addr/".toList <+: (Entropy.fetchPath height).toList := by
    rw [htext]
    exact hother
  have hentropy := argument?_beginning htext fun c hc => notLineFeed_of_mem_toString hc
  rw [String.ofList_toList] at hentropy
  rw [Router.route, argument?_beginning_none hpeer]
  dsimp only
  rw [Router.route, hentropy]

end StakeLedger.Query
