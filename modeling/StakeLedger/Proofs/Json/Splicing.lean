import Mathlib.Data.List.Induction
import Mathlib.Tactic.SplitIfs
import StakeLedger.Json.Token
import StakeLedger.Proofs.Bytes.Utf8

/-! A string in the place of a number, in the text of a document. Main statement: `tokens_decode_splice`. -/

namespace StakeLedger.Json

namespace Lexer

variable {s : State} {ts : List Token} {cs ds : List (Option Char)} {c : Option Char} {mode m : Mode}
  {new : List Token} {part : NumberPart} {l : Literal}

def run (s : State) (cs : List (Option Char)) : State := cs.foldl step s

theorem run_append : run s (cs ++ ds) = run (run s cs) ds := List.foldl_append

/-! ### What a character does -/

def IsNumber : Token → Prop
  | .number _ => True
  | _ => False

def Mode.IsNumber : Mode → Prop
  | .number _ _ => True
  | _ => False

def Mode.Sound : Mode → Prop
  | .word _ token => ¬ Lexer.IsNumber token
  | .broken => False
  | _ => True

def NumberPart.Last (part : NumberPart) : Prop :=
  part = .zero ∨ part = .whole ∨ part = .fraction ∨ part = .exponentDigits

def value (l : Literal) : Token := .number (Number.ofLiteral? (Literal.inOrder l))

inductive Turn (c : Option Char) : Mode → Mode → List Token → Prop
  | stays {mode : Mode} : Turn c mode mode []
  | moves {mode m : Mode} : m.Sound → (m.IsNumber → mode = .between ∨ mode.IsNumber) → Turn c mode m []
  | emits {mode : Mode} {token : Token} : ¬ IsNumber token → Turn c mode .between [token]
  | fails {mode : Mode} (n : Nat) : Turn c mode .broken (.fault :: List.replicate n .fault)
  | ends {part : NumberPart} {l : Literal} {m : Mode} {new : List Token} : part.Last →
    (∀ ts, step ⟨.between, ts⟩ c = ⟨m, new ++ ts⟩) → Turn c .between m new →
    Turn c (.number part l) m (new ++ [value l])

def Does (mode : Mode) (c : Option Char) (f : List Token → State) : Prop :=
  ∃ m new, Turn c mode m new ∧ ∀ ts, f ts = ⟨m, new ++ ts⟩

theorem does_fault : Does mode c fun ts => State.fault ⟨mode, ts⟩ :=
  ⟨.broken, [.fault], .fails 0, fun _ => rfl⟩

theorem does_emit (token : Token) (h : ¬ IsNumber token) : Does mode c fun ts => State.emit ⟨mode, ts⟩ token :=
  ⟨.between, [token], .emits h, fun _ => rfl⟩

theorem does_move (m : Mode) (hm : m.Sound) (hn : m.IsNumber → mode = .between ∨ mode.IsNumber) :
    Does mode c fun ts => ⟨m, ts⟩ :=
  ⟨m, [], .moves hm hn, fun _ => rfl⟩

theorem does_ite {p : Prop} [Decidable p] {f g : List Token → State} (hf : Does mode c f) (hg : Does mode c g) :
    Does mode c fun ts => if p then f ts else g ts := by
  by_cases hp : p
  · simpa only [if_pos hp] using hf
  · simpa only [if_neg hp] using hg

theorem does_beginToken (d : Char) : Does .between c fun ts => beginToken ⟨.between, ts⟩ d := by
  have hnumber : ∀ part negative whole, Does .between c fun ts =>
      ⟨.number part ⟨negative, whole, none, none⟩, ts⟩ := fun _ _ _ => does_move (.number _ _) trivial fun _ => .inl rfl
  have hword : ∀ letters token, ¬ IsNumber token → Does .between c fun ts => ⟨.word letters token, ts⟩ :=
    fun letters token h => does_move (.word letters token) h False.elim
  refine does_ite ⟨.between, [], .stays, fun _ => rfl⟩ ?_
  refine does_ite (does_emit .openList id) <| does_ite (does_emit .closeList id) ?_
  refine does_ite (does_emit .openRecord id) <| does_ite (does_emit .closeRecord id) ?_
  refine does_ite (does_emit .colon id) <| does_ite (does_emit .comma id) ?_
  refine does_ite (does_move (.quoted _) trivial False.elim) ?_
  refine does_ite (hword _ .null id) <| does_ite (hword _ (.bool true) id) ?_
  refine does_ite (hword _ (.bool false) id) <| does_ite (hnumber _ _ _) <| does_ite (hnumber _ _ _) ?_
  cases digit? d with
  | none => exact does_fault
  | some n => exact hnumber _ _ _

theorem does_stepQuoted (q : Quoted) : Does (.quoted q) c fun ts => stepQuoted ⟨.quoted q, ts⟩ q c := by
  have hgo : ∀ q', Does (.quoted q) c fun ts => ⟨.quoted q', ts⟩ := fun q' =>
    does_move (.quoted q') trivial False.elim
  obtain ⟨chars, sound, lead, part⟩ := q
  cases part with
  | plain =>
    cases c with
    | none => exact hgo _
    | some c => exact does_ite (does_emit (.text _) id) <| does_ite (hgo _) <| does_ite does_fault (hgo _)
  | escape =>
    cases c with
    | none => exact does_fault
    | some c =>
      refine does_ite (hgo _) ?_
      cases escaped? c with
      | none => exact does_fault
      | some e => exact hgo _
  | unicode digits unit =>
    cases c with
    | none => exact does_fault
    | some c =>
      simp only [stepQuoted]
      cases hexDigit? c with
      | none => exact does_fault
      | some d => exact does_ite (hgo _) (hgo _)

theorem endNumber_last (h : part.Last) : endNumber ⟨.number part l, ts⟩ part l = ⟨.between, value l :: ts⟩ := by
  rcases h with rfl | rfl | rfl | rfl <;> rfl

theorem endNumber_not_last (h : ¬ part.Last) :
    endNumber ⟨.number part l, ts⟩ part l = ⟨.broken, .fault :: ts⟩ := by
  cases part <;> first | rfl | exact absurd (by simp [NumberPart.Last]) h

theorem last_of_continueNumber {d : Char} (h : continueNumber part l d = none) : part.Last := by
  cases part with
  | zero => exact .inl rfl
  | whole => exact .inr (.inl rfl)
  | fraction => exact .inr (.inr (.inl rfl))
  | exponentDigits => exact .inr (.inr (.inr rfl))
  | exponent =>
    simp only [continueNumber] at h
    cases hd : digit? d with
    | some n =>
      rw [hd] at h
      cases h
    | none =>
      rw [hd] at h
      dsimp only at h
      split_ifs at h
  | _ =>
    simp only [continueNumber] at h
    cases hd : digit? d with
    | some n =>
      rw [hd] at h
      cases h
    | none =>
      rw [hd] at h
      cases h

theorem does_number_none : Does (.number part l) none fun ts => step ⟨.number part l, ts⟩ none := by
  by_cases hlast : part.Last
  · refine ⟨.broken, [.fault] ++ [value l], .ends hlast (fun _ => rfl) (.fails 0), fun ts => ?_⟩
    change State.fault (endNumber _ part l) = _
    rw [endNumber_last hlast]
    rfl
  · refine ⟨.broken, [.fault, .fault], .fails 1, fun ts => ?_⟩
    change State.fault (endNumber _ part l) = _
    rw [endNumber_not_last hlast]
    rfl

theorem does_number_some (d : Char) : Does (.number part l) (some d) fun ts => step ⟨.number part l, ts⟩ (some d) := by
  cases hnext : continueNumber part l d with
  | some next =>
    cases next with
    | ok next =>
      refine ⟨.number next.1 next.2, [], .moves trivial fun _ => .inr trivial, fun ts => ?_⟩
      simp only [step, hnext]
      rfl
    | error e =>
      refine ⟨.broken, [.fault], .fails 0, fun ts => ?_⟩
      simp only [step, hnext]
      rfl
  | none =>
    have hlast := last_of_continueNumber hnext
    obtain ⟨m, new, hturn, hdoes⟩ := does_beginToken (c := some d) d
    refine ⟨m, new ++ [value l], .ends hlast hdoes hturn, fun ts => ?_⟩
    simp only [step, hnext]
    rw [endNumber_last hlast, List.append_assoc]
    exact hdoes _

theorem does_step (hmode : mode.Sound) (c : Option Char) : Does mode c fun ts => step ⟨mode, ts⟩ c := by
  cases mode with
  | between =>
    cases c with
    | none => exact does_fault
    | some c => exact does_beginToken c
  | word letters token =>
    cases c with
    | none => exact does_fault
    | some c =>
      match letters with
      | [] => exact does_fault
      | [r] => exact does_ite (does_emit token hmode) does_fault
      | r :: r' :: letters => exact does_ite (does_move (.word _ token) hmode False.elim) does_fault
  | number part l =>
    cases c with
    | none => exact does_number_none
    | some c => exact does_number_some c
  | quoted q => exact does_stepQuoted q
  | broken => exact hmode.elim

/-! ### What characters do -/

def State.Lawful (s : State) : Prop := s.mode.Sound ∨ s.mode = .broken ∧ .fault ∈ s.tokens

theorem Turn.sound (h : Turn c mode m new) (hmode : mode.Sound) : m.Sound ∨ m = .broken ∧ .fault ∈ new := by
  induction h with
  | stays => exact .inl hmode
  | moves hm => exact .inl hm
  | emits => exact .inl trivial
  | fails => exact .inr ⟨rfl, List.mem_cons_self⟩
  | ends _ _ _ ih => exact (ih trivial).imp_right fun ⟨hm, hnew⟩ => ⟨hm, List.mem_append_left _ hnew⟩

theorem Turn.not_isNumber (h : Turn c mode m new) (hmode : ¬ mode.IsNumber) : ∀ t ∈ new, ¬ IsNumber t := by
  cases h with
  | stays => exact List.forall_mem_nil _
  | moves => exact List.forall_mem_nil _
  | emits ht => exact List.forall_mem_singleton.mpr ht
  | fails n =>
    refine List.forall_mem_cons.mpr ⟨id, fun t ht => ?_⟩
    rw [List.eq_of_mem_replicate ht]
    exact id
  | ends => exact absurd trivial hmode

theorem step_broken (h : s.mode = .broken) : step s c = s := by
  obtain ⟨mode, ts⟩ := s
  obtain rfl : mode = .broken := h
  cases c <;> rfl

theorem State.Lawful.step (h : s.Lawful) : (Lexer.step s c).Lawful := by
  rcases h with h | h
  · obtain ⟨m, new, hturn, hdoes⟩ := does_step h c
    have hstep : Lexer.step s c = ⟨m, new ++ s.tokens⟩ := hdoes s.tokens
    rw [hstep]
    exact (hturn.sound h).imp_right fun ⟨hm, hnew⟩ => ⟨hm, List.mem_append_left _ hnew⟩
  · rw [step_broken h.1]
    exact .inr h

theorem lawful_run (cs : List (Option Char)) : (run ⟨.between, []⟩ cs).Lawful := by
  induction cs using List.reverseRecOn with
  | nil => exact .inl trivial
  | append_singleton cs c ih =>
    rw [run_append]
    exact ih.step

theorem run_eq (h : mode.Sound ∨ mode = .broken) (cs : List (Option Char)) :
    ∃ m new, ∀ ts, run ⟨mode, ts⟩ cs = ⟨m, new ++ ts⟩ := by
  induction cs generalizing mode with
  | nil => exact ⟨mode, [], fun _ => rfl⟩
  | cons c cs ih =>
    rcases h with h | h
    · obtain ⟨m, new, hturn, hdoes⟩ := does_step h c
      obtain ⟨m', later, hlater⟩ := ih ((hturn.sound h).imp_right And.left)
      refine ⟨m', later ++ new, fun ts => ?_⟩
      have hstep : Lexer.step ⟨mode, ts⟩ c = ⟨m, new ++ ts⟩ := hdoes ts
      change run (step ⟨mode, ts⟩ c) cs = _
      rw [hstep, hlater, List.append_assoc]
    · obtain ⟨m', later, hlater⟩ := ih (.inr h)
      refine ⟨m', later, fun ts => ?_⟩
      change run (step ⟨mode, ts⟩ c) cs = _
      rw [step_broken h, hlater]

theorem finish_eq (m : Mode) : ∃ last, (∀ ts, finish ⟨m, ts⟩ = (last ++ ts).reverse) ∧
    ((∀ t ∈ last, ¬ IsNumber t) ∨ ∃ part l, m = .number part l ∧ part.Last ∧ last = [value l]) := by
  cases m with
  | between => exact ⟨[], fun _ => rfl, .inl (List.forall_mem_nil _)⟩
  | broken => exact ⟨[], fun _ => rfl, .inl (List.forall_mem_nil _)⟩
  | word letters token => exact ⟨[.fault], fun _ => rfl, .inl (List.forall_mem_singleton.mpr id)⟩
  | quoted q => exact ⟨[.fault], fun _ => rfl, .inl (List.forall_mem_singleton.mpr id)⟩
  | number part l =>
    by_cases hlast : part.Last
    · refine ⟨[value l], fun ts => ?_, .inr ⟨part, l, rfl, hlast, rfl⟩⟩
      simp only [finish]
      rw [endNumber_last hlast]
      rfl
    · refine ⟨[.fault], fun ts => ?_, .inl (List.forall_mem_singleton.mpr id)⟩
      simp only [finish]
      rw [endNumber_not_last hlast]
      rfl

/-! ### Where a number stands -/

theorem eq_append_of_notMem {α : Type} {new ts after before : List α} {t : α} (h : new ++ ts = after ++ t :: before)
    (ht : t ∉ new) : ∃ later, ts = later ++ t :: before := by
  rcases List.append_eq_append_iff.mp h with ⟨later, -, hts⟩ | ⟨later, hnew, hrest⟩
  · exact ⟨later, hts⟩
  · cases later with
    | nil => exact ⟨[], hrest.symm⟩
    | cons t' later =>
      cases hrest
      exact absurd (hnew ▸ List.mem_append_right _ List.mem_cons_self) ht

theorem exists_number_of_turn {t : Token} {before after : List Token} (ht : IsNumber t) (hturn : Turn c mode m new)
    (h : new ++ ts = after ++ t :: before) :
    (∃ later, ts = later ++ t :: before) ∨
      ∃ part l, mode = .number part l ∧ part.Last ∧ t = value l ∧ before = ts ∧
        ∃ new', new = new' ++ [t] ∧ step ⟨.between, t :: ts⟩ c = ⟨m, new' ++ t :: ts⟩ := by
  -- no new token is a number, but for the one that ends
  cases hturn with
  | @ends part l m new hlast hdoes hinner =>
    rw [List.append_assoc] at h
    obtain ⟨later, hlater⟩ := eq_append_of_notMem h fun hmem => hinner.not_isNumber id t hmem ht
    cases later with
    | nil =>
      cases hlater
      exact .inr ⟨part, l, rfl, hlast, rfl, rfl, new, rfl, hdoes _⟩
    | cons t' later => exact .inl ⟨later, (List.cons.inj hlater).2⟩
  | stays => exact .inl ⟨after, h⟩
  | moves => exact .inl ⟨after, h⟩
  | emits htoken =>
    exact .inl (eq_append_of_notMem h fun hmem => htoken (List.mem_singleton.mp hmem ▸ ht))
  | fails n =>
    have hfault : ∀ t' ∈ Token.fault :: List.replicate n .fault, t' = .fault :=
      List.forall_mem_cons.mpr ⟨rfl, fun t' => List.eq_of_mem_replicate⟩
    refine .inl (eq_append_of_notMem h fun hmem => ?_)
    rw [hfault t hmem] at ht
    exact ht

def Ended {γ : Type} (outcome : State → γ) (cs : List (Option Char)) (t : Token) (before : List Token) : Prop :=
  ∃ p q part l, cs = p ++ q ∧ run ⟨.between, []⟩ p = ⟨.number part l, before⟩ ∧ part.Last ∧ t = value l ∧
    outcome (run ⟨.number part l, before⟩ q) = outcome (run ⟨.between, t :: before⟩ q)

variable {t : Token} {before after : List Token}

theorem Ended.concat (h : Ended id cs t before) (c : Option Char) : Ended id (cs ++ [c]) t before := by
  obtain ⟨p, q, part, l, rfl, hp, hlast, hvalue, hq⟩ := h
  have hsame : run ⟨.number part l, before⟩ q = run ⟨.between, t :: before⟩ q := hq
  refine ⟨p, q ++ [c], part, l, List.append_assoc _ _ _, hp, hlast, hvalue, ?_⟩
  rw [run_append, hsame, run_append]

theorem Ended.finish (h : Ended id cs t before) : Ended Lexer.finish cs t before := by
  obtain ⟨p, q, part, l, hcs, hp, hlast, hvalue, hq⟩ := h
  exact ⟨p, q, part, l, hcs, hp, hlast, hvalue, congrArg Lexer.finish hq⟩

theorem ended_of_tokens (ht : IsNumber t) (h : (run ⟨.between, []⟩ cs).tokens = after ++ t :: before) :
    Ended id cs t before := by
  -- on the last character: the number was there before it, or ends with it
  induction cs using List.reverseRecOn generalizing after with
  | nil => cases after <;> cases h
  | append_singleton cs c ih =>
    rw [run_append] at h
    rcases lawful_run cs with hsound | hbroken
    · obtain ⟨m, new, hturn, hdoes⟩ := does_step hsound c
      have hstep : ∀ ts, run ⟨(run ⟨.between, []⟩ cs).mode, ts⟩ [c] = ⟨m, new ++ ts⟩ := hdoes
      rw [hstep] at h
      rcases exists_number_of_turn ht hturn h with
        ⟨later, hlater⟩ | ⟨part, l, hmode, hlast, hvalue, hbefore, new', hnew, hnext⟩
      · exact (ih hlater).concat c
      · refine ⟨cs, [c], part, l, rfl, ?_, hlast, hvalue, ?_⟩
        · rw [hbefore, ← hmode]
        · rw [← hmode, hbefore, hstep, hnew, List.append_assoc]
          exact hnext.symm
    · have hstep : run (run ⟨.between, []⟩ cs) [c] = run ⟨.between, []⟩ cs := step_broken hbroken.1
      rw [hstep] at h
      exact (ih h).concat c

theorem ended_of_finish (ht : IsNumber t) (h : finish (run ⟨.between, []⟩ cs) = (after ++ t :: before).reverse) :
    Ended finish cs t before := by
  obtain ⟨last, hfinish, hlast⟩ := finish_eq (run ⟨.between, []⟩ cs).mode
  have htokens : last ++ (run ⟨.between, []⟩ cs).tokens = after ++ t :: before :=
    List.reverse_inj.mp ((hfinish _).symm.trans h)
  rcases hlast with hlast | ⟨part, l, hmode, hpart, rfl⟩
  · obtain ⟨later, hlater⟩ := eq_append_of_notMem htokens fun hmem => hlast t hmem ht
    exact (ended_of_tokens ht hlater).finish
  · cases after with
    | nil =>
      obtain ⟨hvalue, hbefore⟩ := List.cons.inj htokens
      refine ⟨cs, [], part, l, (List.append_nil cs).symm, ?_, hpart, hvalue.symm, ?_⟩
      · rw [← hbefore, ← hmode]
        rfl
      · have hend : finish ⟨.number part l, before⟩ = _ := hmode ▸ hfinish before
        exact hend.trans (by rw [hvalue]; rfl)
    | cons t' after => exact (ended_of_tokens ht (List.cons.inj htokens).2).finish

theorem Turn.into_number (h : Turn c mode (.number part l) new) :
    new = [] ∧ (mode = .between ∨ mode.IsNumber) ∨
      ∃ t, IsNumber t ∧ new = [t] ∧ ∀ ts, step ⟨.between, t :: ts⟩ c = ⟨.number part l, t :: ts⟩ := by
  cases h with
  | stays => exact .inl ⟨rfl, .inr trivial⟩
  | moves _ hm => exact .inl ⟨rfl, hm trivial⟩
  | @ends part' l' _ new _ hdoes hinner =>
    cases hinner with
    | moves => exact .inr ⟨value l', trivial, rfl, fun ts => hdoes _⟩

theorem exists_begun {p : List (Option Char)} (h : run ⟨.between, []⟩ p = ⟨.number part l, ts⟩) :
    ∃ p' lit, p = p' ++ lit ∧ (run ⟨.between, []⟩ p' = ⟨.between, ts⟩ ∨ ∃ t ∈ ts.head?, IsNumber t) ∧
      run ⟨.between, ts⟩ lit = ⟨.number part l, ts⟩ := by
  induction p using List.reverseRecOn generalizing part l with
  | nil => cases h
  | append_singleton p c ih =>
    rw [run_append] at h
    rcases lawful_run p with hsound | hbroken
    · generalize hs : run ⟨.between, []⟩ p = s at h hsound ih
      obtain ⟨mode, before⟩ := s
      obtain ⟨m, new, hturn, hdoes⟩ := does_step hsound c
      have hstep : ∀ ts, run ⟨mode, ts⟩ [c] = ⟨m, new ++ ts⟩ := hdoes
      rw [hstep] at h
      cases h
      -- it begins here, goes on, or begins where another ends
      rcases hturn.into_number with ⟨rfl, rfl | hnumber⟩ | ⟨t, ht, rfl, hnext⟩
      · exact ⟨p, [c], rfl, .inl hs, hstep _⟩
      · cases mode with
        | number part' l' =>
          obtain ⟨p', lit, rfl, hbegun, hlit⟩ := ih rfl
          refine ⟨p', lit ++ [c], List.append_assoc _ _ _, hbegun, ?_⟩
          have hfirst : run ⟨.between, before⟩ lit = ⟨.number part' l', before⟩ := hlit
          change run ⟨.between, before⟩ (lit ++ [c]) = _
          rw [run_append, hfirst, hstep]
        | _ => exact hnumber.elim
      · exact ⟨p, [c], rfl, .inr ⟨t, rfl, ht⟩, hnext before⟩
    · have hstep : run (run ⟨.between, []⟩ p) [c] = run ⟨.between, []⟩ p := step_broken hbroken.1
      rw [hstep] at h
      rw [h] at hbroken
      cases hbroken.1

/-! ### Another token in its place -/

theorem finish_run (cs : List (Option Char)) : ∃ out, ∀ ts, finish (run ⟨.between, ts⟩ cs) = ts.reverse ++ out := by
  obtain ⟨m, new, hrun⟩ := run_eq (@Or.inl (Mode.Sound .between) _ trivial) cs
  obtain ⟨last, hfinish, -⟩ := finish_eq m
  refine ⟨(last ++ new).reverse, fun ts => ?_⟩
  rw [hrun, hfinish, ← List.append_assoc, List.reverse_append]

theorem mode_step_none (s : State) : (step s none).mode = .broken ∨ ∃ q, (step s none).mode = .quoted q := by
  obtain ⟨mode, ts⟩ := s
  cases mode with
  | quoted q =>
    obtain ⟨chars, sound, lead, part⟩ := q
    cases part with
    | plain => exact .inr ⟨_, rfl⟩
    | _ => exact .inl rfl
  | _ => exact .inl rfl

theorem none_notMem_getLast? (h : (run s cs).mode = .between ∨ (run s cs).mode.IsNumber) : none ∉ cs.getLast? := by
  rcases List.eq_nil_or_concat cs with rfl | ⟨cs, c, rfl⟩
  · exact nofun
  · rw [List.concat_eq_append] at h ⊢
    rw [List.getLast?_concat]
    rintro ⟨⟩
    rw [run_append] at h
    change (step _ none).mode = _ ∨ (step _ none).mode.IsNumber at h
    rcases mode_step_none (run s cs) with hm | ⟨q, hm⟩
    · rw [hm] at h
      rcases h with h | h
      · cases h
      · exact h
    · rw [hm] at h
      rcases h with h | h
      · cases h
      · exact h

theorem run_of_tokens {y : Token} (h : tokens cs = [y]) (hy : ¬ IsNumber y) (hf : y ≠ .fault) (ts : List Token) :
    run ⟨.between, ts⟩ cs = ⟨.between, y :: ts⟩ := by
  have hfault : ∀ {tokens : List Token}, tokens.reverse = [y] → .fault ∉ tokens := fun hreverse hmem =>
    hf (List.mem_singleton.mp (hreverse ▸ List.mem_reverse.mpr hmem)).symm
  have hone : ∀ {tokens : List Token}, tokens.reverse = [y] → tokens = [y] := fun hreverse =>
    List.reverse_inj.mp (hreverse.trans List.reverse_singleton.symm)
  have hself : run ⟨.between, []⟩ cs = ⟨.between, [y]⟩ := by
    have hlawful := lawful_run cs
    change finish (run ⟨.between, []⟩ cs) = [y] at h
    generalize run ⟨.between, []⟩ cs = s at h hlawful
    obtain ⟨mode, before⟩ := s
    cases mode with
    | between => exact congrArg (State.mk .between) (hone h)
    | broken =>
      rcases hlawful with hsound | hbroken
      · exact hsound.elim
      · exact absurd hbroken.2 (hfault h)
    | word letters token => exact absurd List.mem_cons_self (@hfault (.fault :: before) h)
    | quoted q => exact absurd List.mem_cons_self (@hfault (.fault :: before) h)
    | number part l =>
      simp only [finish] at h
      by_cases hlast : part.Last
      · rw [endNumber_last hlast] at h
        obtain ⟨hvalue, -⟩ := List.cons.inj (hone h)
        rw [← hvalue] at hy
        exact absurd trivial hy
      · rw [endNumber_not_last hlast] at h
        exact absurd List.mem_cons_self (hfault h)
  obtain ⟨m, new, hrun⟩ := run_eq (@Or.inl (Mode.Sound .between) _ trivial) cs
  have hnew := (hrun []).symm.trans hself
  rw [List.append_nil] at hnew
  cases hnew
  exact hrun ts

end Lexer

/-- A number among the tokens of a text, not right after another, is a number by itself, and any text that is another
token may stand in its place. -/
theorem tokens_splice {t : Token} {a b : List Token} {cs : List (Option Char)} (h : tokens cs = a ++ t :: b)
    (ht : Lexer.IsNumber t) (ha : ∀ t' ∈ a.getLast?, ¬ Lexer.IsNumber t') :
    ∃ p lit q, cs = p ++ (lit ++ q) ∧ tokens lit = [t] ∧ none ∉ p.getLast? ∧ none ∉ lit.getLast? ∧
      ∀ w y, tokens w = [y] → ¬ Lexer.IsNumber y → y ≠ .fault → none ∉ w.getLast? ∧
        tokens (p ++ (w ++ q)) = a ++ y :: b := by
  have hreverse : a ++ t :: b = (b.reverse ++ t :: a.reverse).reverse := by simp
  obtain ⟨p, q, part, l, rfl, hp, hlast, rfl, hq⟩ := Lexer.ended_of_finish ht (h.trans hreverse)
  obtain ⟨p, lit, rfl, hbegun, hlit⟩ := Lexer.exists_begun hp
  have hbetween : Lexer.run ⟨.between, []⟩ p = ⟨.between, a.reverse⟩ := by
    -- a number that ended where this one begins would be the last token of `a`
    rcases hbegun with hbetween | ⟨t', ht', hnumber⟩
    · exact hbetween
    · rw [List.head?_reverse] at ht'
      exact absurd hnumber (ha t' ht')
  have hall : ∀ cs, tokens (p ++ (cs ++ q)) =
      Lexer.finish (Lexer.run (Lexer.run (Lexer.run ⟨.between, []⟩ p) cs) q) := by
    intro cs
    rw [← Lexer.run_append, ← Lexer.run_append]
    rfl
  obtain ⟨out, hout⟩ := Lexer.finish_run q
  have hnumber : (Lexer.run ⟨.between, a.reverse⟩ lit).mode.IsNumber := by
    rw [hlit]
    trivial
  refine ⟨p, lit, q, List.append_assoc _ _ _, ?_,
    Lexer.none_notMem_getLast? (.inl (congrArg Lexer.State.mode hbetween)), Lexer.none_notMem_getLast? (.inr hnumber), fun w y hw hy hf => ⟨?_, ?_⟩⟩
  · obtain ⟨m, new, hrun⟩ := Lexer.run_eq (@Or.inl (Lexer.Mode.Sound .between) _ trivial) lit
    have hnew := (hrun _).symm.trans hlit
    obtain ⟨rfl, hempty⟩ := Lexer.State.mk.inj hnew
    obtain rfl := List.append_left_eq_self.mp hempty
    change Lexer.finish (Lexer.run ⟨.between, []⟩ lit) = _
    rw [hrun, Lexer.finish]
    dsimp only
    rw [Lexer.endNumber_last hlast]
    rfl
  · exact Lexer.none_notMem_getLast? (.inl (congrArg Lexer.State.mode (Lexer.run_of_tokens hw hy hf [])))
  · have hb : out = b := by
      rw [List.append_assoc, hall, hbetween, hlit, hq, hout, List.reverse_cons, List.reverse_reverse,
        List.append_assoc] at h
      exact (List.cons.inj (List.append_cancel_left h)).2
    rw [hall, hbetween, Lexer.run_of_tokens hw hy hf, hout, hb, List.reverse_cons, List.reverse_reverse,
      List.append_assoc]
    rfl

theorem tokens_decode_splice {n : Option Number} {a b : List Token} {content : Bytes}
    (h : tokens (Utf8.decode content) = a ++ .number n :: b) (ha : ∀ t ∈ a.getLast?, ¬ Lexer.IsNumber t) :
    ∃ pre lit post, content = pre ++ lit ++ post ∧ tokens (Utf8.decode lit) = [.number n] ∧
      ∀ quoted s, tokens (Utf8.decode quoted) = [.text s] →
        tokens (Utf8.decode (pre ++ quoted ++ post)) = a ++ .text s :: b := by
  obtain ⟨p, lit, q, hcs, hlit, hlastp, hlastlit, hsplice⟩ := tokens_splice h trivial ha
  obtain ⟨pre, rest, rfl, rfl, hrest⟩ := Utf8.decode_eq_append hcs hlastp
  obtain ⟨lit, post, rfl, rfl, rfl⟩ := Utf8.decode_eq_append hrest hlastlit
  refine ⟨pre, lit, post, (List.append_assoc _ _ _).symm, hlit, fun quoted s hquoted => ?_⟩
  obtain ⟨hlast, htokens⟩ := hsplice _ (.text s) hquoted id nofun
  rwa [List.append_assoc, Utf8.decode_append hlastp, Utf8.decode_append hlast]

end StakeLedger.Json
