import StakeLedger.Json.Basic
import StakeLedger.Bytes.Utf8

/-!
The tokens of a document, read character by character. A text that stops being a document ends in
the token `fault`; nothing after it is read.
-/

namespace StakeLedger.Json

inductive Token
  | openList
  | closeList
  | openRecord
  | closeRecord
  | colon
  | comma
  | null
  | bool (b : Bool)
  | number (n : Option Number)
  | text (s : Option String)
  | fault
  deriving DecidableEq, Repr

namespace Lexer

inductive Part
  | plain
  | escape
  | unicode (digits value : Nat)
  deriving DecidableEq, Repr

structure Quoted where
  chars : List Char
  sound : Bool
  lead : Option Nat
  part : Part
  deriving Repr

inductive NumberPart
  | minus
  | zero
  | whole
  | point
  | fraction
  | exponent
  | exponentSign
  | exponentDigits
  deriving DecidableEq, Repr

inductive Mode
  | between
  | word (rest : List Char) (token : Token)
  | number (part : NumberPart) (literal : Literal)
  | quoted (q : Quoted)
  | broken
  deriving Repr

structure State where
  mode : Mode
  tokens : List Token
  deriving Repr

def State.emit (s : State) (t : Token) : State := ⟨.between, t :: s.tokens⟩

def State.fault (s : State) : State := ⟨.broken, .fault :: s.tokens⟩

def digit? (c : Char) : Option Nat := if c.isDigit then some (c.toNat - 48) else none

def hexDigit? (c : Char) : Option Nat :=
  if c.isDigit then some (c.toNat - 48)
  else if 'a' ≤ c ∧ c ≤ 'f' then some (c.toNat - 87)
  else if 'A' ≤ c ∧ c ≤ 'F' then some (c.toNat - 55)
  else none

def beginToken (s : State) (c : Char) : State :=
  let number (part : NumberPart) (negative : Bool) (whole : List Nat) : State :=
    { s with mode := .number part ⟨negative, whole, none, none⟩ }
  if c = ' ' ∨ c = '\n' ∨ c = '\t' ∨ c = '\r' then s
  else if c = '[' then s.emit .openList
  else if c = ']' then s.emit .closeList
  else if c = '\x7b' then s.emit .openRecord
  else if c = '\x7d' then s.emit .closeRecord
  else if c = ':' then s.emit .colon
  else if c = ',' then s.emit .comma
  else if c = '"' then { s with mode := .quoted ⟨[], true, none, .plain⟩ }
  else if c = 'n' then { s with mode := .word ['u', 'l', 'l'] .null }
  else if c = 't' then { s with mode := .word ['r', 'u', 'e'] (.bool true) }
  else if c = 'f' then { s with mode := .word ['a', 'l', 's', 'e'] (.bool false) }
  else if c = '-' then number .minus true []
  else if c = '0' then number .zero false [0]
  else match digit? c with
    | some d => number .whole false [d]
    | none => s.fault

def wholeDigits (l : Literal) (d : Nat) : Literal := { l with whole := d :: l.whole }

def fractionDigits (l : Literal) (d : Nat) : Literal :=
  { l with fraction := some (d :: l.fraction.getD []) }

def exponentDigits (l : Literal) (d : Nat) : Literal :=
  { l with exponent := some ((l.exponent.getD (false, [])).1, d :: (l.exponent.getD (false, [])).2) }

def continueNumber (part : NumberPart) (l : Literal) (c : Char) :
    Option (Except Unit (NumberPart × Literal)) :=
  let mark : Option (Except Unit (NumberPart × Literal)) :=
    if c = '.' then some (.ok (.point, { l with fraction := some [] }))
    else if c = 'e' ∨ c = 'E' then some (.ok (.exponent, { l with exponent := some (false, []) }))
    else none
  match part, digit? c with
  | .minus, some d => some (.ok (if d = 0 then .zero else .whole, wholeDigits l d))
  | .minus, none => some (.error ())
  | .zero, some _ => some (.error ())
  | .zero, none => mark
  | .whole, some d => some (.ok (.whole, wholeDigits l d))
  | .whole, none => mark
  | .point, some d => some (.ok (.fraction, fractionDigits l d))
  | .point, none => some (.error ())
  | .fraction, some d => some (.ok (.fraction, fractionDigits l d))
  | .fraction, none => if c = '.' then none else mark
  | .exponent, some d => some (.ok (.exponentDigits, exponentDigits l d))
  | .exponent, none =>
    if c = '+' then some (.ok (.exponentSign, l))
    else if c = '-' then some (.ok (.exponentSign, { l with exponent := some (true, []) }))
    else some (.error ())
  | .exponentSign, some d => some (.ok (.exponentDigits, exponentDigits l d))
  | .exponentSign, none => some (.error ())
  | .exponentDigits, some d => some (.ok (.exponentDigits, exponentDigits l d))
  | .exponentDigits, none => none

def Literal.inOrder (l : Literal) : Literal :=
  ⟨l.negative, l.whole.reverse, l.fraction.map List.reverse,
    l.exponent.map fun (negative, digits) => (negative, digits.reverse)⟩

/-- A number may end after a digit only. -/
def endNumber (s : State) (part : NumberPart) (l : Literal) : State :=
  match part with
  | .zero | .whole | .fraction | .exponentDigits =>
    s.emit (.number (Number.ofLiteral? (Literal.inOrder l)))
  | _ => s.fault

def Quoted.settle (q : Quoted) : Quoted :=
  match q.lead with
  | none => q
  | some _ => { q with sound := false, lead := none }

def Quoted.push (q : Quoted) (c : Char) : Quoted := { q.settle with chars := c :: q.chars }

def Quoted.pushUnit (q : Quoted) (n : Nat) : Quoted :=
  if 0xD800 ≤ n ∧ n < 0xDC00 then { q.settle with lead := some n, part := .plain }
  else if 0xDC00 ≤ n ∧ n < 0xE000 then
    match q.lead with
    | some lead =>
      { q with
        chars := Char.ofNat (0x10000 + (lead - 0xD800) * 0x400 + (n - 0xDC00)) :: q.chars
        lead := none, part := .plain }
    | none => { q with sound := false, part := .plain }
  else { q.push (Char.ofNat n) with part := .plain }

def escaped? (c : Char) : Option Char :=
  if c = '"' ∨ c = '\\' ∨ c = '/' then some c
  else if c = 'b' then some '\x08'
  else if c = 'f' then some '\x0c'
  else if c = 'n' then some '\n'
  else if c = 'r' then some '\r'
  else if c = 't' then some '\t'
  else none

def stepQuoted (s : State) (q : Quoted) (c : Option Char) : State :=
  let go (q : Quoted) : State := { s with mode := .quoted q }
  match q.part, c with
  | .plain, none => go { q.settle with sound := false }
  | .plain, some c =>
    if c = '"' then
      let q := q.settle
      s.emit (.text (if q.sound then some (.ofList q.chars.reverse) else none))
    else if c = '\\' then go { q with part := .escape }
    else if c.toNat < 32 then s.fault
    else go (q.push c)
  | .escape, some c =>
    if c = 'u' then go { q with part := .unicode 0 0 }
    else match escaped? c with
      | some e => go { q.push e with part := .plain }
      | none => s.fault
  | .unicode digits value, some c =>
    match hexDigit? c with
    | some d =>
      if digits = 3 then go (q.pushUnit (16 * value + d))
      else go { q with part := .unicode (digits + 1) (16 * value + d) }
    | none => s.fault
  | _, none => s.fault

def step (s : State) (c : Option Char) : State :=
  match s.mode, c with
  | .broken, _ => s
  | .quoted q, c => stepQuoted s q c
  | .number part l, none => (endNumber s part l).fault
  | _, none => s.fault
  | .between, some c => beginToken s c
  | .word rest token, some c =>
    match rest with
    | [] => s.fault
    | [r] => if c = r then s.emit token else s.fault
    | r :: rest => if c = r then { s with mode := .word rest token } else s.fault
  | .number part l, some c =>
    match continueNumber part l c with
    | some (.ok (part, l)) => { s with mode := .number part l }
    | some (.error _) => s.fault
    | none => beginToken (endNumber s part l) c

def finish (s : State) : List Token :=
  let s := match s.mode with
    | .between | .broken => s
    | .number part l => endNumber s part l
    | _ => s.fault
  s.tokens.reverse

end Lexer

def tokens (chars : List (Option Char)) : List Token :=
  Lexer.finish (chars.foldl Lexer.step ⟨.between, []⟩)

end StakeLedger.Json
