import StakeLedger.Text.Word

/-!
Patterns of text. A pattern is tried from left to right; of two ways to match the preferred one is
tried first, and the earliest place in the text where it matches counts.
-/

namespace StakeLedger.Query

structure CharSet where
  ranges : List (Nat × Nat)
  negated : Bool := false
  deriving DecidableEq, Repr

namespace CharSet

def contains (s : CharSet) (c : Char) : Bool :=
  (s.ranges.any fun (low, high) => low ≤ c.toNat && c.toNat ≤ high) != s.negated

def single (c : Char) : CharSet := { ranges := [(c.toNat, c.toNat)] }

def notLineFeed : CharSet := { ranges := [(10, 10)], negated := true }

def any : CharSet := { ranges := [], negated := true }

end CharSet

inductive Pattern
  | empty
  | one (s : CharSet)
  | textStart
  | textEnd
  | lineStart
  | lineEnd
  | wordBoundary (present : Bool)
  | seq (p q : Pattern)
  /-- The first is preferred. -/
  | either (p q : Pattern)
  | group (number : Nat) (p : Pattern)
  /-- Once or more; as often as possible when greedy. -/
  | many (greedy : Bool) (p : Pattern)
  deriving DecidableEq, Repr

def Pattern.size : Pattern → Nat
  | seq p q | either p q => p.size + q.size + 1
  | group _ p | many _ p => p.size + 1
  | _ => 1

structure Place where
  before : Option Char
  rest : List Char
  offset : Nat
  first : Option (List Char)
  deriving DecidableEq, Repr

abbrev Matcher := Place → (Place → Option Place) → Option Place

namespace Matcher

def one (s : CharSet) : Matcher := fun here k =>
  match here.rest with
  | [] => none
  | c :: rest => if s.contains c then k { here with before := some c, rest, offset := here.offset + 1 }
    else none

def when (condition : Place → Bool) : Matcher := fun here k => if condition here then k here else none

def iterate (m : Matcher) (greedy : Bool) : Nat → Matcher
  | 0, here, k => k here
  | n + 1, here, k =>
    let more (_ : Unit) := m here fun there =>
      if here.offset < there.offset then iterate m greedy n there k else none
    if greedy then
      match more () with
      | some x => some x
      | none => k here
    else
      match k here with
      | some x => some x
      | none => more ()

def many (m : Matcher) (greedy : Bool) : Matcher := fun here k =>
  m here fun there =>
    if here.offset < there.offset then iterate m greedy there.rest.length there k else k there

def group (number : Nat) (m : Matcher) : Matcher := fun here k =>
  m here fun there =>
    k (if number = 1 then { there with first := some (here.rest.take (there.offset - here.offset)) }
      else there)

end Matcher

def isWord (c : Char) : Bool := CharSet.contains { ranges := Text.wordRanges } c

def atBoundary (here : Place) : Bool := here.before.any isWord != here.rest.head?.any isWord

def Pattern.matcher : Pattern → Matcher
  | empty => fun here k => k here
  | one s => Matcher.one s
  | textStart => Matcher.when fun here => here.offset == 0
  | textEnd => Matcher.when fun here => here.rest.isEmpty
  | lineStart => Matcher.when fun here => here.before.all (· == '\n')
  | lineEnd => Matcher.when fun here => here.rest.head?.all (· == '\n')
  | wordBoundary present => Matcher.when fun here => atBoundary here == present
  | seq p q => fun here k => p.matcher here fun there => q.matcher there k
  | either p q => fun here k =>
    match p.matcher here k with
    | some x => some x
    | none => q.matcher here k
  | group number p => Matcher.group number p.matcher
  | many greedy p => Matcher.many p.matcher greedy

def Pattern.search (p : Pattern) (before : Option Char) (offset : Nat) (text : List Char) :
    Option Place :=
  match p.matcher ⟨before, text, offset, none⟩ some with
  | some x => some x
  | none =>
    match text with
    | [] => none
    | c :: rest => p.search (some c) (offset + 1) rest

/-- What the first group matched, empty when it took no part; none when the pattern does not match. -/
def Pattern.argument? (p : Pattern) (text : String) : Option String :=
  (p.search none 0 text.toList).map fun place => .ofList (place.first.getD [])

end StakeLedger.Query
