import StakeLedger.Query.Pattern
import StakeLedger.Text.Blank

/-!
Patterns read from their written form: literals, escapes, classes with their set operations, repetitions,
alternatives, groups, anchors, and the settings `i`, `m`, `s`, `U` and `u`. This is not the whole syntax.
Refused are classes by Unicode property (`\p`, `\P`), the word boundaries `\<`, `\>` and those that `\b` names in
braces, and the settings `x` and `R`. Classes stay those of Unicode when `u` is turned off, and case is
ignored for ASCII letters only.
-/

namespace StakeLedger.Query

inductive PatternFault
  | unclosedGroup
  | unopenedGroup
  | unclosedClass
  | nothingToRepeat
  | badRepetition
  | badEscape
  | badGroup
  | badRange
  | tooLarge
  deriving DecidableEq, Repr

def PatternFault.message : PatternFault → String
  | .unclosedGroup => "unclosed group"
  | .unopenedGroup => "unopened group"
  | .unclosedClass => "unclosed character class"
  | .nothingToRepeat => "repetition operator missing expression"
  | .badRepetition => "invalid repetition count"
  | .badEscape => "unrecognized escape sequence"
  | .badGroup => "unrecognized group"
  | .badRange => "invalid character class range"
  | .tooLarge => "pattern too large"

structure Flags where
  ignoreCase : Bool := false
  multiLine : Bool := false
  dotAll : Bool := false
  lazy : Bool := false
  deriving DecidableEq, Repr

namespace PatternText

abbrev Result (α : Type) := Except PatternFault (α × List Char)

def digits : CharSet := { ranges := Text.digitRanges }
def blanks : CharSet := { ranges := Text.blankRanges }
def words : CharSet := { ranges := Text.wordRanges }

def CharSet.complement (s : CharSet) : CharSet := { s with negated := !s.negated }

def gaps (low : Nat) : List (Nat × Nat) → List (Nat × Nat)
  | [] => if low ≤ 0x10FFFF then [(low, 0x10FFFF)] else []
  | (a, b) :: rest => (if low < a then [(low, a - 1)] else []) ++ gaps (max low (b + 1)) rest

def rangesOf (s : CharSet) : List (Nat × Nat) :=
  if s.negated then gaps 0 (s.ranges.mergeSort fun a b => a.1 ≤ b.1) else s.ranges

def otherCase (r : Nat × Nat) : List (Nat × Nat) :=
  let shift (low high : Nat) (by_ : Int) : List (Nat × Nat) :=
    let a := max r.1 low
    let b := min r.2 high
    if a ≤ b then [((a + by_).toNat, (b + by_).toNat)] else []
  shift 65 90 32 ++ shift 97 122 (-32)

def withCase (f : Flags) (s : CharSet) : CharSet :=
  if f.ignoreCase then { s with ranges := s.ranges ++ s.ranges.flatMap otherCase } else s

inductive Joining
  | first
  | intersection (before : CharSet)
  | difference (before : CharSet)
  | symmetricDifference (before : CharSet)

def intersect (s t : CharSet) : CharSet :=
  ⟨rangesOf (CharSet.complement s) ++ rangesOf (CharSet.complement t), true⟩

def Joining.apply (j : Joining) (s : CharSet) : CharSet :=
  match j with
  | first => s
  | intersection t => intersect t s
  | difference t => intersect t (CharSet.complement s)
  | symmetricDifference t =>
    ⟨rangesOf (intersect t (CharSet.complement s)) ++ rangesOf (intersect s (CharSet.complement t)), false⟩

def hexValue? (cs : List Char) : Option Nat :=
  if cs.isEmpty then none
  else cs.foldlM (fun n c =>
    if c.isDigit then some (16 * n + (c.toNat - 48))
    else if 'a' ≤ c ∧ c ≤ 'f' then some (16 * n + (c.toNat - 87))
    else if 'A' ≤ c ∧ c ≤ 'F' then some (16 * n + (c.toNat - 55))
    else none) 0

def codePoint (cs : List Char) : Except PatternFault Char :=
  match hexValue? cs with
  | some n => if n.isValidChar then .ok (Char.ofNat n) else .error .badEscape
  | none => .error .badEscape

def readCode (count : Nat) (cs : List Char) : Result Char :=
  match cs with
  | '\x7b' :: rest =>
    let inside := rest.takeWhile (· ≠ '\x7d')
    match rest.drop inside.length with
    | [] => .error .badEscape
    | _ :: after => (codePoint inside).map (·, after)
  | _ =>
    if cs.length < count then .error .badEscape
    else (codePoint (cs.take count)).map (·, cs.drop count)

inductive Escape
  | char (c : Char)
  | set (s : CharSet)
  | assertion (p : Pattern)

def readEscape (cs : List Char) : Result Escape :=
  match cs with
  | [] => .error .badEscape
  | c :: rest =>
    match c with
    | 'd' => .ok (.set digits, rest)
    | 'D' => .ok (.set (CharSet.complement digits), rest)
    | 's' => .ok (.set blanks, rest)
    | 'S' => .ok (.set (CharSet.complement blanks), rest)
    | 'w' => .ok (.set words, rest)
    | 'W' => .ok (.set (CharSet.complement words), rest)
    | 'A' => .ok (.assertion .textStart, rest)
    | 'z' => .ok (.assertion .textEnd, rest)
    | 'b' => .ok (.assertion (.wordBoundary true), rest)
    | 'B' => .ok (.assertion (.wordBoundary false), rest)
    | 'a' => .ok (.char '\x07', rest)
    | 'f' => .ok (.char '\x0c', rest)
    | 'n' => .ok (.char '\n', rest)
    | 'r' => .ok (.char '\r', rest)
    | 't' => .ok (.char '\t', rest)
    | 'v' => .ok (.char '\x0b', rest)
    | 'x' => (readCode 2 rest).map fun (c, rest) => (.char c, rest)
    | 'u' => (readCode 4 rest).map fun (c, rest) => (.char c, rest)
    | 'U' => (readCode 8 rest).map fun (c, rest) => (.char c, rest)
    | c =>
      if c.toNat < 128 ∧ ¬ c.isAlphanum ∧ c ≠ '<' ∧ c ≠ '>' then .ok (.char c, rest)
      else .error .badEscape

def namedClasses : List (String × List (Nat × Nat)) := [
  ("alnum", [(48, 57), (65, 90), (97, 122)]), ("alpha", [(65, 90), (97, 122)]), ("ascii", [(0, 127)]),
  ("blank", [(9, 9), (32, 32)]), ("cntrl", [(0, 31), (127, 127)]), ("digit", [(48, 57)]),
  ("graph", [(33, 126)]), ("lower", [(97, 122)]), ("print", [(32, 126)]),
  ("punct", [(33, 47), (58, 64), (91, 96), (123, 126)]), ("space", [(9, 13), (32, 32)]),
  ("upper", [(65, 90)]), ("word", [(48, 57), (65, 90), (95, 95), (97, 122)]),
  ("xdigit", [(48, 57), (65, 70), (97, 102)])]

def readNamed? (cs : List Char) : Option (CharSet × List Char) :=
  let negated := cs.head? == some '^'
  let cs := if negated then cs.drop 1 else cs
  let name := cs.takeWhile Char.isAlpha
  match cs.drop name.length with
  | ':' :: ']' :: rest =>
    (namedClasses.lookup (.ofList name)).map fun ranges => ({ ranges, negated }, rest)
  | _ => none

mutual

/-- A class after its opening bracket. Hyphens at its beginning stand for themselves, and so does a
closing bracket that would leave it empty. -/
def readClass (f : Flags) (fuel : Nat) (cs : List Char) : Result CharSet :=
  match fuel with
  | 0 => .error .unclosedClass
  | fuel + 1 =>
    let negated := cs.head? == some '^'
    let cs := if negated then cs.drop 1 else cs
    let rest := cs.dropWhile (· = '-')
    let start : List (Nat × Nat) × List Char :=
      if rest.length < cs.length then ([(45, 45)], rest)
      else if cs.head? = some ']' then ([(93, 93)], cs.drop 1)
      else ([], cs)
    match readItems f fuel .first start.1 start.2 with
    | .ok (set, rest) => .ok (if negated then CharSet.complement set else set, rest)
    | .error e => .error e

def readItems (f : Flags) (fuel : Nat) (joining : Joining) (ranges : List (Nat × Nat))
    (cs : List Char) : Result CharSet :=
  match fuel with
  | 0 => .error .unclosedClass
  | fuel + 1 =>
    let soFar (_ : Unit) := joining.apply (withCase f { ranges })
    let add (more : List (Nat × Nat)) (rest : List Char) : Result CharSet :=
      readItems f fuel joining (more ++ ranges) rest
    match cs with
    | [] => .error .unclosedClass
    | ']' :: rest => .ok (soFar (), rest)
    | '&' :: '&' :: rest => readItems f fuel (.intersection (soFar ())) [] rest
    | '-' :: '-' :: rest => readItems f fuel (.difference (soFar ())) [] rest
    | '~' :: '~' :: rest => readItems f fuel (.symmetricDifference (soFar ())) [] rest
    | '[' :: rest =>
      match (if rest.head? = some ':' then readNamed? (rest.drop 1) else none) with
      | some (s, rest) => add (rangesOf s) rest
      | none =>
        match readClass f fuel rest with
        | .ok (s, rest) => add (rangesOf s) rest
        | .error e => .error e
    | c :: rest =>
      match (if c = '\\' then readEscape rest else .ok (.char c, rest)) with
      | .error e => .error e
      | .ok (.set s, rest) => add (rangesOf s) rest
      | .ok (.assertion _, _) => .error .badEscape
      | .ok (.char low, rest) =>
        match rest with
        | '-' :: ']' :: _ => add [(low.toNat, low.toNat)] rest
        | '-' :: '-' :: _ => add [(low.toNat, low.toNat)] rest
        | '-' :: high :: after =>
          match (if high = '\\' then readEscape after else .ok (.char high, after)) with
          | .ok (.char high, after) =>
            if low ≤ high then add [(low.toNat, high.toNat)] after else .error .badRange
          | .ok _ => .error .badRange
          | .error e => .error e
        | _ => add [(low.toNat, low.toNat)] rest

end

structure Count where
  least : Nat
  greatest : Option Nat

def readNumber (cs : List Char) : Option (Nat × List Char) :=
  let cs := cs.dropWhile Text.isBlank
  let ds := cs.takeWhile Char.isDigit
  let n := ds.foldl (fun n c => 10 * n + (c.toNat - 48)) 0
  if ds.isEmpty ∨ 0xFFFFFFFF < n then none
  else some (n, (cs.drop ds.length).dropWhile Text.isBlank)

def readCount (cs : List Char) : Result Count :=
  match readNumber cs with
  | none => .error .badRepetition
  | some (least, '\x7d' :: rest) => .ok (⟨least, some least⟩, rest)
  | some (least, ',' :: '\x7d' :: rest) => .ok (⟨least, none⟩, rest)
  | some (least, ',' :: rest) =>
    match readNumber rest with
    | some (greatest, '\x7d' :: rest) =>
      if least ≤ greatest then .ok (⟨least, some greatest⟩, rest) else .error .badRepetition
    | _ => .error .badRepetition
  | some _ => .error .badRepetition

def maybe (greedy : Bool) (p : Pattern) : Pattern :=
  if greedy then .either p .empty else .either .empty p

def copies (p : Pattern) : Nat → Pattern
  | 0 => .empty
  | 1 => p
  | n + 2 => .seq p (copies p (n + 1))

def optionalCopies (greedy : Bool) (p : Pattern) : Nat → Pattern
  | 0 => .empty
  | n + 1 => maybe greedy (.seq p (optionalCopies greedy p n))

def sizeLimit : Nat := 0x50000

def Count.copies (count : Count) : Nat := max 1 (count.greatest.getD (count.least + 1))

def repeated (greedy : Bool) (p : Pattern) (count : Count) : Pattern :=
  match count.greatest with
  | none =>
    match count.least with
    | 0 => maybe greedy (.many greedy p)
    | 1 => .many greedy p
    | n + 1 => .seq (copies p n) (.many greedy p)
  | some greatest => .seq (copies p count.least) (optionalCopies greedy p (greatest - count.least))

def readRepetitions (f : Flags) : Nat → Pattern → List Char → Result Pattern
  | 0, p, cs => .ok (p, cs)
  | fuel + 1, p, cs =>
    let finish (count : Count) (rest : List Char) : Result Pattern :=
      if sizeLimit < p.size * count.copies then .error .tooLarge
      else
        match rest with
        | '?' :: rest => readRepetitions f fuel (repeated f.lazy p count) rest
        | _ => readRepetitions f fuel (repeated (!f.lazy) p count) rest
    match cs with
    | '*' :: rest => finish ⟨0, none⟩ rest
    | '+' :: rest => finish ⟨1, none⟩ rest
    | '?' :: rest => finish ⟨0, some 1⟩ rest
    | '\x7b' :: rest =>
      match readCount rest with
      | .ok (count, rest) => finish count rest
      | .error e => .error e
    | _ => .ok (p, cs)

def Flags.set? (f : Flags) (on : Bool) : Char → Option Flags
  | 'i' => some { f with ignoreCase := on }
  | 'm' => some { f with multiLine := on }
  | 's' => some { f with dotAll := on }
  | 'U' => some { f with lazy := on }
  | 'u' => some f
  | _ => none

/-- Settings up to a colon or a closing parenthesis; those after a minus are turned off. A letter
stands only once, and there is one after the minus. -/
def readFlags (f : Flags) (text : List Char) : Option (Flags × List Char) :=
  let letters := text.takeWhile fun c => c ≠ ':' ∧ c ≠ ')'
  let on := letters.takeWhile (· ≠ '-')
  let off := letters.drop (on.length + 1)
  if letters.Nodup ∧ letters.getLast? ≠ some '-' then do
    let f ← on.foldlM (fun f c => Flags.set? f true c) f
    let f ← off.foldlM (fun f c => Flags.set? f false c) f
    some (f, text.drop letters.length)
  else none

inductive Opening
  | group (name : Option (List Char))
  | plain (f : Flags)
  | flags (f : Flags)

def isName : List Char → Bool
  | [] => false
  | c :: rest =>
    isWord c && !digits.contains c && rest.all fun c => isWord c || c == '.' || c == '[' || c == ']'

def readName (rest : List Char) : Result Opening :=
  let name := rest.takeWhile (· ≠ '>')
  match rest.drop name.length with
  | [] => .error .badGroup
  | _ :: after =>
    if isName name then .ok (.group (some name), after) else .error .badGroup

def readOpening (f : Flags) (cs : List Char) : Result Opening :=
  match cs with
  | '?' :: 'P' :: '<' :: rest => readName rest
  | '?' :: '<' :: rest =>
    if rest.head? = some '=' ∨ rest.head? = some '!' then .error .badGroup else readName rest
  | '?' :: rest =>
    match readFlags f rest with
    | some (f, ':' :: rest) => .ok (.plain f, rest)
    | some (f, ')' :: after) => if rest.head? = some ')' then .error .badGroup else .ok (.flags f, after)
    | _ => .error .badGroup
  | _ => .ok (.group none, cs)

abbrev Groups := List (Option (List Char))

structure Progress where
  flags : Flags
  groups : Groups
  alternatives : List Pattern
  sequence : List Pattern

def joined : List Pattern → Pattern
  | [] => .empty
  | [p] => p
  | p :: ps => .seq p (joined ps)

def choices : List Pattern → Pattern
  | [] => .empty
  | [p] => p
  | p :: ps => .either p (choices ps)

def Progress.pattern (s : Progress) : Pattern :=
  choices (joined s.sequence.reverse :: s.alternatives).reverse

def atomOf (f : Flags) (c : Char) : Option Pattern :=
  match c with
  | '.' => some (.one (if f.dotAll then .any else .notLineFeed))
  | '^' => some (if f.multiLine then .lineStart else .textStart)
  | '$' => some (if f.multiLine then .lineEnd else .textEnd)
  | '*' | '+' | '?' | '\x7b' => none
  | c => some (.one (withCase f (.single c)))

def readAll (fuel : Nat) (s : Progress) (cs : List Char) : Result (Pattern × Groups) :=
  match fuel with
  | 0 => .error .badGroup
  | fuel + 1 =>
    let add (p : Pattern) (rest : List Char) (groups : Groups) :
        Result (Pattern × Groups) :=
      match readRepetitions s.flags rest.length p rest with
      | .ok (p, rest) => readAll fuel { s with groups, sequence := p :: s.sequence } rest
      | .error e => .error e
    match cs with
    | [] => .ok ((s.pattern, s.groups), [])
    | ')' :: _ => .ok ((s.pattern, s.groups), cs)
    | '|' :: rest =>
      readAll fuel
        { s with alternatives := joined s.sequence.reverse :: s.alternatives, sequence := [] } rest
    | '(' :: rest =>
      match readOpening s.flags rest with
      | .error e => .error e
      | .ok (.flags f, rest) => readAll fuel { s with flags := f } rest
      | .ok (.plain f, rest) =>
        match readAll fuel ⟨f, s.groups, [], []⟩ rest with
        | .ok ((p, groups), ')' :: rest) => add p rest groups
        | .ok _ => .error .unclosedGroup
        | .error e => .error e
      | .ok (.group name, rest) =>
        if name.isSome ∧ name ∈ s.groups then .error .badGroup
        else
          match readAll fuel ⟨s.flags, s.groups ++ [name], [], []⟩ rest with
          | .ok ((p, groups), ')' :: rest) => add (.group (s.groups.length + 1) p) rest groups
          | .ok _ => .error .unclosedGroup
          | .error e => .error e
    | '[' :: rest =>
      match readClass s.flags (2 * rest.length + 2) rest with
      | .ok (set, rest) => add (.one set) rest s.groups
      | .error e => .error e
    | '\\' :: rest =>
      match readEscape rest with
      | .ok (.char c, rest) => add (.one (withCase s.flags (.single c))) rest s.groups
      | .ok (.set set, rest) => add (.one set) rest s.groups
      | .ok (.assertion p, rest) => add p rest s.groups
      | .error e => .error e
    | c :: rest =>
      match atomOf s.flags c with
      | some p => add p rest s.groups
      | none => .error .nothingToRepeat

end PatternText

def Pattern.ofText (text : String) : Except PatternFault Pattern :=
  match PatternText.readAll (text.length + 1) ⟨{}, [], [], []⟩ text.toList with
  | .ok ((p, _), []) => .ok p
  | .ok _ => .error .unopenedGroup
  | .error e => .error e

end StakeLedger.Query
