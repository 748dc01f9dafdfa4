namespace StakeLedger.Network

inductive Host
  | v4 (octets : List Nat)
  | v6 (groups : List Nat)
  deriving DecidableEq, Inhabited, Repr

/-- A scope of zero is none. -/
structure Address where
  host : Host
  scope : Nat := 0
  port : Nat
  deriving DecidableEq, Inhabited, Repr

abbrev Reader (α : Type) := List Char → Option (α × List Char)

def digit? (base : Nat) (c : Char) : Option Nat :=
  let n :=
    if c.isDigit then c.toNat - 48
    else if 'a' ≤ c ∧ c ≤ 'f' then c.toNat - 87
    else if 'A' ≤ c ∧ c ≤ 'F' then c.toNat - 55
    else base
  if n < base then some n else none

def readNumber (base bound : Nat) (width : Option Nat) (zeros : Bool) : Reader Nat := fun cs =>
  let digits := cs.takeWhile fun c => (digit? base c).isSome
  let n := digits.foldl (fun n c => base * n + (digit? base c).getD 0) 0
  if digits.isEmpty ∨ width.any (· < digits.length) ∨ bound ≤ n then none
  else if !zeros ∧ digits.head? = some '0' ∧ 1 < digits.length then none
  else some (n, cs.drop digits.length)

def readChar (c : Char) (cs : List Char) : Option (List Char) :=
  match cs with
  | d :: rest => if c = d then some rest else none
  | [] => none

def readOctet : Reader Nat := readNumber 10 256 (some 3) false

def readV4 : Reader (List Nat) := fun cs => do
  let (a, cs) ← readOctet cs
  let (b, cs) ← (readChar '.' cs).bind readOctet
  let (c, cs) ← (readChar '.' cs).bind readOctet
  let (d, cs) ← (readChar '.' cs).bind readOctet
  some ([a, b, c, d], cs)

def separated {α : Type} (first : Bool) (r : Reader α) : Reader α := fun cs =>
  if first then r cs else (readChar ':' cs).bind r

/-- At most `limit` groups, of which an embedded address of four octets makes the last two; tells
whether there was one. -/
def readGroups : Nat → Bool → List Char → List Nat × Bool × List Char
  | 0, _, cs => ([], false, cs)
  | limit + 1, first, cs =>
    let embedded := if limit = 0 then none else separated first readV4 cs
    match embedded with
    | some ([a, b, c, d], rest) => ([256 * a + b, 256 * c + d], true, rest)
    | _ =>
      match separated first (readNumber 16 65536 (some 4) true) cs with
      | none => ([], false, cs)
      | some (g, rest) =>
        let (gs, v4, rest) := readGroups limit false rest
        (g :: gs, v4, rest)

/-- Two colons stand for at least one group of zero. -/
def readV6 : Reader (List Nat) := fun cs =>
  let (front, v4, rest) := readGroups 8 true cs
  if front.length = 8 then some (front, rest)
  else if v4 then none
  else do
    let rest ← (readChar ':' rest).bind (readChar ':')
    let (back, _, rest) := readGroups (7 - front.length) true rest
    some (front ++ List.replicate (8 - front.length - back.length) 0 ++ back, rest)

def readPort : Reader Nat := fun cs => (readChar ':' cs).bind (readNumber 10 65536 none true)

def readScope (cs : List Char) : Nat × List Char :=
  match (readChar '%' cs).bind (readNumber 10 (0x100000000) none true) with
  | some r => r
  | none => (0, cs)

def readAddress : Reader Address := fun cs =>
  match (readV4 cs).bind fun (octets, rest) =>
      (readPort rest).map fun (port, rest) => ((⟨.v4 octets, 0, port⟩ : Address), rest) with
  | some r => some r
  | none => do
    let (groups, cs) ← (readChar '[' cs).bind readV6
    let (scope, cs) := readScope cs
    let (port, cs) ← (readChar ']' cs).bind readPort
    some (⟨.v6 groups, scope, port⟩, cs)

def Address.parse? (text : String) : Option Address :=
  match readAddress text.toList with
  | some (a, []) => some a
  | _ => none

def longestZeros : Nat → Nat × Nat → Nat × Nat → List Nat → Nat × Nat
  | _, best, _, [] => best
  | i, best, run, g :: gs =>
    if g = 0 then
      let run := if run.2 = 0 then (i, 1) else (run.1, run.2 + 1)
      longestZeros (i + 1) (if best.2 < run.2 then run else best) run gs
    else longestZeros (i + 1) best (0, 0) gs

def hexText (n : Nat) : String := .ofList (Nat.toDigits 16 n)

def groupsText (gs : List Nat) : String := String.intercalate ":" (gs.map hexText)

def octetsText (os : List Nat) : String := String.intercalate "." (os.map toString)

/-- An address of four octets keeps its form also where it is mapped into eight groups; the longest
run of two or more zero groups is left out. -/
def Host.text : Host → String
  | .v4 os => octetsText os
  | .v6 gs =>
    match gs with
    | [0, 0, 0, 0, 0, 0xFFFF, a, b] =>
      "::ffff:" ++ octetsText [a / 256, a % 256, b / 256, b % 256]
    | _ =>
      let (start, length) := longestZeros 0 (0, 0) (0, 0) gs
      if 1 < length then groupsText (gs.take start) ++ "::" ++ groupsText (gs.drop (start + length))
      else groupsText gs

def Address.text (a : Address) : String :=
  match a.host with
  | .v4 _ => a.host.text ++ ":" ++ toString a.port
  | .v6 _ =>
    let scope := if a.scope = 0 then "" else "%" ++ toString a.scope
    "[" ++ a.host.text ++ scope ++ "]:" ++ toString a.port

end StakeLedger.Network
