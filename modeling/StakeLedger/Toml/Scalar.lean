import StakeLedger.Json.Basic

/-!
The scalar values of a TOML document: strings in their four forms, integers, floats, booleans and
dates. A reader gives what it has read and the rest of the text, or nothing.
-/

namespace StakeLedger.Toml

abbrev Reader (α : Type) := List Char → Option (α × List Char)

def isBlank (c : Char) : Bool := c = ' ' ∨ c = '\t'

def skipBlanks (cs : List Char) : List Char := cs.dropWhile isBlank

/-- Control characters other than the tab stand nowhere. -/
def isPlain (c : Char) : Bool := c = '\t' ∨ (32 ≤ c.toNat ∧ c.toNat ≠ 127)

def readNewline? : List Char → Option (List Char)
  | '\n' :: rest => some rest
  | '\r' :: '\n' :: rest => some rest
  | _ => none

def hexDigit? (c : Char) : Option Nat :=
  if c.isDigit then some (c.toNat - 48)
  else if 'a' ≤ c ∧ c ≤ 'f' then some (c.toNat - 87)
  else if 'A' ≤ c ∧ c ≤ 'F' then some (c.toNat - 55)
  else none

def readCode (count : Nat) (cs : List Char) : Option (Char × List Char) := do
  let digits := cs.take count
  if digits.length < count then none
  else do
    let n ← digits.foldlM (fun n c => (hexDigit? c).map (16 * n + ·)) 0
    if n.isValidChar then some (Char.ofNat n, cs.drop count) else none

def readEscape : Reader Char
  | 'b' :: rest => some ('\x08', rest)
  | 't' :: rest => some ('\t', rest)
  | 'n' :: rest => some ('\n', rest)
  | 'f' :: rest => some ('\x0c', rest)
  | 'r' :: rest => some ('\r', rest)
  | '"' :: rest => some ('"', rest)
  | '\\' :: rest => some ('\\', rest)
  | 'u' :: rest => readCode 4 rest
  | 'U' :: rest => readCode 8 rest
  | _ => none

def readBasic (fuel : Nat) (out : List Char) (cs : List Char) : Option (String × List Char) :=
  match fuel with
  | 0 => none
  | fuel + 1 =>
    match cs with
    | [] => none
    | '"' :: rest => some (.ofList out.reverse, rest)
    | '\\' :: rest =>
      match readEscape rest with
      | some (c, rest) => readBasic fuel (c :: out) rest
      | none => none
    | c :: rest => if isPlain c then readBasic fuel (c :: out) rest else none

def readLiteral (out : List Char) : List Char → Option (String × List Char)
  | [] => none
  | c :: rest =>
    if c = '\'' then some (.ofList out.reverse, rest)
    else if isPlain c then readLiteral (c :: out) rest
    else none

def closing (quote : Char) (cs : List Char) : Option (Nat × List Char) :=
  let count := min 5 (cs.takeWhile (· = quote)).length
  if count < 3 then none else some (count - 3, cs.drop count)

def skipFold (fuel : Nat) (met : Bool) (cs : List Char) : Option (List Char) :=
  match fuel with
  | 0 => none
  | fuel + 1 =>
    let cs := skipBlanks cs
    match readNewline? cs with
    | some rest => skipFold fuel true rest
    | none => if met then some cs else none

def readLines (escapes : Bool) (quote : Char) (fuel : Nat) (out : List Char) (cs : List Char) :
    Option (String × List Char) :=
  match fuel with
  | 0 => none
  | fuel + 1 =>
    match closing quote cs with
    | some (more, rest) => some (.ofList (List.replicate more quote ++ out).reverse, rest)
    | none =>
      match readNewline? cs with
      | some rest => readLines escapes quote fuel ('\n' :: out) rest
      | none =>
        match cs with
        | [] => none
        | c :: rest =>
          if escapes ∧ c = '\\' then
            match readEscape rest with
            | some (c, rest) => readLines escapes quote fuel (c :: out) rest
            | none =>
              match skipFold (rest.length + 1) false rest with
              | some rest => readLines escapes quote fuel out rest
              | none => none
          else if isPlain c then readLines escapes quote fuel (c :: out) rest
          else none

def readString : Reader String
  | '"' :: '"' :: '"' :: rest =>
    readLines true '"' (rest.length + 1) [] ((readNewline? rest).getD rest)
  | '"' :: rest => readBasic (rest.length + 1) [] rest
  | '\'' :: '\'' :: '\'' :: rest =>
    readLines false '\'' (rest.length + 1) [] ((readNewline? rest).getD rest)
  | '\'' :: rest => readLiteral [] rest
  | _ => none

def readDigits (digit : Char → Bool) : Reader (List Char) := fun cs =>
  let run := cs.takeWhile fun c => digit c ∨ c = '_'
  let rec sound : List Char → Bool
    | [] => false
    | [c] => c ≠ '_'
    | c :: d :: rest => c ≠ '_' && (if d = '_' then sound rest else sound (d :: rest))
  if sound run then some (run.filter (· ≠ '_'), cs.drop run.length) else none

def natOf (base : Nat) (digits : List Char) : Nat :=
  digits.foldl (fun n c => base * n + (hexDigit? c).getD 0) 0

def readRadix (base : Nat) (digit : Char → Bool) : Reader Int := fun cs =>
  (readDigits digit cs).bind fun (digits, rest) =>
    let n := natOf base digits
    if n < 0x8000000000000000 then some (n, rest) else none

def readSign (cs : List Char) : Int × Bool × List Char :=
  match cs with
  | '+' :: rest => (1, true, rest)
  | '-' :: rest => (-1, true, rest)
  | _ => (1, false, cs)

def readWhole : Reader (List Char) := fun cs =>
  (readDigits Char.isDigit cs).bind fun (digits, rest) =>
    if digits.head? = some '0' ∧ 1 < (cs.takeWhile fun c => c.isDigit ∨ c = '_').length then none
    else some (digits, rest)

def readInteger : Reader Int := fun cs =>
  match cs with
  | '0' :: 'x' :: rest => readRadix 16 (fun c => (hexDigit? c).isSome) rest
  | '0' :: 'o' :: rest => readRadix 8 (fun c => '0' ≤ c ∧ c ≤ '7') rest
  | '0' :: 'b' :: rest => readRadix 2 (fun c => c = '0' ∨ c = '1') rest
  | _ =>
    let (sign, _, rest) := readSign cs
    (readWhole rest).bind fun (digits, rest) =>
      let n := sign * natOf 10 digits
      if -0x8000000000000000 ≤ n ∧ n < 0x8000000000000000 then some (n, rest) else none

def readExponent (cs : List Char) : Option (List Char) :=
  match cs with
  | c :: rest =>
    if c = 'e' ∨ c = 'E' then
      let (_, _, rest) := readSign rest
      (readDigits Char.isDigit rest).map Prod.snd
    else none
  | [] => none

def skipFloat (cs : List Char) : Option (List Char) :=
  let (_, _, rest) := readSign cs
  match rest with
  | 'i' :: 'n' :: 'f' :: rest => some rest
  | 'n' :: 'a' :: 'n' :: rest => some rest
  | _ =>
    (readWhole rest).bind fun (_, rest) =>
      match rest with
      | '.' :: rest =>
        (readDigits Char.isDigit rest).map fun (_, rest) => (readExponent rest).getD rest
      | _ => readExponent rest

def readFixed (count low high : Nat) : Reader Nat := fun cs =>
  let digits := cs.take count
  if digits.length = count ∧ digits.all Char.isDigit then
    let n := natOf 10 digits
    if low ≤ n ∧ n ≤ high then some (n, cs.drop count) else none
  else none

def readChar (c : Char) (cs : List Char) : Option (List Char) :=
  match cs with
  | d :: rest => if c = d then some rest else none
  | [] => none

def daysIn (year month : Nat) : Nat :=
  let leap := year % 4 = 0 ∧ (year % 100 ≠ 0 ∨ year % 400 = 0)
  if month = 2 then (if leap then 29 else 28)
  else if [4, 6, 9, 11].contains month then 30
  else 31

def skipDate (cs : List Char) : Option (List Char) := do
  let (year, cs) ← readFixed 4 0 9999 cs
  let cs ← readChar '-' cs
  let (month, cs) ← readFixed 2 1 12 cs
  let cs ← readChar '-' cs
  let (_, cs) ← readFixed 2 1 (daysIn year month) cs
  some cs

def skipTime (cs : List Char) : Option (List Char) := do
  let (_, cs) ← readFixed 2 0 23 cs
  let cs ← readChar ':' cs
  let (_, cs) ← readFixed 2 0 59 cs
  let cs ← readChar ':' cs
  let (_, cs) ← readFixed 2 0 60 cs
  match cs with
  | '.' :: rest =>
    if rest.head?.any Char.isDigit then some (rest.dropWhile Char.isDigit) else none
  | _ => some cs

def skipOffset (cs : List Char) : Option (List Char) :=
  match cs with
  | c :: rest =>
    if c = 'Z' ∨ c = 'z' then some rest
    else if c = '+' ∨ c = '-' then do
      let (_, cs) ← readFixed 2 0 23 rest
      let cs ← readChar ':' cs
      let (_, cs) ← readFixed 2 0 59 cs
      some cs
    else some cs
  | [] => some cs

def skipDateTime (cs : List Char) : Option (List Char) :=
  match skipDate cs with
  | none => skipTime cs
  | some rest =>
    match rest with
    | c :: after =>
      if c = 'T' ∨ c = 't' then (skipTime after).bind skipOffset
      else if c = ' ' then
        match (skipTime after).bind skipOffset with
        | some rest => some rest
        | none => some rest
      else some rest
    | [] => some rest

def dateTime : Json := .record [("datetime", .null)]

def float : Json := .number (.double (Binary64.zero false))

def readScalar : Reader Json := fun cs =>
  match cs with
  | 't' :: 'r' :: 'u' :: 'e' :: rest => some (.bool true, rest)
  | 'f' :: 'a' :: 'l' :: 's' :: 'e' :: rest => some (.bool false, rest)
  | '"' :: _ | '\'' :: _ => (readString cs).map fun (s, rest) => (.text s, rest)
  | _ =>
    match skipDateTime cs with
    | some rest => some (dateTime, rest)
    | none =>
      match skipFloat cs with
      | some rest => some (float, rest)
      | none => (readInteger cs).bind fun (n, rest) =>
          (Json.Number.ofInt? n).map fun n => (.number n, rest)

end StakeLedger.Toml
