import StakeLedger.Json.Basic

namespace StakeLedger.Json

def escapeDigits (c : Char) : List Char :=
  let digits := Nat.toDigits 16 c.toNat
  List.replicate (4 - digits.length) '0' ++ digits

def escapeChar (c : Char) : List Char :=
  if c = '"' then ['\\', '"']
  else if c = '\\' then ['\\', '\\']
  else if c = '\n' then ['\\', 'n']
  else if c = '\r' then ['\\', 'r']
  else if c = '\t' then ['\\', 't']
  else if c.toNat = 8 then ['\\', 'b']
  else if c.toNat = 12 then ['\\', 'f']
  else if c.toNat < 32 then '\\' :: 'u' :: escapeDigits c
  else [c]

def quote (s : String) : List Char := '"' :: s.toList.flatMap escapeChar ++ ['"']

def scalar : Json → List Char
  | .null => ['n', 'u', 'l', 'l']
  | .bool true => ['t', 'r', 'u', 'e']
  | .bool false => ['f', 'a', 'l', 's', 'e']
  | .number n => n.text.toList
  | .text s => quote s
  | .list _ => ['[', ']']
  | .record _ => ['\x7b', '\x7d']

structure Style where
  newline : Nat → List Char
  afterColon : List Char

mutual

def write (style : Style) (level : Nat) : Json → List Char
  | .list (x :: xs) =>
    '[' :: style.newline (level + 1) ++ write style (level + 1) x
      ++ writeItems style (level + 1) xs ++ style.newline level ++ [']']
  | .record ((k, x) :: ms) =>
    '\x7b' :: style.newline (level + 1) ++ quote k ++ ':' :: style.afterColon
      ++ write style (level + 1) x ++ writeMembers style (level + 1) ms ++ style.newline level
      ++ ['\x7d']
  | other => scalar other

def writeItems (style : Style) (level : Nat) : List Json → List Char
  | [] => []
  | x :: xs => ',' :: style.newline level ++ write style level x ++ writeItems style level xs

def writeMembers (style : Style) (level : Nat) : List (String × Json) → List Char
  | [] => []
  | (k, x) :: ms =>
    ',' :: style.newline level ++ quote k ++ ':' :: style.afterColon ++ write style level x
      ++ writeMembers style level ms

end

def compactStyle : Style := ⟨fun _ => [], []⟩

def prettyStyle : Style := ⟨fun level => '\n' :: List.replicate (2 * level) ' ', [' ']⟩

def compact (j : Json) : String := .ofList (write compactStyle 0 j)

def pretty (j : Json) : String := .ofList (write prettyStyle 0 j)

end StakeLedger.Json
