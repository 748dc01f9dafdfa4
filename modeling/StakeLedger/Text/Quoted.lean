import StakeLedger.Text.Visible

/-! Text between quotes, with escapes for the quote itself, for blanks other than the ordinary one
and for all that would not be seen. -/

namespace StakeLedger.Text

def escapeWith (quote c : Char) : List Char :=
  if c = '\x00' then ['\\', '0']
  else if c = '\t' then ['\\', 't']
  else if c = '\r' then ['\\', 'r']
  else if c = '\n' then ['\\', 'n']
  else if c = '\\' ∨ c = quote then ['\\', c]
  else if isShown c then [c]
  else ['\\', 'u', '\x7b'] ++ Nat.toDigits 16 c.toNat ++ ['\x7d']

def quoteChar (c : Char) : String := .ofList ('\'' :: escapeWith '\'' c ++ ['\''])

def quoted (s : String) : String := .ofList ('"' :: s.toList.flatMap (escapeWith '"') ++ ['"'])

end StakeLedger.Text
