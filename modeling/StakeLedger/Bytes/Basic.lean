namespace StakeLedger

abbrev Bytes := List UInt8

namespace Bytes

def ofString (s : String) : Bytes := s.toList.flatMap String.utf8EncodeChar

/-- The eight bytes of a word, least significant first. -/
def ofUInt64 (n : UInt64) : Bytes :=
  (List.range 8).map fun i => (n >>> UInt64.ofNat (8 * i)).toUInt8

/-- The eight bytes of a signed word in two's complement, least significant first. -/
def ofInt64 (n : Int64) : Bytes := ofUInt64 n.toUInt64

def ofUInt32 (n : UInt32) : Bytes :=
  (List.range 4).map fun i => (n >>> UInt32.ofNat (8 * i)).toUInt8

def toUInt32 (bs : Bytes) : UInt32 := bs.foldr (fun b n => (n <<< 8) ||| b.toUInt32) 0

@[simp] theorem length_ofUInt64 (n : UInt64) : (ofUInt64 n).length = 8 := by simp [ofUInt64]

end Bytes

structure Grouping (α : Type _) where
  done : List (List α)
  group : List α
  size : Nat

def Grouping.push {α : Type _} (n : Nat) (g : Grouping α) (x : α) : Grouping α :=
  if g.size + 1 < n then ⟨g.done, x :: g.group, g.size + 1⟩
  else ⟨(x :: g.group).reverse :: g.done, [], 0⟩

def Grouping.toList {α : Type _} (g : Grouping α) : List (List α) :=
  (if g.group.isEmpty then g.done else g.group.reverse :: g.done).reverse

def groups {α : Type _} (n : Nat) (xs : List α) : List (List α) :=
  (xs.foldl (Grouping.push n) ⟨[], [], 0⟩).toList

end StakeLedger
