import StakeLedger.Json.Tree
import StakeLedger.Json.Printer
import StakeLedger.Bytes.Base64

/-!
Types with a written form. A reader walks a tree in the order of its text and stops at the first
problem; the room it is given bounds how many lists and records may be open at once.
-/

namespace StakeLedger

inductive Fault
  | malformed
  | mismatched
  deriving DecidableEq, Repr

def Fault.message : Fault → String
  | .malformed => "malformed document"
  | .mismatched => "unexpected document"

structure Codec (α : Type) where
  write : α → Json
  read : Nat → Json.Tree → Except Fault α

namespace Json

def room : Nat := 127

/-- The problem with a tree of another kind than was asked for. A scalar is read to its end before
its kind counts. -/
def Tree.refusal : Tree → Fault
  | .fault | .number none | .text none => .malformed
  | _ => .mismatched

end Json

namespace Codec

open Json

variable {α : Type}

/-- Reading a value that is at hand, and so nests no deeper than it does. -/
def ofJson (c : Codec α) (j : Json) : Except Fault α := c.read j.depth j.toTree

def ofDocument (c : Codec α) (d : Document) : Except Fault α := do
  let x ← c.read room d.tree
  if d.trailing then .error .malformed else .ok x

def ofBytes (c : Codec α) (bytes : Bytes) : Except Fault α := c.ofDocument (.ofBytes bytes)

def ofString (c : Codec α) (text : String) : Except Fault α := c.ofDocument (.ofString text)

def compact (c : Codec α) (x : α) : String := (c.write x).compact

def pretty (c : Codec α) (x : α) : String := (c.write x).pretty

def text : Codec String where
  write := .text
  read _ t :=
    match t with
    | .text (some s) => .ok s
    | t => .error t.refusal

def bool : Codec Bool where
  write := .bool
  read _ t :=
    match t with
    | .bool b => .ok b
    | t => .error t.refusal

def integer (number : α → Number) (value? : Int → Option α) : Codec α where
  write x := .number (number x)
  read _ t :=
    match t with
    | .number (some (.whole n _)) =>
      match value? n with
      | some x => .ok x
      | none => .error .mismatched
    | t => .error t.refusal

def int64? (n : Int) : Option Int64 :=
  if -0x8000000000000000 ≤ n ∧ n < 0x8000000000000000 then some (.ofInt n) else none

def uint64? (n : Int) : Option UInt64 :=
  if 0 ≤ n ∧ n < 0x10000000000000000 then some (.ofNat n.toNat) else none

def uint32? (n : Int) : Option UInt32 :=
  if 0 ≤ n ∧ n < 0x100000000 then some (.ofNat n.toNat) else none

def int64 : Codec Int64 := integer .ofInt64 int64?
def uint64 : Codec UInt64 := integer .ofUInt64 uint64?
def uint32 : Codec UInt32 := integer (fun n => .ofUInt64 n.toUInt64) uint32?

/-- Null stands for nothing. -/
def optional (c : Codec α) : Codec (Option α) where
  write x := x.elim .null c.write
  read room t :=
    match t with
    | .null => .ok none
    | t => (c.read room t).map some

/-- Null stands for a default, which is written out. -/
def nullable (c : Codec α) (null : α) : Codec α where
  write := c.write
  read room t :=
    match t with
    | .null => .ok null
    | t => c.read room t

def list (c : Codec α) : Codec (List α) where
  write xs := .list (xs.map c.write)
  read room t :=
    match t with
    | .list items closed =>
      if room = 0 then .error .malformed
      else do
        let xs ← items.mapM (c.read (room - 1))
        if closed then .ok xs else .error .malformed
    | t => .error t.refusal

/-- Bytes are written in base64; null stands for none. -/
def bytes : Codec Bytes where
  write b := .text (Base64.encode b)
  read _ t :=
    match t with
    | .null => .ok []
    | .text (some s) =>
      match Base64.decode s.toList with
      | some b => .ok b
      | none => .error .mismatched
    | t => .error t.refusal

def choice (names : List (String × α)) [DecidableEq α] : Codec α where
  write x := .text (((names.find? fun (_, y) => y = x).map Prod.fst).getD "")
  read room t :=
    let named (name : Option String) : Except Fault α :=
      match name with
      | none => .error .malformed
      | some name =>
        match names.lookup name with
        | some x => .ok x
        | none => .error .mismatched
    match t with
    | .text name => named name
    | .record members closed =>
      if room = 0 then .error .malformed
      else match members with
        | [] => .error .malformed
        | (name, value) :: rest => do
          let x ← named name
          match value with
          | .null => if rest.isEmpty ∧ closed then .ok x else .error .malformed
          | t => .error t.refusal
    | _ => .error .malformed

end Codec

end StakeLedger
