import StakeLedger.Json.Opaque

/-!
A value that stands beside the name of its kind, in the members `type` and `value` of a record or as
a list of the two. Either member may come first.
-/

namespace StakeLedger

namespace Json.Tagged

inductive Progress (α : Type)
  | start
  | kind
  | held (value : Opaque)
  | done (x : α)

variable {α : Type} (tag : Codec Unit) (c : Codec α) (room : Nat)

def step (p : Progress α) (member : Option String × Tree) : Except Fault (Progress α) :=
  match member with
  | (none, _) => .error .malformed
  | (some name, t) =>
    if name = "type" then
      match p with
      | .start => (tag.read room t).map fun _ => .kind
      | .held value => do
        tag.read room t
        let x ← c.ofJson value.value
        .ok (.done x)
      | .kind | .done _ => .error .mismatched
    else if name = "value" then
      match p with
      | .start => (Opaque.read room t).map .held
      | .kind => (c.read room t).map .done
      | .held _ | .done _ => .error .mismatched
    else .ok p

def readMembers (members : List (Option String × Tree)) (closed : Bool) : Except Fault α := do
  let p ← members.foldlM (step tag c room) .start
  if closed then
    match p with
    | .done x => .ok x
    | _ => .error .mismatched
  else .error .malformed

def readItems (items : List Tree) (closed : Bool) : Except Fault α :=
  match items with
  | [] => .error (if closed then .mismatched else .malformed)
  | kind :: rest => do
    tag.read room kind
    match rest with
    | [] => .error (if closed then .mismatched else .malformed)
    | value :: rest =>
      let x ← c.read room value
      if rest.isEmpty ∧ closed then .ok x else .error .malformed

end Json.Tagged

open Json

def Codec.tagged {α : Type} (kind : String) (c : Codec α) : Codec α where
  write x := .record [("type", .text kind), ("value", c.write x)]
  read room t :=
    let tag := Codec.choice [(kind, ())]
    match t with
    | .record members closed =>
      if room = 0 then .error .malformed else Tagged.readMembers tag c (room - 1) members closed
    | .list items closed =>
      if room = 0 then .error .malformed else Tagged.readItems tag c (room - 1) items closed
    | t => .error t.refusal

end StakeLedger
