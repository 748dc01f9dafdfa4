import StakeLedger.Json.Codec

/-!
Records with known fields. A record is read from its members in any order, unknown ones ignored, or
from the list of its fields in their order.
-/

namespace StakeLedger.Json

/-- A field. `absent` is its value when a record lacks it and `beyond` when a list ends before it,
none where that is refused; `hidden` values are left out of the written record. -/
structure Field (α : Type) where
  name : String
  codec : Codec α
  absent : Option α
  beyond : Option α
  hidden : α → Bool

inductive Fields : List Type → Type 1
  | nil : Fields []
  | cons {α : Type} {as : List Type} (field : Field α) (rest : Fields as) : Fields (α :: as)

@[reducible] def Row : List Type → Type
  | [] => Unit
  | α :: as => α × Row as

@[reducible] def Slots : List Type → Type
  | [] => Unit
  | α :: as => Option α × Slots as

namespace Fields

def emptySlots : {as : List Type} → Fields as → Slots as
  | _, .nil => ()
  | _, .cons _ rest => (none, rest.emptySlots)

def write : {as : List Type} → Fields as → Row as → List (String × Json)
  | _, .nil, _ => []
  | _, .cons field rest, (x, row) =>
    if field.hidden x then rest.write row
    else (field.name, field.codec.write x) :: rest.write row

/-- A member goes into the slot of its field; a second one for the same field is refused before its
value is read. -/
def accept (room : Nat) (name : String) (t : Tree) :
    {as : List Type} → Fields as → Slots as → Except Fault (Slots as)
  | _, .nil, slots => .ok slots
  | _, .cons field rest, (slot, slots) =>
    if field.name = name then
      match slot with
      | some _ => .error .mismatched
      | none => (field.codec.read room t).map fun x => (some x, slots)
    else (rest.accept room name t slots).map fun slots => (slot, slots)

def acceptMember (room : Nat) {as : List Type} (fields : Fields as) (slots : Slots as)
    (member : Option String × Tree) : Except Fault (Slots as) :=
  match member with
  | (none, _) => .error .malformed
  | (some name, t) => fields.accept room name t slots

def complete : {as : List Type} → Fields as → Slots as → Except Fault (Row as)
  | _, .nil, _ => .ok ()
  | _, .cons field rest, (slot, slots) =>
    match slot.or field.absent with
    | none => .error .mismatched
    | some x => (rest.complete slots).map fun row => (x, row)

def readMembers (room : Nat) {as : List Type} (fields : Fields as)
    (members : List (Option String × Tree)) (closed : Bool) : Except Fault (Row as) := do
  let slots ← members.foldlM (fields.acceptMember room) fields.emptySlots
  if closed then fields.complete slots else .error .malformed

def readItems (room : Nat) :
    {as : List Type} → Fields as → List Tree → Bool → Except Fault (Row as)
  | _, .nil, items, closed => if items.isEmpty ∧ closed then .ok () else .error .malformed
  | _, .cons field rest, items, closed =>
    match items with
    | t :: items => do
      let x ← field.codec.read room t
      let row ← rest.readItems room items closed
      .ok (x, row)
    | [] =>
      if closed then
        match field.beyond with
        | none => .error .mismatched
        | some x => (rest.readItems room [] closed).map fun row => (x, row)
      else .error .malformed

def read {as : List Type} (fields : Fields as) (room : Nat) (t : Tree) : Except Fault (Row as) :=
  match t with
  | .record members closed =>
    if room = 0 then .error .malformed else fields.readMembers (room - 1) members closed
  | .list items closed =>
    if room = 0 then .error .malformed else fields.readItems (room - 1) items closed
  | t => .error t.refusal

end Fields

def Field.required {α : Type} (name : String) (codec : Codec α) : Field α :=
  ⟨name, codec, none, none, fun _ => false⟩

def Field.orElse {α : Type} (name : String) (codec : Codec α) (default : α) : Field α :=
  ⟨name, codec, some default, some default, fun _ => false⟩

end StakeLedger.Json

namespace StakeLedger

def Codec.record {ρ : Type} {as : List Type} (fields : Json.Fields as) (build : Json.Row as → ρ)
    (parts : ρ → Json.Row as) : Codec ρ where
  write x := .record (fields.write (parts x))
  read room t := (fields.read room t).map build

end StakeLedger
