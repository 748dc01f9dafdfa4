import StakeLedger.Validator.Basic

/-!
The validators of a chain in the order they joined. Nobody leaves: a validator whose stake falls to
zero keeps its place.
-/

namespace StakeLedger

abbrev Roster := List Validator

namespace Roster

def find? (roster : Roster) (address : String) : Option Validator :=
  List.find? (fun v => v.address == address) roster

/-- The sum of all voting power; it stops at the greatest word. -/
def totalPower (roster : Roster) : Int64 :=
  roster.foldl (fun sum v => Saturating.add sum v.votingPower) 0

/-- The roster after a change, and the entry that was changed. An address that is new joins with no
stake before the change counts. -/
def apply (delta : StakeDelta) : Roster → Roster × Validator
  | [] =>
    let v := (Validator.new delta.publicKey 0).adjust delta.amount
    ([v], v)
  | v :: rest =>
    if v.address = delta.address then
      let v := v.adjust delta.amount
      (v :: rest, v)
    else
      let (rest, changed) := apply delta rest
      (v :: rest, changed)

end Roster

namespace Engine

/-- An update recorded in a list; a later one for an address takes the place of the earlier. -/
def mergeUpdate (updates : List ValidatorUpdate) (update : ValidatorUpdate) : List ValidatorUpdate :=
  match updates with
  | [] => [update]
  | u :: rest =>
    if u.address = update.address then update :: rest else u :: mergeUpdate rest update

def mergeUpdates (updates new : List ValidatorUpdate) : List ValidatorUpdate :=
  new.foldl mergeUpdate updates

end Engine

end StakeLedger
