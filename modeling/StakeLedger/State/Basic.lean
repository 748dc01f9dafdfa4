import StakeLedger.Digest.Framed
import StakeLedger.Disk.Basic
import StakeLedger.Staking.Params
import StakeLedger.Validator.Roster

namespace StakeLedger

open Json

/-- Who owns a view of the ledger: admission of transactions, their delivery, or the commit, which
alone counts for the height and the roster. -/
inductive Phase
  | check
  | deliver
  | commit
  deriving DecidableEq, Inhabited, Repr

namespace Phase

def all : List Phase := [check, deliver, commit]

def name : Phase → String
  | check => "check_tx"
  | deliver => "deliver_tx"
  | commit => "commit"

end Phase

/-- A view of the ledger. It saves to its path; without one it is bound to no file. -/
structure State where
  path : Option Path
  name : String
  height : Int64
  root : Bytes
  staking : Option Staking.Params
  validators : Roster
  deriving DecidableEq, Inhabited, Repr

namespace State

def empty (phase : Phase) : State := ⟨none, phase.name, 0, [], none, []⟩

/-- The written form leaves the path out. -/
def codec : Codec State :=
  .record
    (.cons (.required "name" .text) <|
      .cons (.required "height" .int64) <|
      .cons (.orElse "root" .bytes []) <|
      .cons (.orElse "staking" (.optional Staking.Params.codec) none) <|
      .cons (.orElse "validators" (.list Validator.codec) []) .nil)
    (fun (name, height, root, staking, validators, _) =>
      ⟨none, name, height, root, staking, validators⟩)
    (fun s => (s.name, s.height, s.root, s.staking, s.validators, ()))

def validator? (s : State) (address : String) : Option Validator := s.validators.find? address

def totalPower (s : State) : Int64 := s.validators.totalPower

def applyDelta (s : State) (delta : StakeDelta) : State × Validator :=
  let (validators, changed) := s.validators.apply delta
  ({ s with validators }, changed)

/-- What the root commits to: the height, then address, key and stake of every validator. -/
def rootParts (s : State) : List Bytes :=
  Bytes.ofInt64 s.height :: s.validators.flatMap fun v =>
    [Bytes.ofString v.address, v.publicKey, Bytes.ofInt64 v.stake]

def computeRoot (s : State) : Bytes := Framed.digest s.rootParts

end State

inductive StateError
  | io (path : Path) (fault : Disk.Fault)
  | corrupt (path : Path) (fault : Fault)
  | unbound (name : String)
  deriving DecidableEq, Repr

def StateError.message : StateError → String
  | .io path fault => "state I/O error at " ++ path.text ++ ": " ++ fault.message
  | .corrupt path fault => "corrupted state snapshot at " ++ path.text ++ ": " ++ fault.message
  | .unbound name => "state " ++ name ++ " is not bound to a snapshot path"

end StakeLedger
