import StakeLedger.Json.Record
import StakeLedger.Number.Decimal
import StakeLedger.Text.Blank
import StakeLedger.Text.Quoted
import StakeLedger.Validator.Basic

/-! Notifications of the staking contract: a validator's stake grows by a deposit and shrinks by a
withdrawal. -/

namespace StakeLedger.Staking

open Json

def keyLength : Nat := 32

inductive KeyFault
  | hex (fault : Hex.Fault)
  | length (n : Nat)
  deriving DecidableEq, Repr

def KeyFault.message : KeyFault → String
  | .hex .oddLength => "Odd number of digits"
  | .hex (.notDigit byte index) =>
    "Invalid character " ++ Text.quoteChar (Char.ofNat byte.toNat) ++ " at position "
      ++ toString index
  | .length n => "expected " ++ toString keyLength ++ " bytes, got " ++ toString n

inductive EventFault
  | malformed (fault : Fault)
  | negativeAmount (amount : Int64)
  | invalidKey (fault : KeyFault)
  | unknown (event : String)
  deriving DecidableEq, Repr

def EventFault.message : EventFault → String
  | .malformed fault => "malformed staking event: " ++ fault.message
  | .negativeAmount amount => "negative staking amount: " ++ toString amount.toInt
  | .invalidKey fault => "invalid validator key: " ++ fault.message
  | .unknown event => "unknown staking event: " ++ event

inductive Direction
  | deposit
  | withdraw
  deriving DecidableEq, Inhabited, Repr

def Direction.name : Direction → String
  | deposit => "Deposit"
  | withdraw => "Withdraw"

def Direction.ofName? (name : String) : Option Direction :=
  [Direction.deposit, .withdraw].find? (·.name == name)

structure Event where
  direction : Direction
  validator : Bytes
  amount : Int64
  deriving DecidableEq, Inhabited, Repr

structure Notification where
  event : String
  validator : String
  amount : Int64
  deriving DecidableEq, Inhabited, Repr

def Notification.codec : Codec Notification :=
  .record
    (.cons (.required "event" .text) <|
      .cons (.required "validator" .text) <|
      .cons (.required "amount" .int64) .nil)
    (fun (event, validator, amount, _) => ⟨event, validator, amount⟩)
    (fun n => (n.event, n.validator, n.amount, ()))

def keyDigits (text : List Char) : List Char :=
  match Text.trimBlanks text with
  | '0' :: 'x' :: rest | '0' :: 'X' :: rest => rest
  | digits => digits

def readKey (text : String) : Except KeyFault Bytes :=
  match Hex.decode ((keyDigits text.toList).flatMap String.utf8EncodeChar) with
  | .error fault => .error (.hex fault)
  | .ok key => if key.length = keyLength then .ok key else .error (.length key.length)

namespace Event

/-- Of several faults the first in the order of `EventFault` is reported. -/
def ofNotification (n : Notification) : Except EventFault Event :=
  if n.amount < 0 then .error (.negativeAmount n.amount)
  else match readKey n.validator with
    | .error fault => .error (.invalidKey fault)
    | .ok key => match Direction.ofName? n.event with
      | some direction => .ok ⟨direction, key, n.amount⟩
      | none => .error (.unknown n.event)

def parse (payload : Bytes) : Except EventFault Event :=
  match Notification.codec.ofBytes payload with
  | .error fault => .error (.malformed fault)
  | .ok n => ofNotification n

/-- What an event does to the stake; nothing when the amount is zero. -/
def delta (e : Event) : Option StakeDelta :=
  let amount := match e.direction with
    | .deposit => e.amount
    | .withdraw => -e.amount
  if amount = 0 then none else some (.new e.validator amount)

end Event

def parseDelta (payload : Bytes) : Except EventFault (Option StakeDelta) :=
  (Event.parse payload).map Event.delta

end StakeLedger.Staking
