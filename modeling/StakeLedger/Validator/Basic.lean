import StakeLedger.Bytes.Hex
import StakeLedger.Digest.Sha256
import StakeLedger.Engine.Validator
import StakeLedger.Number.Saturating

/-!
Validators, their stake, and changes to it. An address is the start of the digest of the public key
in hexadecimal, as the engine derives it.
-/

namespace StakeLedger

open Json

namespace Validator

def addressLength : Nat := 20

def addressOf (publicKey : Bytes) : String :=
  Hex.encodeUpper ((Sha256.digest publicKey).take addressLength)

end Validator

structure Validator where
  name : Option String
  address : String
  publicKey : Bytes
  stake : Int64
  deriving DecidableEq, Inhabited, Repr

namespace Validator

/-- A validator starts without a name and never below zero. -/
def new (publicKey : Bytes) (stake : Int64) : Validator :=
  ⟨none, addressOf publicKey, publicKey, max stake 0⟩

/-- The stake after a change: it stops at the greatest word and at zero. -/
def adjusted (stake delta : Int64) : Int64 := max (Saturating.add stake delta) 0

def adjust (v : Validator) (delta : Int64) : Validator := { v with stake := adjusted v.stake delta }

def votingPower (v : Validator) : Int64 := max v.stake 0

def update (v : Validator) : Engine.ValidatorUpdate := ⟨v.address, .ed25519 v.publicKey, v.votingPower⟩

/-- A name is written only when there is one, and a stake of null is zero. -/
def codec : Codec Validator :=
  .record
    (.cons ⟨"name", .optional .text, some none, some none, Option.isNone⟩ <|
      .cons (.required "address" .text) <|
      .cons (.required "public_key" .bytes) <|
      .cons (.orElse "stake" (.nullable .int64 0) 0) .nil)
    (fun (name, address, publicKey, stake, _) => ⟨name, address, publicKey, stake⟩)
    (fun v => (v.name, v.address, v.publicKey, v.stake, ()))

end Validator

structure StakeDelta where
  address : String
  publicKey : Bytes
  amount : Int64
  deriving DecidableEq, Inhabited, Repr

def StakeDelta.new (publicKey : Bytes) (amount : Int64) : StakeDelta :=
  ⟨Validator.addressOf publicKey, publicKey, amount⟩

end StakeLedger
