import StakeLedger.Json.Record
import StakeLedger.Json.Tagged

namespace StakeLedger.Engine

open Json

inductive PublicKey
  | ed25519 (bytes : Bytes)
  deriving DecidableEq, Inhabited, Repr

namespace PublicKey

def bytes : PublicKey → Bytes
  | .ed25519 bytes => bytes

def codec : Codec PublicKey :=
  let key := Codec.tagged "ed25519" .bytes
  { write := fun k => key.write k.bytes, read := fun room t => (key.read room t).map .ed25519 }

end PublicKey

/-- The validator at an address has this power from now on; zero removes it. -/
structure ValidatorUpdate where
  address : String
  publicKey : PublicKey
  power : Int64
  deriving DecidableEq, Inhabited, Repr

def ValidatorUpdate.codec : Codec ValidatorUpdate :=
  .record
    (.cons (.required "address" .text) <|
      .cons (.required "pub_key" PublicKey.codec) <|
      .cons (.required "power" .int64) .nil)
    (fun (address, publicKey, power, _) => ⟨address, publicKey, power⟩)
    (fun u => (u.address, u.publicKey, u.power, ()))

end StakeLedger.Engine
