import StakeLedger.Digest.Blake3

namespace StakeLedger.Framed

/-- Every part after its length, so that no two lists of parts give one stream. -/
def stream (parts : List Bytes) : Bytes :=
  parts.flatMap fun p => Bytes.ofUInt64 (UInt64.ofNat p.length) ++ p

def digest (parts : List Bytes) : Bytes := Blake3.digest (stream parts)

@[simp] theorem stream_nil : stream [] = [] := rfl

@[simp] theorem stream_cons (p : Bytes) (ps : List Bytes) :
    stream (p :: ps) = Bytes.ofUInt64 (UInt64.ofNat p.length) ++ (p ++ stream ps) := by
  simp [stream]

end StakeLedger.Framed
