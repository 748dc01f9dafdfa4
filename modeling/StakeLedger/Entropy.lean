/-!
Entropy from a beacon, fetched at the end of every block whose height the interval divides, and kept
until the next.
-/

namespace StakeLedger.Entropy

def fetchPath (height : Int64) : String := "/baseline/entropy/fetch/" ++ toString height.toInt

/-- An interval of zero means never. -/
def isFetchHeight (height : Int64) (interval : UInt64) : Bool :=
  interval ≠ 0 && 0 < height.toInt && height.toInt.toNat % interval.toNat == 0

end StakeLedger.Entropy
