namespace StakeLedger.Saturating

def least : Int := -0x8000000000000000
def greatest : Int := 0x8000000000000000 - 1

def clamp (n : Int) : Int64 := Int64.ofInt (max least (min greatest n))

def add (a b : Int64) : Int64 := clamp (a.toInt + b.toInt)

theorem toInt_clamp (n : Int) : (clamp n).toInt = max least (min greatest n) := by
  unfold clamp least greatest
  rw [Int64.toInt_ofInt_of_le] <;> omega

@[simp] theorem toInt_add (a b : Int64) :
    (add a b).toInt = max least (min greatest (a.toInt + b.toInt)) := toInt_clamp _

end StakeLedger.Saturating
