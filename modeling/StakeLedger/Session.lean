namespace StakeLedger

abbrev Session (σ α : Type) := OptionT (StateM σ) α

end StakeLedger
