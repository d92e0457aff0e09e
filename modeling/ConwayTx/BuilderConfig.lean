import ConwayTx.Amount

/-!
# Builder configuration

The policy of the builder where the ledger leaves a choice.
-/

namespace ConwayTx

structure BuilderConfig where
  /-- Added to evaluated budgets, in hundredths. -/
  exUnitsMarginPercent : Amount := 20
  estimateExUnits : Bool := true
  /-- The collateral when neither the caller nor the parameters set one. -/
  collateralFallback : Amount := 5000000
  /-- Added to every fee estimate. -/
  feePadding : Amount := 0
  maxFeeRounds : UInt64 := 3
deriving DecidableEq

instance : Inhabited BuilderConfig := ⟨{}⟩

end ConwayTx
