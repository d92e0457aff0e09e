import ConwayTx.ExUnits
import ConwayTx.Fraction
import ConwayTx.PlutusVersion
import ConwayTx.SortedMap

/-!
# Protocol parameters

The parameters of the ledger that a transaction is built against.
-/

namespace ConwayTx

abbrev CostModels := SortedMap PlutusVersion (List Int64)

structure ProtocolParams where
  minFeePerByte : Amount := 44
  minFeeConstant : Amount := 155381
  maxTxSize : UInt32 := 16384
  /-- Bound on the encoded size of one output value. -/
  maxValueSize : UInt32 := 5000
  keyDeposit : Amount := 2000000
  poolDeposit : Amount := 500000000
  coinsPerUtxoByte : Amount := 4310
  /-- Collateral in hundredths of the fee. -/
  collateralPercent : UInt32 := 150
  maxCollateralInputs : UInt32 := 3
  priceMem : Fraction := ⟨577, 10000, by decide⟩
  priceStep : Fraction := ⟨721, 10000000, by decide⟩
  maxTxExUnits : ExUnits := ⟨14000000, 10000000000⟩
  costModels : CostModels := ∅

namespace ProtocolParams

instance : Inhabited ProtocolParams := ⟨{}⟩

/-- The fee for a number of bytes, script runs apart. -/
def sizeFee (p : ProtocolParams) (size : Nat) : Amount :=
  Amount.clamp (size * p.minFeePerByte.toNat + p.minFeeConstant.toNat)

/-- The fee of the largest transaction, script runs apart. -/
def maxTxFee (p : ProtocolParams) : Amount := p.sizeFee p.maxTxSize.toNat

end ProtocolParams

end ConwayTx
