import ConwayTx.Fraction.Json
import ConwayTx.ProtocolParams
import ConwayTx.Script.Json

/-!
# Protocol parameters in JSON
-/

namespace ConwayTx

namespace ExUnits

def toJson (u : ExUnits) : Json :=
  .record [("mem", .ofNat u.mem.toNat), ("steps", .ofNat u.steps.toNat)]

def ofJson? (j : Json) : Option ExUnits := do
  let [some mem, some steps] ← j.fields? ["mem", "steps"] | none
  return ⟨← mem.uint64?, ← steps.uint64?⟩

end ExUnits

namespace CostModels

def toJson (models : CostModels) : Json :=
  .record (models.entries.map fun (version, model) =>
    (version.name, .array (model.map fun cost => .ofInt cost.toInt)))

/-- Of two models for one version the later stays. -/
def ofJson? : Json → Option CostModels
  | .object fields => do
    let models ← fields.mapM fun (name, model) => do
      let version ← PlutusVersion.ofName? (← Json.decodeText? name)
      return (version, ← model.list? Json.int64?)
    return .ofList models
  | _ => none

end CostModels

namespace ProtocolParams

def fieldNames : List String := [
  "min_fee_a", "min_fee_b", "max_tx_size", "max_value_size", "key_deposit", "pool_deposit",
  "coins_per_utxo_byte", "collateral_percent", "max_collateral_inputs", "price_mem", "price_step",
  "max_tx_ex_units", "cost_models"]

def toJson (p : ProtocolParams) : Json :=
  .record (fieldNames.zip [
    .ofNat p.minFeePerByte.toNat, .ofNat p.minFeeConstant.toNat, .ofNat p.maxTxSize.toNat,
    .ofNat p.maxValueSize.toNat, .ofNat p.keyDeposit.toNat, .ofNat p.poolDeposit.toNat,
    .ofNat p.coinsPerUtxoByte.toNat, .ofNat p.collateralPercent.toNat,
    .ofNat p.maxCollateralInputs.toNat, p.priceMem.toJson, p.priceStep.toJson,
    p.maxTxExUnits.toJson, p.costModels.toJson])

/-- Without cost models there are none. -/
def ofJson? (j : Json) : Option ProtocolParams := do
  let [some minFeePerByte, some minFeeConstant, some maxTxSize, some maxValueSize, some keyDeposit,
    some poolDeposit, some coinsPerUtxoByte, some collateralPercent, some maxCollateralInputs,
    some priceMem, some priceStep, some maxTxExUnits, costModels] ←
      j.fieldsFrom? (fieldNames.length - 1) fieldNames | none
  return {
    minFeePerByte := ← minFeePerByte.uint64?
    minFeeConstant := ← minFeeConstant.uint64?
    maxTxSize := ← maxTxSize.uint32?
    maxValueSize := ← maxValueSize.uint32?
    keyDeposit := ← keyDeposit.uint64?
    poolDeposit := ← poolDeposit.uint64?
    coinsPerUtxoByte := ← coinsPerUtxoByte.uint64?
    collateralPercent := ← collateralPercent.uint32?
    maxCollateralInputs := ← maxCollateralInputs.uint32?
    priceMem := ← Fraction.ofJson? priceMem
    priceStep := ← Fraction.ofJson? priceStep
    maxTxExUnits := ← ExUnits.ofJson? maxTxExUnits
    costModels := ← costModels.elim (some ∅) CostModels.ofJson? }

end ProtocolParams

end ConwayTx
