import ConwayTx.BuilderConfig
import ConwayTx.Json.Form

/-!
# Builder configurations in JSON
-/

namespace ConwayTx.BuilderConfig

def ofJson? (j : Json) : Option BuilderConfig := do
  let [some margin, some estimate, some collateral, some padding, some rounds] ←
    j.fields? ["ex_units_margin_percent", "estimate_ex_units", "collateral_fallback",
      "fee_padding", "max_fee_iterations"] | none
  return {
    exUnitsMarginPercent := ← margin.uint64?
    estimateExUnits := ← estimate.bool?
    collateralFallback := ← collateral.uint64?
    feePadding := ← padding.uint64?
    maxFeeRounds := ← rounds.uint64? }

end ConwayTx.BuilderConfig
