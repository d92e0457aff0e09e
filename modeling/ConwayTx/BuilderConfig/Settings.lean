import ConwayTx.BuilderConfig
import ConwayTx.Text.Numeral

/-!
# Settings

A configuration out of loosely typed settings. A setting that does not convert counts as missing.
-/

namespace ConwayTx

inductive Setting where
  | bool (b : Bool)
  | int (n : Int)
  | text (s : String)

namespace Setting

def isYes (word : String) : Bool := word = "true" || word = "on" || word = "yes"
def isNo (word : String) : Bool := word = "false" || word = "off" || word = "no"

/-- Words in any case count as one and zero. -/
def toAmount? : Setting → Option Amount
  | bool b => some (if b then 1 else 0)
  | int n => if 0 ≤ n then Amount.ofNat? n.toNat else none
  | text s =>
    if isYes s.toLower then some 1
    else if isNo s.toLower then some 0
    else (Text.numeral? s.toList).bind Amount.ofNat?

def toBool? : Setting → Option Bool
  | bool b => some b
  | int n => some (n ≠ 0)
  | text s =>
    if isYes s.toLower || s = "1" then some true
    else if isNo s.toLower || s = "0" then some false
    else none

end Setting

namespace BuilderConfig

/-- At least one fee round is allowed. -/
def ofSettings (setting? : String → Option Setting) : BuilderConfig :=
  let amount (key : String) (fallback : Amount) : Amount :=
    ((setting? key).bind Setting.toAmount?).getD fallback
  let standard : BuilderConfig := {}
  { exUnitsMarginPercent := amount "builder.ex-units-margin-percent" standard.exUnitsMarginPercent
    estimateExUnits :=
      ((setting? "builder.estimate-ex-units").bind Setting.toBool?).getD standard.estimateExUnits
    collateralFallback := amount "builder.collateral-fallback" standard.collateralFallback
    feePadding := amount "builder.fee-padding" standard.feePadding
    maxFeeRounds := max 1 (amount "builder.max-fee-iterations" standard.maxFeeRounds) }

end BuilderConfig

end ConwayTx
