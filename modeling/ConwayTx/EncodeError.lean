import ConwayTx.Amount
import ConwayTx.PlutusVersion

/-!
# Encoding failures

What has no binary form, and outputs whose minimum kept growing.
-/

namespace ConwayTx

/-- Numbers that their field cannot hold. -/
inductive RangeFault where
  | assetQuantity
  | mintQuantity
  | metadatumInteger
deriving DecidableEq

def RangeFault.message : RangeFault → String
  | assetQuantity => "asset quantity exceeds u64"
  | mintQuantity => "mint quantity exceeds int64"
  | metadatumInteger => "metadatum integer out of range"

inductive EncodeError where
  | outOfRange (fault : RangeFault)
  | missingCostModel (version : PlutusVersion)
  | minimumNotReached (rounds : Nat) (coin required : Amount)
deriving DecidableEq

/-- The name of the cause in reports. -/
def EncodeError.name : EncodeError → String
  | outOfRange .. => "Cbor"
  | missingCostModel .. => "MissingCostModel"
  | minimumNotReached .. => "MinUtxoNotConverged"

def EncodeError.message : EncodeError → String
  | outOfRange fault => s!"CBOR encoding failed: {fault.message}"
  | missingCostModel version => s!"No cost model for {version.name}"
  | minimumNotReached rounds coin required =>
    s!"Minimum UTxO did not converge after {rounds} iterations (coin {coin.toNat}, required {required.toNat})"

end ConwayTx
