import ConwayTx.EncodeError
import ConwayTx.ProtocolParams
import ConwayTx.Witness

/-!
# Script integrity

The bytes that bind a transaction's redeemers and datums to the cost models they were budgeted
with.
-/

namespace ConwayTx.ScriptIntegrity

/-- The first version has key and costs wrapped in byte strings and its costs in an open array;
later ones are plain. -/
def languageView (version : PlutusVersion) (model : List Int64) : Cbor × Cbor :=
  let id := Cbor.small version.languageId
  match version with
  | .v1 => (.bytes id.encode, .bytes (Cbor.openArray (model.map .ofInt64)).encode)
  | .v2 | .v3 => (id, .array (model.map .ofInt64))

/-- Shorter keys first, then bytewise. -/
def keyBefore (a b : Cbor) : Bool :=
  (compareLex (compareOn List.length) compare a.encode b.encode).isLE

def languageViews (versions : SortedSet PlutusVersion) (models : CostModels) :
    Except EncodeError Cbor := do
  let views ← versions.keys.mapM fun version =>
    match models.find? version with
    | some model => .ok (languageView version model)
    | none => .error (.missingCostModel version)
  return .map (views.mergeSort fun a b => keyBefore a.1 b.1)

/-- Redeemers, then datums if there are any, then language views. -/
def bytes (redeemers : Redeemers) (datums : List PlutusData) (versions : SortedSet PlutusVersion)
    (models : CostModels) : Except EncodeError Bytes := do
  let views ← languageViews versions models
  let datumBytes := if datums.isEmpty then [] else (datumsToCbor datums).encode
  return redeemers.toCbor.encode ++ datumBytes ++ views.encode

/-- No hash without redeemers and datums. -/
def hash? (redeemers : Redeemers) (datums : List PlutusData) (versions : SortedSet PlutusVersion)
    (models : CostModels) : Except EncodeError (Option (Digest 32)) := do
  if redeemers.isEmpty && datums.isEmpty then return none
  return some (blake2b256 (← bytes redeemers datums versions models))

end ConwayTx.ScriptIntegrity
