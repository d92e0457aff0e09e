import ConwayTx.Json.Form
import ConwayTx.Value.Unit

/-!
# Units and asset names in JSON
-/

namespace ConwayTx

namespace AssetUnit

def toJson (u : AssetUnit) : Json :=
  .record [("policy_id", .ofText u.policyId), ("asset_name", .ofText u.assetName),
    ("quantity", .ofInt u.quantity.toInt)]

def ofJson? (j : Json) : Option AssetUnit := do
  let [some policyId, some assetName, some quantity] ←
    j.fields? ["policy_id", "asset_name", "quantity"] | none
  return ⟨← policyId.text?, ← assetName.text?, ← quantity.int64?⟩

end AssetUnit

/-- An asset name in a field of fixed width. The length is not checked against it. -/
structure PaddedName where
  length : UInt8
  bytes : Vector UInt8 32

namespace PaddedName

def ofName (name : AssetName) : PaddedName where
  length := UInt8.ofNat name.length
  bytes := Vector.ofFn fun i => name.bytes[i]?.getD 0

def toJson (n : PaddedName) : Json :=
  .record [("len", .ofNat n.length.toNat), ("bytes", .ofBytes n.bytes.toList)]

def ofJson? (j : Json) : Option PaddedName := do
  let [some length, some bytes] ← j.fields? ["len", "bytes"] | none
  return ⟨← length.uint8?, ← bytes.vector? 32⟩

end PaddedName

def AssetName.toJson (name : AssetName) : Json := (PaddedName.ofName name).toJson

end ConwayTx
