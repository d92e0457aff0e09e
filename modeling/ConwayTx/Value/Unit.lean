import ConwayTx.Value

/-!
# Units

A quantity of lovelace or of one asset, named by hexadecimal text. A negative quantity is a burn.
-/

namespace ConwayTx

structure AssetUnit where
  policyId : String
  assetName : String
  quantity : Int64
deriving DecidableEq

namespace AssetUnit

def lovelaceName : String := "lovelace"

def lovelace (quantity : Int64) : AssetUnit := ⟨lovelaceName, "", quantity⟩

/-- No policy, or the name of the coin in its place. -/
def isLovelace (u : AssetUnit) : Bool := u.policyId = "" || u.policyId = lovelaceName

def display (u : AssetUnit) : String :=
  if u.isLovelace then s!"{u.quantity.toInt} {lovelaceName}"
  else s!"{u.quantity.toInt} {u.policyId}.{u.assetName}"

def policyOfHex (text : String) : Except InputError PolicyId :=
  match Hex.decode text with
  | .error _ => .error (.invalidHex .policyId text)
  | .ok bytes =>
    match Digest.ofBytes? bytes with
    | some policy => .ok policy
    | none => .error (.invalidLength .policyId 28 bytes.length)

/-- `none` for lovelace. -/
def assetId (u : AssetUnit) : Except InputError (Option (PolicyId × AssetName)) :=
  if u.isLovelace then .ok none
  else do
    let policy ← policyOfHex u.policyId
    let name ← AssetName.ofHex u.assetName
    return some (policy, name)

/-- Lovelace is never negative, an asset may be. -/
def value (u : AssetUnit) : Except InputError Value := do
  match ← u.assetId with
  | some (policy, name) => return (Value.ofCoin 0).addAsset policy name u.quantity.toInt
  | none =>
    if u.quantity < 0 then throw (.negativeQuantity lovelaceName u.quantity)
    else return Value.ofCoin u.quantity.toUInt64

end AssetUnit

end ConwayTx
