import ConwayTx.Address.Raw
import ConwayTx.Bech32

/-!
# Rejected arguments

Why an argument is refused before anything is built from it.
-/

namespace ConwayTx

inductive HexField where
  | policyId
  | assetName
deriving DecidableEq

def HexField.name : HexField → String
  | policyId => "policy id"
  | assetName => "asset name"

inductive AddressFault where
  | raw (fault : Address.Fault)
  | text (fault : Bech32.Fault)
  /-- The text is sound but carries no address. -/
  | payload
deriving DecidableEq

def AddressFault.message : AddressFault → String
  | raw fault => fault.message
  | text fault => fault.message
  | payload => "bad payload"

inductive InputError where
  | invalidHex (field : HexField) (value : String)
  | invalidLength (field : HexField) (expected actual : Nat)
  | negativeQuantity (unit : String) (quantity : Int64)
  | assetNameTooLong (length : Nat)
  | malformedAddress (address : String) (fault : AddressFault)
  | noStakeCredential (address : String)
  | noPaymentKeyHash (address : String)
  | quantityOutOfRange (asset : String) (quantity : Int)
  | notAnAsset (unit : String)
  | metadatumOutOfLimits (label : UInt64)
deriving DecidableEq

/-- The name of the cause in reports. -/
def InputError.name : InputError → String
  | invalidHex .. => "InvalidHex"
  | invalidLength .. => "InvalidLength"
  | negativeQuantity .. => "NegativeQuantity"
  | assetNameTooLong .. => "AssetNameTooLong"
  | malformedAddress .. => "MalformedAddress"
  | noStakeCredential .. => "NoStakeCredential"
  | noPaymentKeyHash .. => "NoPaymentKeyHash"
  | quantityOutOfRange .. => "QuantityOutOfRange"
  | notAnAsset .. => "NotAnAsset"
  | metadatumOutOfLimits .. => "MetadatumOutOfLimits"

def InputError.message : InputError → String
  | invalidHex field value => s!"Invalid hex in {field.name}: {Text.quoted value}"
  | invalidLength field expected actual =>
    s!"Invalid {field.name} length: expected {expected} bytes, got {actual}"
  | negativeQuantity unit quantity => s!"Negative quantity {quantity.toInt} for {unit}"
  | assetNameTooLong length => s!"Asset name too long: {length} bytes"
  | malformedAddress address fault => s!"Malformed address {address}: {fault.message}"
  | noStakeCredential address => s!"Address {address} has no stake credential"
  | noPaymentKeyHash address => s!"Address {address} has no payment key hash"
  | quantityOutOfRange asset quantity => s!"Quantity {quantity} of {asset} does not fit in 64 bits"
  | notAnAsset unit => s!"{unit} is not a native asset"
  | metadatumOutOfLimits label =>
    s!"Metadatum under label {label.toNat} is outside the ledger limits"

end ConwayTx
