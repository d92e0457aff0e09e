import ConwayTx.Certificate.Json
import ConwayTx.Json.Reader
import ConwayTx.Metadata.Json
import ConwayTx.Redeemer.Json
import ConwayTx.TxIn.Json
import ConwayTx.Value.Json
import ConwayTx.Witness.Json

/-!
# The catalog of forms

JSON texts are brought into the one text that their form writes.
-/

namespace ConwayTx.Json

/-- Reads a value and writes it again. -/
def normalize {α : Type} (read : Json → Option α) (write : α → Json) (j : Json) : Option Json :=
  (read j).map write

def normalizeDigest (size : Nat) : Json → Option Json :=
  normalize (α := Digest size) Digest.ofJson? Digest.toJson

/-- The normal form of a value of the named type. -/
def normalForm? (type : String) : Json → Option Json :=
  match type with
  | "ScriptHash" | "AddrKeyhash" | "PolicyId" | "PoolId" => normalizeDigest 28
  | "TxHash" | "DatumHash" | "ScriptDataHash" | "AuxiliaryDataHash" => normalizeDigest 32
  | "VKey" | "VrfKeyHash" => normalizeDigest 32
  | "Signature" => normalizeDigest 64
  | "NetworkId" => normalize Network.ofJson? Network.toJson
  | "Credential" | "StakeCredential" => normalize Credential.ofJson? Credential.toJson
  | "Address" => normalize Address.ofJson? Address.toJson
  | "ShelleyAddress" => normalize Address.paymentOfJson? Address.content
  | "ShelleyAddressDelegationPart" => normalize Delegation.ofJson? Delegation.toJson
  | "ShelleyAddressPointer" => normalize ChainPointer.ofJson? ChainPointer.toJson
  | "StakeAddress" => normalize StakeAddress.ofJson? StakeAddress.toJson
  | "UTxOIdentifier" => normalize TxIn.ofJson? TxIn.toJson
  | "ExUnits" => normalize ExUnits.ofJson? ExUnits.toJson
  | "VKeyWitness" => normalize KeyWitness.ofJson? KeyWitness.toJson
  | "Unit" => normalize AssetUnit.ofJson? AssetUnit.toJson
  | "AssetName" => normalize PaddedName.ofJson? PaddedName.toJson
  | "DRep" => normalize DRep.ofJson? DRep.toJson
  | "Relay" => normalize Relay.ofJson? Relay.toJson
  | "PoolMetadata" => normalize PoolMetadata.ofJson? PoolMetadata.toJson
  | "PoolParams" => normalize PoolParams.ofJson? PoolParams.toJson
  | "Certificate" => normalize Certificate.ofJson? Certificate.toJson
  | "NativeScript" => normalize NativeScript.ofJson? NativeScript.toJson
  | "PlutusVersion" => normalize PlutusVersion.ofJson? PlutusVersion.toJson
  | "PlutusScript" => normalize PlutusScript.ofJson? PlutusScript.toJson
  | "Script" => normalize Script.ofJson? Script.toJson
  | "RedeemerTag" => normalize RedeemerTag.ofJson? RedeemerTag.toJson
  | "RedeemerPointer" => normalize RedeemerPointer.ofJson? RedeemerPointer.toJson
  | "RedeemerValue" => normalize Redeemer.ofJson? Redeemer.toJson
  | "PlutusData" => normalize PlutusData.ofJson? PlutusData.toJson
  | "DatumOption" => normalize Datum.ofJson? Datum.toJson
  | "Metadatum" => normalize Metadatum.ofJson? Metadatum.toJson
  | "ProtocolParams" => normalize ProtocolParams.ofJson? ProtocolParams.toJson
  | _ => fun _ => none

def recode? (type text : String) : Option String := do
  let normal ← normalForm? type (← read? text)
  return normal.render

end ConwayTx.Json
